import LanguageServer.Analyzer
import LanguageServer.Arguments
import LanguageServer.Binary64
import LanguageServer.Binary64.Shortest
import LanguageServer.Bytes
import LanguageServer.Dispatcher
import LanguageServer.Documents
import LanguageServer.Fields
import LanguageServer.Frame
import LanguageServer.Frame.Header
import LanguageServer.Handler
import LanguageServer.Json.Fault
import LanguageServer.Json.Inspect
import LanguageServer.Json.Parser
import LanguageServer.Json.Printer
import LanguageServer.Json.Scan.Collection
import LanguageServer.Json.Scan.Number
import LanguageServer.Json.Scan.Skip
import LanguageServer.Json.Scan.Text
import LanguageServer.Json.Scan.Value
import LanguageServer.Json.Scanner
import LanguageServer.Json.Value
import LanguageServer.Log
import LanguageServer.Log.Directive
import LanguageServer.Log.Filter
import LanguageServer.Main
import LanguageServer.Message
import LanguageServer.Message.Response
import LanguageServer.Numeral
import LanguageServer.Numeral.Real
import LanguageServer.Path
import LanguageServer.Payload
import LanguageServer.Payload.Analysis
import LanguageServer.Payload.Document
import LanguageServer.Payload.Handshake
import LanguageServer.Payload.Position
import LanguageServer.Program
import LanguageServer.Regex.Bracket
import LanguageServer.Regex.Expression
import LanguageServer.Regex.Flags
import LanguageServer.Regex.Group
import LanguageServer.Regex.Primitive
import LanguageServer.RequestId
import LanguageServer.Schema
import LanguageServer.Schema.OfText
import LanguageServer.Schema.OfValue
import LanguageServer.Schema.ToValue
import LanguageServer.Server
import LanguageServer.Session
import LanguageServer.Settings
import LanguageServer.Text.Alphabetic
import LanguageServer.Text.Alphanumeric
import LanguageServer.Text.Blank
import LanguageServer.Text.Combining
import LanguageServer.Text.Edges
import LanguageServer.Text.Lossy
import LanguageServer.Text.Numeric
import LanguageServer.Text.Plain
import LanguageServer.Text.Quoted
import LanguageServer.Text.Unprintable
import LanguageServer.Transport.Error
import LanguageServer.Transport.Reader
import LanguageServer.Transport.Sink
import LanguageServer.Word
import LanguageServer.Proofs.Bytes.Characters
import LanguageServer.Proofs.Bytes.Search
import LanguageServer.Proofs.Frame.Lines
import LanguageServer.Proofs.Frame.Declared
import LanguageServer.Proofs.Frame.Name
import LanguageServer.Proofs.Frame.Resync
import LanguageServer.Proofs.Stream
import LanguageServer.Proofs.Stream.Cuts
import LanguageServer.Proofs.Stream.Indifferent
import LanguageServer.Proofs.Transport.Bodies
import LanguageServer.Proofs.Frame.Encode
import LanguageServer.Proofs.Frame.Noise
import LanguageServer.Proofs.Transport.Recovery
import LanguageServer.Proofs.Stream.Packets
import LanguageServer.Proofs.Transport.Cuttings
import LanguageServer.Proofs.Dispatcher
import LanguageServer.Proofs.Dispatcher.Replay
import LanguageServer.Proofs.Server.Sending
import LanguageServer.Proofs.Server.Staged
import LanguageServer.Proofs.Server.Lifecycle
import LanguageServer.Proofs.Dispatcher.Follow
import LanguageServer.Proofs.Dispatcher.Documents
import LanguageServer.Proofs.Transport.Account
import LanguageServer.Proofs.Json.Text
import LanguageServer.Proofs.Json.Number
import LanguageServer.Proofs.Json.Collection
import LanguageServer.Proofs.Json.Value
import LanguageServer.Proofs.Transport.Truncated
import LanguageServer.Proofs.Transport.Written
import LanguageServer.Proofs.Json.Skip
import LanguageServer.Proofs.Schema.OfText
import LanguageServer.Proofs.Schema.ToValue
import LanguageServer.Proofs.Message.Response
import LanguageServer.Proofs.Handler
import LanguageServer.Proofs.Dispatcher.Answers
import LanguageServer.Proofs.Dispatcher.Late
import LanguageServer.Proofs.Message.RoundTrip
import LanguageServer.Proofs.Session
import LanguageServer.Proofs.Frame.Refused
import LanguageServer.Proofs.Transport.Refused
import LanguageServer.Proofs.Server.Limited
import LanguageServer.Proofs.Dispatcher.Inquiry
import LanguageServer.Proofs.Server.Interrupted
import LanguageServer.Proofs.Transport.Buffer
import LanguageServer.Proofs.Handler.Effects
import LanguageServer.Proofs.Frame.Grammar
import LanguageServer.Proofs.Schema.Named
import LanguageServer.Proofs.Schema.Straight
import LanguageServer.Proofs.Schema.Object
import LanguageServer.Proofs.Message.Rules
import LanguageServer.Proofs.Message.Listed
import LanguageServer.Proofs.Transport.Continued
import LanguageServer.Proofs.Transport.Progress
import LanguageServer.Proofs.Payload.RoundTrip
import LanguageServer.Proofs.Payload.Variation
