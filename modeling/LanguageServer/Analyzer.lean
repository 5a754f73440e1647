import LanguageServer.Log
import LanguageServer.Payload.Analysis

namespace LanguageServer

/-- Why a document could not be analysed. -/
structure AnalyzerError where
  uri : String
  reason : String
  deriving DecidableEq

def AnalyzerError.message (e : AnalyzerError) : String :=
  s!"analysis failed for {e.uri}: {e.reason}"

/-- What finds hints and diagnostics for a document, from its name and its text. A document that
is not open has the empty text. -/
structure Analyzer where
  inlayHints : (uri text : String) → Range → Except AnalyzerError (List InlayHint)
  diagnostics : (uri text : String) → Except AnalyzerError (List Diagnostic)
  /-- Milliseconds that every answer takes. -/
  delay : Nat := 0

namespace Analyzer

/-- Decimal places of a second without the zeros at their end. -/
def fractionText (milliseconds : Nat) : String :=
  let digits := Nat.toDigits 10 (1000 + milliseconds)
  String.ofList ((digits.drop 1).reverse.dropWhile (· = '0')).reverse

/-- A time in seconds if there is a whole one, else in milliseconds. -/
def durationText (milliseconds : Nat) : String :=
  if milliseconds < 1000 then s!"{milliseconds}ms"
  else
    let fraction := fractionText (milliseconds % 1000)
    if fraction.isEmpty then s!"{milliseconds / 1000}s"
    else s!"{milliseconds / 1000}.{fraction}s"

/-- What is logged when an analysis starts. -/
def startLog (a : Analyzer) : List Log.Event :=
  if a.delay = 0 then []
  else [⟨.debug, .analyzer, s!"Simulating analysis for {durationText a.delay}"⟩]

def sampleHint : InlayHint where
  position := ⟨{ val := 5 }, { val := 19 }⟩
  label := ": Admin"

def sampleDiagnostic : Diagnostic where
  range := ⟨⟨{ val := 25 }, { val := 0 }⟩, ⟨{ val := 25 }, { val := 21 }⟩⟩
  message := "Type Mismatch: type Admin is not assignable to type User"

/-- Finds the same in every document. -/
def sample (delay : Nat) : Analyzer where
  inlayHints _ _ _ := .ok [sampleHint]
  diagnostics _ _ := .ok [sampleDiagnostic]
  delay := delay

end Analyzer

end LanguageServer
