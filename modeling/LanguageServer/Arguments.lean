import LanguageServer.Numeral
import LanguageServer.Text.Lossy
import LanguageServer.Text.Plain

namespace LanguageServer

/-- What the arguments of the program ask for. -/
structure Arguments where
  logFile : Option Bytes := none
  logFilter : Option String := none
  delay : Option Nat := none
  stdio : Bool := false
  deriving DecidableEq

/-- The options that take a value. -/
inductive Setting where
  | logFile
  | logFilter
  | delay
  deriving DecidableEq

namespace Setting

def name : Setting → String
  | .logFile => "log-file"
  | .logFilter => "log-level"
  | .delay => "analysis-delay-ms"

/-- How an option and its value are written. -/
def usage : Setting → String
  | .logFile => "--log-file <PATH>"
  | .logFilter => "--log-level <FILTER>"
  | .delay => "--analysis-delay-ms <MS>"

def all : List Setting := [.logFile, .logFilter, .delay]

def ofName? (name : Bytes) : Option Setting := all.find? fun s => Bytes.ofText s.name = name

end Setting

/-- The options that take no value. -/
inductive Flag where
  | stdio
  | help
  | version
  deriving DecidableEq

namespace Flag

def name : Flag → String
  | .stdio => "stdio"
  | .help => "help"
  | .version => "version"

def usage (f : Flag) : String := "--" ++ f.name

def all : List Flag := [.stdio, .help, .version]

def ofName? (name : Bytes) : Option Flag := all.find? fun f => Bytes.ofText f.name = name

end Flag

/-- Why arguments make no sense. -/
inductive UsageError where
  | missingValue (s : Setting)
  | repeatedSetting (s : Setting)
  | repeatedFlag (f : Flag)
  | brokenText
  | invalidValue (s : Setting) (value : String) (fault : Numeral.Fault)
  | unexpectedValue (f : Flag) (value : String)
  | unknown (argument : String)
  deriving DecidableEq

/-- The wording of an error, which is made for a terminal. -/
def UsageError.message : UsageError → String
  | .missingValue s => s!"a value is required for '{s.usage}' but none was supplied"
  | .repeatedSetting s => s!"the argument '{s.usage}' cannot be used multiple times"
  | .repeatedFlag f => s!"the argument '{f.usage}' cannot be used multiple times"
  | .brokenText => "invalid UTF-8 was detected in one or more arguments"
  | .invalidValue s value fault =>
    s!"invalid value '{Text.plain value}' for '{s.usage}': {fault.message}"
  | .unexpectedValue f value =>
    s!"unexpected value '{Text.plain value}' for '{f.usage}' found; no more were expected"
  | .unknown argument => s!"unexpected argument '{Text.plain argument}' found"

/-- Why a program does nothing but say something. -/
inductive Refusal where
  | help
  | version
  | error (e : UsageError)
  deriving DecidableEq

namespace Arguments

/-- The first number that is too large for a delay. -/
def delayBound : Nat := Nat.pow 2 64

/-- Gives a setting its value. It can have only one. -/
def assign (a : Arguments) (s : Setting) (value : Bytes) : Except UsageError Arguments :=
  match s with
  | .logFile =>
    if a.logFile.isSome then .error (.repeatedSetting s)
    else if value.isEmpty then .error (.missingValue s)
    else .ok { a with logFile := some value }
  | .logFilter =>
    if a.logFilter.isSome then .error (.repeatedSetting s)
    else
      match value.toText? with
      | none => .error .brokenText
      | some text => .ok { a with logFilter := some text }
  | .delay =>
    if a.delay.isSome then .error (.repeatedSetting s)
    else
      match value.toText? with
      | none => .error .brokenText
      | some text =>
        match Numeral.read delayBound text.toList with
        | .error fault => .error (.invalidValue s text fault)
        | .ok n => .ok { a with delay := some n }

/-- The arguments so far, and a setting at the end of them whose value has not been looked at. -/
structure Scan where
  given : Arguments := {}
  pending : Option (Setting × Option Bytes) := none
  deriving DecidableEq

namespace Scan

/-- The arguments with the value of the last setting. -/
def settle (scan : Scan) : Except Refusal Arguments :=
  match scan.pending with
  | none => .ok scan.given
  | some (s, none) => .error (.error (.missingValue s))
  | some (s, some value) => (scan.given.assign s value).mapError .error

def unknown {α : Type} (argument : Bytes) : Except Refusal α :=
  .error (.error (.unknown (Text.lossy argument)))

def raise (scan : Scan) (f : Flag) : Except Refusal Scan :=
  match scan.settle with
  | .error e => .error e
  | .ok given =>
    match f with
    | .help => .error .help
    | .version => .error .version
    | .stdio =>
      if given.stdio then .error (.error (.repeatedFlag f))
      else .ok { given := { given with stdio := true } }

/-- Takes in an option with a long name. Its value may stand behind an equals sign. -/
def long (scan : Scan) (body : Bytes) : Except Refusal Scan :=
  let name := body.takeWhile (· ≠ 61)
  match Setting.ofName? name, Flag.ofName? name, body.drop name.length with
  | some s, _, [] =>
    match scan.settle with
    | .error e => .error e
    | .ok given => .ok { given := given, pending := some (s, none) }
  | some s, _, _ :: value =>
    match scan.settle with
    | .error e => .error e
    | .ok given =>
      match given.assign s value with
      | .error e => .error (.error e)
      | .ok given => .ok { given := given }
  | none, some f, [] => scan.raise f
  | none, some f, _ :: value => .error (.error (.unexpectedValue f (Text.lossy value)))
  | none, none, _ => unknown (45 :: 45 :: name)

/-- Takes in an option with a short name. The first one says all, since none can be followed by
another. -/
def short (scan : Scan) (names : Bytes) : Except Refusal Scan :=
  match names with
  | 104 :: _ => scan.raise .help
  | 86 :: _ => scan.raise .version
  | _ => unknown (45 :: names.take (names.charLength?.getD names.length))

/-- Takes in an argument that is no option: only the value of a setting can be one. -/
def plain (scan : Scan) (argument : Bytes) : Except Refusal Scan :=
  match scan.pending with
  | some (s, none) => .ok { scan with pending := some (s, some argument) }
  | _ => unknown argument

/-- Takes in one argument. -/
def step (scan : Scan) (argument : Bytes) : Except Refusal Scan :=
  match argument with
  | 45 :: 45 :: body => scan.long body
  | 45 :: b :: names => scan.short (b :: names)
  | _ => scan.plain argument

/-- The argument that ends the options. -/
def optionsEnd : Bytes := [45, 45]

/-- Takes in the arguments from the left. Nothing can follow the end of the options. -/
def run (scan : Scan) : List Bytes → Except Refusal Arguments
  | [] => scan.settle
  | argument :: rest =>
    if argument = optionsEnd then
      match rest with
      | [] => scan.settle
      | next :: _ => unknown next
    else
      match scan.step argument with
      | .error e => .error e
      | .ok next => run next rest

end Scan

/-- Reads the arguments of the program. -/
def parse (arguments : List Bytes) : Except Refusal Arguments := ({} : Scan).run arguments

end Arguments

end LanguageServer
