import LanguageServer.Arguments
import LanguageServer.Path

namespace LanguageServer

/-- What the program is told by its surroundings. A variable may be any bytes. -/
structure Surroundings where
  /-- The filter for the log. -/
  logFilter : Option Bytes := none
  /-- The directory for the data of programs. -/
  dataHome : Option Bytes := none
  /-- The directory of the user. -/
  home : Option Bytes := none
  deriving DecidableEq

/-- How a server runs. -/
structure Settings where
  logPath : Bytes
  logFilter : String
  /-- Milliseconds that are added to every analysis. -/
  delay : Nat
  deriving DecidableEq

namespace Settings

def defaultLogFilter : String := "info"

/-- The directory for the data of programs. It has a usual place in the directory of the user, and
without one the current directory has to do. -/
def dataDirectory (e : Surroundings) : Bytes :=
  match e.dataHome, e.home with
  | some (b :: bs), _ => b :: bs
  | _, some home => Path.join (Path.join home (Bytes.ofText ".local")) (Bytes.ofText "share")
  | _, none => Path.here

def defaultLogPath (e : Surroundings) : Bytes :=
  Path.join (Path.join (dataDirectory e) (Bytes.ofText "loom-lsp")) (Bytes.ofText "loom-lsp.log")

/-- The settings for arguments that ask for nothing. -/
def standard (e : Surroundings) : Settings := ⟨defaultLogPath e, defaultLogFilter, 0⟩

/-- What the arguments leave open is as in the standard settings. -/
def ofArguments (e : Surroundings) (a : Arguments) : Settings :=
  let s := standard e
  ⟨a.logFile.getD s.logPath, a.logFilter.getD s.logFilter, a.delay.getD s.delay⟩

/-- Whether two settings do the same. The log paths may be written differently. -/
def same (s t : Settings) : Bool :=
  Path.same s.logPath t.logPath && s.logFilter = t.logFilter && s.delay = t.delay

theorem same_refl (s : Settings) : s.same s = true := by
  simp [same, Path.same_refl]

end Settings

end LanguageServer
