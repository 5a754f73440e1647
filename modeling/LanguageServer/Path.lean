import LanguageServer.Bytes
import LanguageServer.Fields

namespace LanguageServer.Path

/-- The byte between the parts of a path. -/
def separator : UInt8 := 47

/-- The part that stands for the place where it is met. -/
def here : Bytes := [46]

def isAbsolute (p : Bytes) : Bool := p.head? = some separator

/-- A path as seen from another one. An absolute path is the same from everywhere. -/
def join (base p : Bytes) : Bytes :=
  if isAbsolute p then p
  else if base.isEmpty || base.getLast? = some separator then base ++ p
  else base ++ separator :: p

/-- The parts that count: none is empty, and only the first one can stand for the place where it
is met. -/
def parts (p : Bytes) : List Bytes :=
  match fields separator p with
  | [] => []
  | first :: rest => (first :: rest.filter (· ≠ here)).filter (· ≠ [])

/-- Paths that lead to the same place, as far as their parts tell. -/
def same (p q : Bytes) : Bool := isAbsolute p = isAbsolute q && parts p = parts q

/-- The path without its last part. -/
def parent (p : Bytes) : Bytes :=
  ((p.reverse.dropWhile (· = separator)).dropWhile (· ≠ separator)).reverse

theorem same_refl (p : Bytes) : same p p = true := by
  simp [same]

end LanguageServer.Path
