namespace LanguageServer

/-- The widths of the integers in messages. -/
inductive Width where
  | i32
  | u32
  | i64
  deriving DecidableEq

namespace Width

def name : Width → String
  | .i32 => "i32"
  | .u32 => "u32"
  | .i64 => "i64"

def min : Width → Int
  | .i32 => -2147483648
  | .u32 => 0
  | .i64 => -9223372036854775808

def max : Width → Int
  | .i32 => 2147483647
  | .u32 => 4294967295
  | .i64 => 9223372036854775807

end Width

/-- An integer of a given width. -/
structure Word (w : Width) where
  val : Int
  min_le : w.min ≤ val := by decide
  le_max : val ≤ w.max := by decide
  deriving DecidableEq

namespace Word

def ofInt? (w : Width) (n : Int) : Option (Word w) :=
  if h : w.min ≤ n ∧ n ≤ w.max then some ⟨n, h.1, h.2⟩ else none

theorem ofInt?_eq_some_iff {w : Width} {n : Int} {x : Word w} :
    ofInt? w n = some x ↔ x.val = n := by
  unfold ofInt?
  constructor
  · intro h
    split at h
    · cases h
      rfl
    · cases h
  · rintro rfl
    rw [dif_pos ⟨x.min_le, x.le_max⟩]

theorem ofInt?_val {w : Width} (x : Word w) : ofInt? w x.val = some x :=
  ofInt?_eq_some_iff.mpr rfl

end Word

end LanguageServer
