namespace LanguageServer.Text

/-- Characters with the Unicode property White_Space. -/
def isBlank (c : Char) : Bool :=
  let n := c.toNat
  (9 ≤ n && n ≤ 13) || n = 0x20 || n = 0x85 || n = 0xA0 || n = 0x1680 ||
    (0x2000 ≤ n && n ≤ 0x200A) || n = 0x2028 || n = 0x2029 || n = 0x202F || n = 0x205F ||
    n = 0x3000

/-- A text without the blanks at both ends. -/
def trim (cs : List Char) : List Char :=
  ((cs.dropWhile isBlank).reverse.dropWhile isBlank).reverse

theorem trim_eq_self {cs : List Char} (hhead : ∀ c ∈ cs.head?, isBlank c = false)
    (hlast : ∀ c ∈ cs.getLast?, isBlank c = false) : trim cs = cs := by
  have first : cs.dropWhile isBlank = cs := by
    cases cs with
    | nil => rfl
    | cons c cs => rw [List.dropWhile_cons_of_neg (by simp [hhead c (by simp)])]
  have last : cs.reverse.dropWhile isBlank = cs.reverse := by
    cases hr : cs.reverse with
    | nil => rfl
    | cons c r =>
      rw [List.dropWhile_cons_of_neg]
      have hc : cs.getLast? = some c := by rw [List.getLast?_eq_head?_reverse, hr]; rfl
      simp [hlast c (by simp [hc])]
  rw [trim, first, last, List.reverse_reverse]

end LanguageServer.Text
