namespace LanguageServer.Text

/-- Membership in a set of numbers given by the places, in rising order, where it begins or ends. -/
def within (edges : List Nat) (n : Nat) : Bool := (edges.takeWhile (· ≤ n)).length % 2 = 1

theorem within_pair {a b n : Nat} : within [a, b] n = true ↔ a ≤ n ∧ n < b := by
  unfold within
  by_cases ha : a ≤ n <;> by_cases hb : b ≤ n <;> simp [List.takeWhile, ha, hb]
  omega

end LanguageServer.Text
