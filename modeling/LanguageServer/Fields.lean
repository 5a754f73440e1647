namespace LanguageServer

/-- The parts between separators, the empty ones too. -/
def fields {α : Type} [DecidableEq α] (separator : α) : List α → List (List α)
  | [] => [[]]
  | a :: as =>
    if a = separator then [] :: fields separator as
    else
      match fields separator as with
      | [] => [[a]]
      | part :: parts => (a :: part) :: parts

theorem fields_ne_nil {α : Type} [DecidableEq α] (separator : α) (as : List α) :
    fields separator as ≠ [] := by
  cases as with
  | nil => simp [fields]
  | cons a as =>
    unfold fields
    split
    · simp
    · split <;> simp

theorem intercalate_fields {α : Type} [DecidableEq α] (separator : α) (as : List α) :
    [separator].intercalate (fields separator as) = as := by
  induction as with
  | nil => rfl
  | cons a as ih =>
    unfold fields
    split
    · rename_i h
      have hne := fields_ne_nil separator as
      cases hf : fields separator as with
      | nil => exact absurd hf hne
      | cons part parts =>
        rw [hf] at ih
        simp [List.intercalate, h] at ih ⊢
        exact ih
    · split
      · rename_i hf
        exact absurd hf (fields_ne_nil separator as)
      · rename_i part parts hf
        rw [hf] at ih
        cases parts <;> simp [List.intercalate] at ih ⊢ <;> exact ih

end LanguageServer
