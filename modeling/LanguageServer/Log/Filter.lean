import LanguageServer.Log.Directive

namespace LanguageServer.Log

/-- Directives, of which the one that says most about an event decides. -/
abbrev Filter := List Directive

namespace Filter

/-- The directives between commas. The first one that cannot be used is reported. -/
def parse (text : String) : Except FilterFault Filter :=
  ((fields ',' text.toList).filter (· ≠ [])).mapM fun cs => Directive.parse (String.ofList cs)

/-- The better one of two directives for the same event: the one that says more about it, and of two
that say the same the later one. -/
def better (best : Option Directive) (d : Directive) : Option Directive :=
  match best with
  | none => some d
  | some b => if b.weight ≤ d.weight then some d else some b

/-- The directive that decides about a source. -/
def decisive (f : Filter) (source : String) : Option Directive :=
  (f.filter (·.concerns source)).foldl better none

/-- Without a directive nothing is logged. -/
def allows (f : Filter) (e : Event) : Bool :=
  match f.decisive e.source.name with
  | none => false
  | some d => e.level.rank ≤ d.threshold

/-- What is more urgent than something that is logged is logged too. -/
theorem allows_of_rank_le {f : Filter} {e : Event} {l : Level} (h : f.allows e = true)
    (hl : l.rank ≤ e.level.rank) : f.allows { e with level := l } = true := by
  unfold allows at h ⊢
  dsimp only at h ⊢
  split at h
  · cases h
  · simp only [decide_eq_true_eq] at h ⊢
    exact Nat.le_trans hl h

end Filter

end LanguageServer.Log
