import LanguageServer.Message
import LanguageServer.Proofs.Transport.Bodies

namespace LanguageServer

namespace Signal

/-- The error after which a stream can no longer be used. -/
def fatal? : Signal → Option TransportError
  | .error e => if e.isFatal then some e else none
  | _ => none

def message? (signal : Signal) : Option Message :=
  signal.body?.bind fun body => (Message.decode body).toOption

end Signal

namespace Reader

variable {r : Reader} {input : List Arrival}

/-- The bodies that a reader finds up to its first fatal error. -/
def usableBodies (r : Reader) (input : List Arrival) : List Bytes :=
  ((r.signals input).takeWhile fun signal => signal.fatal?.isNone).filterMap Signal.body?

def messages (r : Reader) (input : List Arrival) : List Message :=
  (r.usableBodies input).filterMap fun body => (Message.decode body).toOption

/-- The first fatal error of a reader. -/
def failure? (r : Reader) (input : List Arrival) : Option TransportError :=
  (r.signals input).findSome? Signal.fatal?

theorem messages_eq (r : Reader) (input : List Arrival) : r.messages input =
    ((r.signals input).takeWhile fun signal => signal.fatal?.isNone).filterMap
      Signal.message? := by
  rw [messages, usableBodies, List.filterMap_filterMap]
  rfl

theorem signals_of_done (h : (r.next input).signal = .done) : r.signals input = [] := by
  rw [signals]
  exact dif_pos h

theorem signals_of_ne_done (h : (r.next input).signal ≠ .done) : r.signals input =
    (r.next input).signal :: (r.next input).reader.signals (r.next input).input := by
  rw [signals]
  exact dif_neg h

theorem signals_of_signal {signal : Signal} (h : (r.next input).signal = signal)
    (hne : signal ≠ .done) :
    r.signals input = signal :: (r.next input).reader.signals (r.next input).input := by
  rw [signals_of_ne_done (by rwa [h]), h]

theorem messages_of_done (h : (r.next input).signal = .done) :
    r.messages input = [] ∧ r.failure? input = none := by
  rw [messages_eq, failure?, signals_of_done h]
  exact ⟨rfl, rfl⟩

theorem messages_of_fatal {e : TransportError} (h : (r.next input).signal = .error e)
    (he : e.isFatal = true) : r.messages input = [] ∧ r.failure? input = some e := by
  have hfatal : (Signal.error e).fatal? = some e := if_pos he
  have hne : (r.next input).signal ≠ .done := by simp [h]
  rw [messages_eq, failure?, signals_of_ne_done hne, h]
  simp [hfatal]

theorem messages_of_usable (h : (r.next input).signal.fatal? = none)
    (hne : (r.next input).signal ≠ .done) :
    r.messages input = (r.next input).signal.message?.toList ++
        (r.next input).reader.messages (r.next input).input ∧
      r.failure? input = (r.next input).reader.failure? (r.next input).input := by
  rw [messages_eq, messages_eq, failure?, signals_of_ne_done hne]
  constructor
  · rw [List.takeWhile_cons_of_pos (by simp [h]), List.filterMap_cons]
    cases (r.next input).signal.message? <;> rfl
  · rw [List.findSome?_cons, h]
    rfl

theorem fatal?_finish (r : Reader) : r.finish.1.fatal? = none := by
  unfold finish
  split <;> rfl

theorem fatal?_signal? {signal : Signal} {after : Reader} {log : List Log.Event}
    (h : r.signal? = some (signal, after, log)) : signal.fatal? = none := by
  rcases signal?_cases h with ⟨f, -, rfl, -⟩ | ⟨e, -, rfl, -⟩ | ⟨-, -, rfl, -⟩
  · rfl
  · rfl
  · exact fatal?_finish r

theorem next_of_fatal (r : Reader) (input : List Arrival) :
    (r.next input).input ⊆ input ∧ ∀ e, (r.next input).signal.fatal? = some e →
      ∃ reason, e = .io reason ∧ .failure reason ∈ input := by
  induction input generalizing r with
  | nil =>
    unfold next
    split
    · rename_i h
      refine ⟨List.Subset.refl _, ?_⟩
      intro e he
      rw [fatal?_signal? h] at he
      cases he
    · refine ⟨List.Subset.refl _, ?_⟩
      intro e he
      rw [show (r.close []).signal.fatal? = none from fatal?_finish _] at he
      cases he
  | cons a rest ih =>
    unfold next
    split
    · rename_i h
      refine ⟨List.Subset.refl _, ?_⟩
      intro e he
      rw [fatal?_signal? h] at he
      cases he
    · match a with
      | .bytes [] =>
        refine ⟨List.subset_cons_self _ _, ?_⟩
        intro e he
        rw [show (r.close rest).signal.fatal? = none from fatal?_finish _] at he
        cases he
      | .bytes (b :: bs) =>
        obtain ⟨hsub, hfatal⟩ := ih { r with buffer := r.buffer ++ b :: bs }
        refine ⟨List.Subset.trans hsub (List.subset_cons_self _ _), ?_⟩
        intro e he
        obtain ⟨reason, hreason, hmem⟩ := hfatal e he
        exact ⟨reason, hreason, List.mem_cons_of_mem _ hmem⟩
      | .failure reason =>
        refine ⟨List.subset_cons_self _ _, ?_⟩
        intro e he
        cases he
        exact ⟨reason, rfl, List.mem_cons_self⟩

theorem exists_failure_of_fatal {r : Reader} {input : List Arrival} {signal : Signal}
    {e : TransportError} (hsignal : signal ∈ r.signals input) (he : signal.fatal? = some e) :
    ∃ reason, e = .io reason ∧ .failure reason ∈ input := by
  obtain ⟨hsub, hfatal⟩ := next_of_fatal r input
  by_cases hdone : (r.next input).signal = .done
  · rw [signals_of_done hdone] at hsignal
    cases hsignal
  · rw [signals_of_ne_done hdone] at hsignal
    rcases List.mem_cons.mp hsignal with rfl | hlater
    · exact hfatal e he
    · obtain ⟨reason, hreason, hmem⟩ := exists_failure_of_fatal hlater he
      exact ⟨reason, hreason, hsub hmem⟩
termination_by r.size input
decreasing_by exact size_next_lt hdone

theorem exists_failure_of_failure? {e : TransportError} (h : r.failure? input = some e) :
    ∃ reason, e = .io reason ∧ .failure reason ∈ input := by
  obtain ⟨signal, hsignal, he⟩ := List.exists_of_findSome?_eq_some h
  exact exists_failure_of_fatal hsignal he

end Reader

end LanguageServer
