import LanguageServer.Proofs.Frame.Encode
import LanguageServer.Proofs.Frame.Noise
import LanguageServer.Proofs.Stream

namespace LanguageServer.Stream

open LanguageServer.Frame (AtName Noise NoneLater startsName)

variable {g w : Bytes} {ends : List Nat}

theorem bodies_append_of_error {error : FramingError}
    (h : verdict ends (g ++ w) = .error error) (hne : g ≠ []) (hg : NoneLater g) (hw : AtName w) :
    bodies ends (g ++ w) = bodies (shift g.length ends) w := by
  have hlen := List.length_pos_iff.mpr hne
  have hpos := Frame.resync_pos (ne_nil_of_verdict_error h)
  have hbefore : ∀ j < g.length - 1, startsName (((g ++ w).drop 1).drop j) = false := by
    intro j hj
    rw [List.drop_drop]
    exact hg.append hw (by omega) (by omega)
  rw [bodies_of_error_drop h hpos (Nat.le_refl 1), bodies_drop hbefore, shift_shift,
    List.drop_drop, Nat.add_sub_cancel' hlen, List.drop_left]

theorem bodies_noise_append (hg : Noise g) (hw : AtName w) :
    bodies ends (g ++ w) = bodies (shift g.length ends) w := by
  cases hname : startsName g with
  | true =>
    have hne := Frame.ne_nil_of_startsName hname
    obtain ⟨error, herror⟩ := hg.exists_split_append hname hw
    obtain ⟨error, hverdict⟩ := exists_verdict_of_split_error herror ends
    exact bodies_append_of_error hverdict hne hg.later hw
  | false =>
    have hbefore : ∀ j < g.length, startsName ((g ++ w).drop j) = false := by
      intro j hj
      rcases Nat.eq_zero_or_pos j with rfl | hpos
      · exact Frame.startsName_append_eq_false (List.length_pos_iff.mp hj) hname hw
      · exact hg.later.append hw hpos hj
    rw [bodies_drop hbefore, List.drop_left]

/-- A frame as it is written is read as its body, wherever the reads end. -/
theorem bodies_encode_append {body : Bytes} (h : body.length ≤ maxBodyLength) (more : Bytes) :
    bodies ends (Frame.encode body ++ more) =
      body :: bodies (shift (Frame.encode body).length ends) more := by
  have hd := Frame.declares_encode h more
  have hlen := Frame.length_encode body
  have hover : overruns ends (Frame.encode body ++ more) = false := by
    have hdigits := Header.length_toDigits_le h
    have hmax : maxHeaderLength = 8192 := rfl
    have hterm : Frame.terminator.length = 4 := rfl
    apply overruns_eq_false hd.find
    intro c _ hc
    rw [Header.length_ofLength]
    omega
  rw [bodies_of_declares hd hover, ← hlen, if_neg (by rw [List.length_append]; omega),
    List.drop_left]
  congr 1
  rw [Frame.encode_eq, List.append_assoc, List.drop_left' (by rw [List.length_append]),
    List.take_left]

end LanguageServer.Stream
