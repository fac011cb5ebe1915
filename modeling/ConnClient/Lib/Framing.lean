/-
  Frames in a stream of bytes that arrives in pieces.

  A stream is the concatenation of frames.  A reader holds `buf`, what has arrived and was not used,
  and `more` is still to come: `buf ++ more` is what is left of the stream.  A frame announces its
  length in its front, which is read by `declared`; bytes behind the front do not change it
  (`Stable`).

  Two things are all a reader needs.  If the next frame is complete, it stands at the front of `buf`,
  is announced there, and what is behind it belongs to the later frames (`front_of_le`).  If it is
  not, `buf` is the beginning of it, and announces its length if it announces anything
  (`unfinished_of_lt`).  Where the pieces were cut does not enter.
-/
import Mathlib

namespace ConnClient.Lib

section Framing

variable {α : Type} {declared : List α → Option Int}

/-- What is announced does not depend on what comes behind. -/
def Stable (declared : List α → Option Int) : Prop :=
  ∀ buf more n, declared buf = some n → declared (buf ++ more) = some n

/-- **The next frame is complete.** -/
theorem front_of_le (hd : Stable declared) {f buf more later : List α}
    (hf : declared f = some f.length) (h : buf ++ more = f ++ later) (hle : f.length ≤ buf.length) :
    ∃ rest, buf = f ++ rest ∧ rest ++ more = later ∧ declared buf = some f.length := by
  rcases List.append_eq_append_iff.mp h with ⟨tail, hftail, hmore⟩ | ⟨rest, hbuf, hlater⟩
  · -- the frame is no longer than the buffer, so it ends with it
    have hlen := congrArg List.length hftail
    rw [List.length_append] at hlen
    have htail : tail = [] := List.length_eq_zero_iff.mp (by omega)
    subst htail
    rw [List.append_nil] at hftail
    subst hftail
    exact ⟨[], (List.append_nil _).symm, hmore, hf⟩
  · subst hbuf
    exact ⟨rest, rfl, hlater.symm, hd f rest _ hf⟩

/-- **The next frame is not complete.** -/
theorem unfinished_of_lt (hd : Stable declared) {f buf more later : List α}
    (hf : declared f = some f.length) (h : buf ++ more = f ++ later) (hlt : buf.length < f.length) :
    declared buf = none ∨ declared buf = some f.length := by
  rcases List.append_eq_append_iff.mp h with ⟨tail, hftail, -⟩ | ⟨rest, hbuf, -⟩
  · cases hb : declared buf with
    | none => exact Or.inl rfl
    | some n =>
      have hn := hd buf tail n hb
      rw [← hftail, hf] at hn
      exact Or.inr hn.symm
  · have hlen := congrArg List.length hbuf
    rw [List.length_append] at hlen
    omega

end Framing

end ConnClient.Lib
