/-
  A ledger of resources.

  What was acquired so far is what is held and what was released, nothing lost and nothing released
  twice (`Balanced`).  Lists stand for multisets: where every acquisition is of something new, a
  balanced ledger says that what is outstanding is what is held (`Balanced.outstanding`).
-/
import Mathlib

namespace ConnClient.Lib

variable {α : Type*}

/-- All that was acquired is held or was released. -/
def Balanced (acquired held released : List α) : Prop := acquired.Perm (held ++ released)

variable {acquired held released : List α}

theorem balanced_nil : Balanced ([] : List α) [] [] := List.Perm.refl []

/-- What is acquired is held. -/
theorem Balanced.acquire (h : Balanced acquired held released) (a : α) :
    Balanced (a :: acquired) (a :: held) released := h.cons a

theorem Balanced.reorder {held' : List α} (h : Balanced acquired held released)
    (hp : held.Perm held') : Balanced acquired held' released :=
  h.trans (hp.append_right released)

/-- All that is held is released, in any order. -/
theorem Balanced.release {out : List α} (h : Balanced acquired held released)
    (hp : held.Perm out) : Balanced acquired [] (out ++ released) := h.reorder hp

/-- What is held is held once. -/
theorem Balanced.held_nodup (h : Balanced acquired held released) (hnew : acquired.Nodup) :
    held.Nodup :=
  (List.nodup_append.mp (h.nodup_iff.mp hnew)).1

/-- **Nothing leaks**: of what was acquired, what was not released is held. -/
theorem Balanced.outstanding (h : Balanced acquired held released) (hnew : acquired.Nodup) (a : α) :
    a ∈ acquired ∧ a ∉ released ↔ a ∈ held := by
  have hparts : (held ++ released).Nodup := h.nodup_iff.mp hnew
  have hapart := List.nodup_append.mp hparts
  rw [h.mem_iff, List.mem_append]
  constructor
  · rintro ⟨hin | hin, hout⟩
    · exact hin
    · exact absurd hin hout
  · intro hin
    exact ⟨Or.inl hin, fun hout => hapart.2.2 a hin a hout rfl⟩

/-- **Nothing is released twice.** -/
theorem Balanced.once (h : Balanced acquired held released) (hnew : acquired.Nodup) :
    released.Nodup :=
  (List.nodup_append.mp (h.nodup_iff.mp hnew)).2.1

end ConnClient.Lib
