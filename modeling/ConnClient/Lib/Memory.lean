/-
  A block of memory, as the list of its bytes.

  Copying `n` bytes somewhere is reading them first and putting them there after that (`overwrite`);
  so it is `memcpy` and `memmove` alike, overlapping or not.  A copy that stays inside the block keeps
  its length (`length_overwrite`), and one that does not makes the block longer: that a program stays
  inside its block is that the length is kept.
-/
import Mathlib

namespace ConnClient.Lib

universe u

variable {α : Type u}

/-- The block with `xs` put at `pos`. -/
def overwrite (pos : Nat) (xs mem : List α) : List α :=
  mem.take pos ++ xs ++ mem.drop (pos + xs.length)

theorem length_overwrite {pos : Nat} {xs mem : List α} (h : pos + xs.length ≤ mem.length) :
    (overwrite pos xs mem).length = mem.length := by
  rw [overwrite, List.length_append, List.length_append, List.length_take, List.length_drop]
  omega

/-- What is there up to the end of what was put. -/
theorem take_overwrite {pos : Nat} {xs mem : List α} (h : pos ≤ mem.length) :
    (overwrite pos xs mem).take (pos + xs.length) = mem.take pos ++ xs := by
  have hlen : (mem.take pos ++ xs).length = pos + xs.length := by
    rw [List.length_append, List.length_take, Nat.min_eq_left h]
  rw [overwrite, ← hlen, List.take_left]

/-- The same at the front of the block. -/
theorem take_overwrite_zero (xs mem : List α) : (overwrite 0 xs mem).take xs.length = xs := by
  have h : (overwrite 0 xs mem).take (0 + xs.length) = mem.take 0 ++ xs :=
    take_overwrite (Nat.zero_le _)
  rwa [Nat.zero_add] at h

end ConnClient.Lib
