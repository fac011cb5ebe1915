/-
  Messages cut into fragments that count down.

  A message travels as a sequence of pieces, each marked with the number of pieces of the same
  message that still follow it; the mark `0` is the last one.  `Whole fs m` says that `fs` is all of
  the message `m`.  A receiver that holds a prefix of the fragments of a list of messages may hand
  out the next message as soon as it holds more pieces than the first mark announces: `next_message`
  is the fact behind that test.
-/
import Mathlib

namespace ConnClient.Lib

universe u

variable {α : Type u}

/-- `Whole fs m` — the fragments `fs`, in order, are exactly the message `m`. -/
inductive Whole : List (Nat × List α) → List α → Prop where
  | last (d : List α) : Whole [(0, d)] d
  | more {fs : List (Nat × List α)} {m : List α} (d : List α) (h : Whole fs m) :
      Whole ((fs.length, d) :: fs) (d ++ m)

/-- A whole message starts with the mark that announces the rest of it. -/
theorem Whole.head {fs : List (Nat × List α)} {m : List α} (h : Whole fs m) :
    ∃ d rest, fs = (rest.length, d) :: rest := by
  cases h with
  | last => exact ⟨m, [], rfl⟩
  | more d h => exact ⟨d, _, rfl⟩

/-- **The next message is complete.**  `q` is the front of the fragments of the messages `ms`; if it
    is longer than its first mark says, its first fragments are the whole first message. -/
theorem next_message {cut : List α → List (Nat × List α)} {ms : List (List α)}
    {q : List (Nat × List α)} (hcut : ∀ m ∈ ms, Whole (cut m) m) (hq : q <+: ms.flatMap cut)
    {f : Nat × List α} (hf : q.head? = some f) (hlen : f.1 < q.length) :
    ∃ m ms' rest, ms = m :: ms' ∧ q = cut m ++ rest ∧ rest <+: ms'.flatMap cut := by
  obtain ⟨tail, ht⟩ := hq
  cases ms with
  | nil =>
    rw [List.flatMap_nil, List.append_eq_nil_iff] at ht
    rw [ht.1] at hf
    nomatch hf
  | cons m ms' =>
    obtain ⟨d, rest, hw⟩ := (hcut m (List.mem_cons_self ..)).head
    rw [List.flatMap_cons] at ht
    have hfd : f = (rest.length, d) := by
      have h1 : (q ++ tail).head? = some f := by
        rw [List.head?_append, hf]; rfl
      rw [ht, hw] at h1
      exact (Option.some.inj h1).symm
    have hle : (cut m).length ≤ q.length := by
      rw [hw, List.length_cons]
      rw [hfd] at hlen
      exact hlen
    obtain ⟨rest', hr⟩ : cut m <+: q :=
      List.prefix_of_prefix_length_le (ht ▸ List.prefix_append _ _) (List.prefix_append q tail) hle
    refine ⟨m, ms', rest', rfl, hr.symm, tail, ?_⟩
    rw [← hr, List.append_assoc] at ht
    exact List.append_cancel_left ht

end ConnClient.Lib
