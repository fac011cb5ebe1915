/-
  Windows of serial numbers.

  A window is the residues from `lo` up to `hi`, counted upwards and around the modulus; a residue's
  place in it is its offset `off lo r`, a plain natural number.  A protocol that compares residues by
  their wrapped difference compares offsets, as long as the window is at most half the modulus
  (`sdiff_off`), and a window may be moved up as long as nothing in it falls out (`off_rebase`).

  `Ascending lo hi ns`: the numbers `ns` that a party keeps stand in the window in order.  A buffer of
  sent or of received units is such a list; it loses units anywhere (`sublist`), gains one at its end
  (`snoc`) or in its midst (`insert`), and its window is moved up to its first unit (`rebase`).
-/
import Mathlib
import ConnClient.Lib.Serial

namespace ConnClient.Lib

variable {w : Nat}

/-! ## Offsets -/

/-- How many steps up from `base` the residue `r` is. -/
def off (base r : BitVec w) : Nat := (r - base).toNat

@[simp] theorem off_self (base : BitVec w) : off base base = 0 := by
  simp [off]

theorem off_lt (base r : BitVec w) : off base r < 2 ^ w := (r - base).isLt

@[simp] theorem off_add (base n : BitVec w) : off base (base + n) = n.toNat := by
  rw [off, add_sub_cancel_left]

/-- The offset tells which residue it is. -/
theorem eq_of_off {base a b : BitVec w} (h : off base a = off base b) : a = b := by
  have hsub : a - base = b - base := BitVec.eq_of_toNat_eq h
  have ha : a - base + base = a := BitVec.sub_add_cancel a base
  rw [hsub, BitVec.sub_add_cancel] at ha
  exact ha.symm

/-- One step up, short of the whole way around. -/
theorem off_succ {base r : BitVec w} (h : off base r + 1 < 2 ^ w) :
    off base (r + 1) = off base r + 1 := by
  have hsub : r + 1 - base = (r - base) + 1 := by ring
  have hone : (1 : BitVec w).toNat = 1 := by
    rcases Nat.eq_zero_or_pos w with rfl | hw
    · simp at h
    · exact BitVec.toNat_one hw
  unfold off at h ⊢
  rw [hsub, BitVec.toNat_add, hone, Nat.mod_eq_of_lt h]

/-- The base is moved up to `mid`: what stands behind `mid` comes closer. -/
theorem off_rebase {base mid r : BitVec w} (h : off base mid ≤ off base r) :
    off mid r = off base r - off base mid := by
  have hsub : r - mid = (r - base) - (mid - base) := by ring
  unfold off at h ⊢
  rw [hsub, BitVec.toNat_sub_of_le h]

/-- Steps up add, short of the whole way around. -/
theorem off_trans {a b c : BitVec w} (h : off a b + off b c < 2 ^ w) :
    off a c = off a b + off b c := by
  have hsub : c - a = (b - a) + (c - b) := by ring
  unfold off at h ⊢
  rw [hsub, BitVec.toNat_add, Nat.mod_eq_of_lt h]

/-- Between residues of numbers the steps are those between the numbers, short of the whole way around. -/
theorem off_ofNat {m n : Nat} (h : m ≤ n) (h' : n < m + 2 ^ w) :
    off (BitVec.ofNat w m) (BitVec.ofNat w n) = n - m := by
  obtain ⟨d, rfl⟩ := Nat.exists_eq_add_of_le h
  rw [BitVec.ofNat_add, off_add, BitVec.toNat_ofNat, Nat.mod_eq_of_lt (by omega)]
  omega

/-- A residue is not behind another one when it is less than half the modulus ahead of it. -/
theorem sdiff_nonneg_iff {base r : BitVec w} : sdiff r base ≥ 0 ↔ 2 * off base r < 2 ^ w := by
  have hlt := off_lt base r
  unfold sdiff off at *
  rw [BitVec.toInt_eq_toNat_cond]
  split <;> omega

/-- **Within half the modulus residues compare as their offsets do.** -/
theorem sdiff_off (base : BitVec w) {a b : BitVec w} (ha : 2 * off base a < 2 ^ w)
    (hb : 2 * off base b < 2 ^ w) : sdiff a b = (off base a : Int) - off base b := by
  have hsub : a - b = (a - base) - (b - base) := by ring
  have hc : ((2 ^ w : Nat) : Int) = 2 ^ w := by simp
  have hd := sdiff_ofNat (w := w) (a := off base a) (b := off base b) (by omega) (by omega)
  rw [sdiff, hsub]
  rw [sdiff, off, off, BitVec.ofNat_toNat, BitVec.ofNat_toNat, BitVec.setWidth_eq,
    BitVec.setWidth_eq] at hd
  exact hd

/-! ## Numbers in a window -/

/-- The numbers `ns` stand in the window from `lo` up to `hi`, each behind the one before it. -/
structure Ascending (lo hi : BitVec w) (ns : List (BitVec w)) : Prop where
  sorted : ns.Pairwise fun a b => off lo a < off lo b
  below : ∀ n ∈ ns, off lo n < off lo hi

namespace Ascending

variable {lo hi : BitVec w} {ns : List (BitVec w)}

theorem nil : Ascending lo hi [] :=
  ⟨List.Pairwise.nil, fun _ h => absurd h List.not_mem_nil⟩

/-- Numbers may be let go anywhere. -/
theorem sublist (h : Ascending lo hi ns) {ns' : List (BitVec w)} (hs : ns'.Sublist ns) :
    Ascending lo hi ns' :=
  ⟨h.sorted.sublist hs, fun n hn => h.below n (hs.subset hn)⟩

/-- The window reaches further up. -/
theorem widen (h : Ascending lo hi ns) {hi' : BitVec w} (hle : off lo hi ≤ off lo hi') :
    Ascending lo hi' ns :=
  ⟨h.sorted, fun n hn => Nat.lt_of_lt_of_le (h.below n hn) hle⟩

/-- The window takes its upper end in. -/
theorem snoc (h : Ascending lo hi ns) (hlt : off lo hi + 1 < 2 ^ w) :
    Ascending lo (hi + 1) (ns ++ [hi]) := by
  have hsucc := off_succ hlt
  constructor
  · refine List.pairwise_append.mpr ⟨h.sorted, List.pairwise_singleton _ _, ?_⟩
    intro a ha b hb
    rw [List.mem_singleton.mp hb]
    exact h.below a ha
  · intro n hn
    rcases List.mem_append.mp hn with hn | hn
    · have := h.below n hn
      omega
    · rw [List.mem_singleton.mp hn]
      omega

/-- The window is moved up below its numbers. -/
theorem rebase (h : Ascending lo hi ns) {lo' : BitVec w} (hhi : off lo lo' ≤ off lo hi)
    (hns : ∀ n ∈ ns, off lo lo' ≤ off lo n) : Ascending lo' hi ns := by
  constructor
  · refine h.sorted.imp_of_mem ?_
    intro a b ha hb hab
    have hle := hns a ha
    rw [off_rebase hle, off_rebase (hns b hb)]
    omega
  · intro n hn
    have hle := hns n hn
    have hlt := h.below n hn
    rw [off_rebase hle, off_rebase hhi]
    omega

/-- Numbers are let go, and the window is moved up to the first one left, or closed. -/
theorem settle (h : Ascending lo hi ns) {ns' : List (BitVec w)} (hs : ns'.Sublist ns) :
    Ascending (ns'.head?.getD hi) hi ns' ∧ off (ns'.head?.getD hi) hi ≤ off lo hi := by
  have h' := h.sublist hs
  cases ns' with
  | nil => exact ⟨nil, by simp⟩
  | cons n rest =>
    have hn := h'.below n (List.mem_cons_self ..)
    refine ⟨h'.rebase (Nat.le_of_lt hn) ?_, ?_⟩
    · intro m hm
      rcases List.mem_cons.mp hm with rfl | hm
      · exact Nat.le_refl _
      · exact Nat.le_of_lt ((List.pairwise_cons.mp h'.sorted).1 m hm)
    · show off n hi ≤ off lo hi
      rw [off_rebase (Nat.le_of_lt hn)]
      omega

/-- In a window of at most half the modulus the numbers ascend as they are compared. -/
theorem sdiff_pos (h : Ascending lo hi ns) (hhalf : 2 * off lo hi ≤ 2 ^ w) :
    ns.Pairwise fun a b => sdiff b a > 0 := by
  refine h.sorted.imp_of_mem ?_
  intro a b ha hb hab
  have hla := h.below a ha
  have hlb := h.below b hb
  rw [sdiff_off lo (by omega) (by omega)]
  omega

end Ascending

end ConnClient.Lib
