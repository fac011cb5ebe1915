/-
  Serial numbers: a counter that only ever grows, seen through its low `w` bits.

  A protocol stamps its units with `0, 1, 2, …` but carries and stores only a `w`-bit residue.
  Two residues are compared by the sign of their wrapped difference.  The one fact that makes
  this sound is `sdiff_ofNat`: as long as the true numbers are less than half the modulus apart,
  the wrapped signed difference IS the true difference.  Everything else here is a reading of it.

  `near base r` goes the other way: the number nearest to `base` with residue `r`, which is how a
  full counter is recovered from a residue when the two are known to be close.  A residue itself is
  recovered from fewer of its bits in the same way: `eq_of_low_near`.
-/
import Mathlib

namespace ConnClient.Lib

variable {w : Nat}

/-- The wrapped signed difference of two residues. -/
def sdiff (later earlier : BitVec w) : Int := (later - earlier).toInt

/-- `Int.bmod` is the identity on the balanced range. -/
theorem bmod_eq_of_bounds {x : Int} {m : Nat} (h : -(m : Int) ≤ 2 * x) (h' : 2 * x < m) :
    Int.bmod x m = x :=
  Int.bmod_eq_of_le_mul_two (by omega) (by omega)

/-- **The serial-number law.**  Numbers less than half the modulus apart are told apart, and
    measured, by their residues. -/
theorem sdiff_ofNat {a b : Nat} (h : -(2 ^ w : Int) ≤ 2 * ((a : Int) - b))
    (h' : 2 * ((a : Int) - b) < 2 ^ w) :
    sdiff (BitVec.ofNat w a) (BitVec.ofNat w b) = (a : Int) - b := by
  have hc : ((2 ^ w : Nat) : Int) = 2 ^ w := by simp
  rw [sdiff, BitVec.toInt_sub, BitVec.toInt_ofNat', BitVec.toInt_ofNat', Int.sub_bmod_bmod,
    Int.bmod_sub_bmod]
  exact bmod_eq_of_bounds (by omega) (by omega)

/-- Residues agree only when the numbers do, inside half the modulus. -/
theorem ofNat_inj_of_near {a b : Nat} (h : -(2 ^ w : Int) ≤ 2 * ((a : Int) - b))
    (h' : 2 * ((a : Int) - b) < 2 ^ w) (heq : BitVec.ofNat w a = BitVec.ofNat w b) : a = b := by
  have hd := sdiff_ofNat h h'
  rw [heq, sdiff, BitVec.sub_self, BitVec.toInt_zero] at hd
  omega

/-- The number nearest to `base` whose residue is `r` (counting below zero if it must). -/
def near (base : Nat) (r : BitVec w) : Int := base + sdiff r (BitVec.ofNat w base)

/-- A number less than half the modulus from `base` is recovered from its residue. -/
theorem near_ofNat {base n : Nat} (h : -(2 ^ w : Int) ≤ 2 * ((n : Int) - base))
    (h' : 2 * ((n : Int) - base) < 2 ^ w) : near base (BitVec.ofNat w n) = n := by
  rw [near, sdiff_ofNat h h']
  omega

/-- The difference of two offsets from one base is the difference of the numbers, up to the modulus. -/
theorem sdiff_sub_sdiff_dvd (a b base : BitVec w) :
    ((2 ^ w : Nat) : Int) ∣ sdiff a base - sdiff b base - ((a.toNat : Int) - b.toNat) := by
  have hmod : ∀ x : BitVec w, ((2 ^ w : Nat) : Int) ∣ sdiff x base - ((x.toNat : Int) - base.toNat) := by
    intro x
    rw [sdiff, BitVec.toInt_sub, BitVec.toInt_eq_toNat_bmod, BitVec.toInt_eq_toNat_bmod,
      Int.sub_bmod_bmod, Int.bmod_sub_bmod]
    exact Int.dvd_bmod_sub_self
  have hsub := Int.dvd_sub (hmod a) (hmod b)
  have heq : sdiff a base - sdiff b base - ((a.toNat : Int) - b.toNat)
      = sdiff a base - ((a.toNat : Int) - base.toNat)
        - (sdiff b base - ((b.toNat : Int) - base.toNat)) := by omega
  rw [heq]
  exact hsub

/-- A residue is told by its low `k` bits among those that lie less than `2 ^ k` apart. -/
theorem eq_of_low_near {k : Nat} (hk : k ≤ w) {a b base : BitVec w}
    (hlow : a.setWidth k = b.setWidth k) (h : -(2 ^ k : Int) < sdiff a base - sdiff b base)
    (h' : sdiff a base - sdiff b base < 2 ^ k) : a = b := by
  have hpow : ((2 ^ k : Nat) : Int) ∣ ((2 ^ w : Nat) : Int) :=
    Int.natCast_dvd_natCast.2 (Nat.pow_dvd_pow 2 hk)
  -- equal low bits are a multiple of `2 ^ k` apart
  have hnat : ((2 ^ k : Nat) : Int) ∣ (a.toNat : Int) - b.toNat := by
    have hmod : b.toNat ≡ a.toNat [MOD 2 ^ k] := by
      have := congrArg BitVec.toNat hlow
      rw [BitVec.toNat_setWidth, BitVec.toNat_setWidth] at this
      exact this.symm
    exact (Nat.modEq_iff_dvd).1 hmod
  have hdvd := Int.dvd_add (Int.dvd_trans hpow (sdiff_sub_sdiff_dvd a b base)) hnat
  rw [Int.sub_add_cancel] at hdvd
  have hc : ((2 ^ k : Nat) : Int) = 2 ^ k := by simp
  have hzero : sdiff a base - sdiff b base = 0 := by
    refine Int.eq_zero_of_abs_lt_dvd hdvd ?_
    rw [hc, abs_lt]
    exact ⟨h, h'⟩
  have hoff : a - base = b - base := BitVec.eq_of_toInt_eq (Int.sub_eq_zero.1 hzero)
  exact sub_left_injective hoff

end ConnClient.Lib
