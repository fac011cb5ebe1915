/-
  Fixed-width integers as byte strings.

  `toLE k n` writes the low `k` bytes of `n`, least significant first; `ofLE` reads a byte string
  back.  The two are inverse up to truncation (`ofLE_toLE`), which is all that the fixed-layout
  headers of a wire format need: a field of `k` bytes comes back as the value modulo `256 ^ k`.
  Network order is the reversed string (`toBE`/`ofBE`).
-/
import Mathlib

namespace ConnClient.Lib

/-- One octet. -/
abbrev Byte := BitVec 8

/-- The low `k` bytes of `n`, least significant first. -/
def toLE : Nat → Nat → List Byte
  | 0, _ => []
  | k + 1, n => BitVec.ofNat 8 n :: toLE k (n / 256)

/-- The number a little-endian byte string denotes. -/
def ofLE : List Byte → Nat
  | [] => 0
  | b :: bs => b.toNat + 256 * ofLE bs

/-- The low `k` bytes of `n`, most significant first. -/
def toBE (k n : Nat) : List Byte := (toLE k n).reverse

/-- The number a big-endian byte string denotes. -/
def ofBE (bs : List Byte) : Nat := ofLE bs.reverse

@[simp] theorem length_toLE : ∀ k n : Nat, (toLE k n).length = k
  | 0, _ => rfl
  | k + 1, n => congrArg (· + 1) (length_toLE k (n / 256))

@[simp] theorem length_toBE (k n : Nat) : (toBE k n).length = k := by
  rw [toBE, List.length_reverse, length_toLE]

/-- **Reading back what was written truncates to the width.**  One byte is split off the value on
    both sides; `Nat.mod_mul` is the arithmetic of that split. -/
theorem ofLE_toLE : ∀ k n : Nat, ofLE (toLE k n) = n % 256 ^ k
  | 0, n => by rw [Nat.pow_zero, Nat.mod_one]; rfl
  | k + 1, n => by
    have hb : (BitVec.ofNat 8 n).toNat = n % 256 := BitVec.toNat_ofNat n 8
    show (BitVec.ofNat 8 n).toNat + 256 * ofLE (toLE k (n / 256)) = n % 256 ^ (k + 1)
    rw [ofLE_toLE k, hb, Nat.pow_add_one' , Nat.mod_mul]

theorem ofBE_toBE (k n : Nat) : ofBE (toBE k n) = n % 256 ^ k := by
  rw [ofBE, toBE, List.reverse_reverse, ofLE_toLE]

/-- A number that fits its field survives the round trip. -/
theorem ofLE_toLE_of_lt {k n : Nat} (h : n < 256 ^ k) : ofLE (toLE k n) = n := by
  rw [ofLE_toLE, Nat.mod_eq_of_lt h]

/-- The field at the front of a longer string, and what follows it. -/
theorem take_toLE_append (k n : Nat) (rest : List Byte) :
    (toLE k n ++ rest).take k = toLE k n :=
  List.take_left' (length_toLE k n)

theorem drop_toLE_append (k n : Nat) (rest : List Byte) :
    (toLE k n ++ rest).drop k = rest :=
  List.drop_left' (length_toLE k n)

end ConnClient.Lib
