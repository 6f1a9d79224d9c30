import Mathlib.Order.GaloisConnection.Basic
import Saco.Arith.HighestBit

/-!
# Geometric size classes

Class sizes that grow like a floating point number with an `m`-bit mantissa: each octave from `2 ^ (m + e)`
on is divided into `2 ^ m` equal steps (`classSize`). `classIndex` computes the class of a size from its
leading bits. It is the lower adjoint of `classSize`, so it is monotone and selects the least class that is
large enough (`gc_classIndex`).
-/

namespace Arith

/-- The size of class `k`. -/
def classSize (m e k : ℕ) : ℕ := (2 ^ m + k % 2 ^ m) * 2 ^ (e + k / 2 ^ m)

/-- The last class that is not above `x`: the octave of `x`, and the `m` bits below its highest bit. -/
def classFloor (m e x : ℕ) : ℕ :=
  2 ^ m * (x.log2 - m - e) + x / 2 ^ (x.log2 - m) % 2 ^ m

/-- The first class that is not below `n`. -/
def classIndex (m e n : ℕ) : ℕ :=
  if n ≤ 2 ^ (m + e) then 0 else classFloor m e (n - 1) + 1

variable {m e k n x : ℕ}

/-- The first class. -/
lemma classSize_zero : classSize m e 0 = 2 ^ (m + e) := by
  rw [classSize, Nat.zero_mod, Nat.zero_div, Nat.add_zero, Nat.add_zero, Nat.pow_add]

/-- The classes of an octave. The last step leads to the first class of the next octave. -/
lemma classSize_mul_add {a b : ℕ} (hb : b ≤ 2 ^ m) :
    classSize m e (2 ^ m * a + b) = (2 ^ m + b) * 2 ^ (e + a) := by
  have hpos : 0 < 2 ^ m := Nat.two_pow_pos m
  cases Nat.lt_or_eq_of_le hb with
  | inl hlt =>
    rw [classSize, Nat.mul_add_mod, Nat.mod_eq_of_lt hlt, Nat.mul_add_div hpos, Nat.div_eq_of_lt hlt,
      Nat.add_zero]
  | inr heq =>
    rw [heq, ← Nat.mul_succ, classSize, Nat.mul_mod_right, Nat.mul_div_cancel_left _ hpos, Nat.add_zero,
      Nat.add_succ, Nat.pow_succ', ← Nat.two_mul, ← Nat.mul_assoc, Nat.mul_comm (2 ^ m) 2]

/-- The step to the next class is the same everywhere in an octave. -/
lemma classSize_succ (m e k : ℕ) :
    classSize m e (k + 1) = classSize m e k + 2 ^ (e + k / 2 ^ m) := by
  have hlt : k % 2 ^ m < 2 ^ m := Nat.mod_lt k (Nat.two_pow_pos m)
  calc
    classSize m e (k + 1) = classSize m e (2 ^ m * (k / 2 ^ m) + (k % 2 ^ m + 1)) := by
      rw [← Nat.add_assoc, Nat.div_add_mod]
    _ = (2 ^ m + (k % 2 ^ m + 1)) * 2 ^ (e + k / 2 ^ m) := classSize_mul_add hlt
    _ = classSize m e k + 2 ^ (e + k / 2 ^ m) := by rw [← Nat.add_assoc, Nat.succ_mul, classSize]

/-- The classes increase. -/
lemma classSize_strictMono : StrictMono (classSize m e) := by
  apply strictMono_nat_of_lt_succ
  intro k
  rw [classSize_succ]
  exact Nat.lt_add_of_pos_right (Nat.two_pow_pos _)

/-- A class exceeds the one before it by at most the fraction `2⁻ᵐ`. -/
lemma classSize_succ_le : 2 ^ m * classSize m e (k + 1) ≤ (2 ^ m + 1) * classSize m e k := by
  rw [classSize_succ, Nat.mul_add, Nat.succ_mul]
  apply Nat.add_le_add_left
  exact Nat.mul_le_mul_right _ (Nat.le_add_right _ _)

/-! ## The class of a size -/

/-- The leading `m + 1` bits of a number start with a one. -/
lemma leading_bits (hx : x ≠ 0) (hm : m ≤ x.log2) :
    2 ^ m + x / 2 ^ (x.log2 - m) % 2 ^ m = x / 2 ^ (x.log2 - m) := by
  have hsplit : 2 ^ m * 2 ^ (x.log2 - m) = 2 ^ x.log2 := by
    rw [← Nat.pow_add, Nat.add_sub_cancel' hm]
  have hlo : 2 ^ m ≤ x / 2 ^ (x.log2 - m) := by
    rw [Nat.le_div_iff_mul_le (Nat.two_pow_pos _), hsplit]
    exact Nat.log2_self_le hx
  have hhi : x / 2 ^ (x.log2 - m) < 2 ^ m + 2 ^ m := by
    rw [Nat.div_lt_iff_lt_mul (Nat.two_pow_pos _), ← Nat.two_mul, Nat.mul_assoc, hsplit, Nat.mul_comm,
      ← Nat.pow_succ]
    exact Nat.lt_log2_self
  rw [Nat.mod_eq_sub_mod hlo, Nat.mod_eq_of_lt (Nat.sub_lt_left_of_lt_add hlo hhi),
    Nat.add_sub_cancel' hlo]

/-- The exponent of a number that is not below the first class. -/
lemma le_log2_of_le (h : 2 ^ (m + e) ≤ x) : m + e ≤ x.log2 :=
  (Nat.le_log2 ((Nat.two_pow_pos _).trans_le h).ne').2 h

/-- The size of `classFloor m e x` is `x` with the bits below the leading ones cleared. -/
lemma classSize_classFloor_le (h : 2 ^ (m + e) ≤ x) : classSize m e (classFloor m e x) ≤ x := by
  have hlog := le_log2_of_le h
  have hx : x ≠ 0 := ((Nat.two_pow_pos _).trans_le h).ne'
  rw [classFloor, classSize_mul_add (Nat.mod_lt _ (Nat.two_pow_pos m)).le, leading_bits hx (by omega),
    Nat.add_sub_cancel' (by omega)]
  exact Nat.div_mul_le_self _ _

/-- The next class is above the number. -/
lemma lt_classSize_classFloor (h : 2 ^ (m + e) ≤ x) : x < classSize m e (classFloor m e x + 1) := by
  have hlog := le_log2_of_le h
  have hx : x ≠ 0 := ((Nat.two_pow_pos _).trans_le h).ne'
  rw [classFloor, Nat.add_assoc, classSize_mul_add (Nat.mod_lt _ (Nat.two_pow_pos m)), Nat.add_succ,
    leading_bits hx (by omega), Nat.add_sub_cancel' (by omega), Nat.succ_mul]
  exact Nat.lt_div_mul_add (Nat.two_pow_pos _)

/-- The class of `n` is at most `k` if and only if `n` fits class `k`. -/
theorem gc_classIndex (m e : ℕ) : GaloisConnection (classIndex m e) (classSize m e) := by
  intro n k
  rw [classIndex]
  split
  case isTrue h =>
    have hle : n ≤ classSize m e k := calc
      n ≤ classSize m e 0 := classSize_zero.symm ▸ h
      _ ≤ classSize m e k := classSize_strictMono.monotone (Nat.zero_le k)
    exact iff_of_true (Nat.zero_le k) hle
  case isFalse h =>
    have hn : 2 ^ (m + e) ≤ n - 1 := by omega
    have hlo := classSize_classFloor_le hn
    have hhi := lt_classSize_classFloor hn
    constructor
    · intro hk
      have hmono : classSize m e (classFloor m e (n - 1) + 1) ≤ classSize m e k :=
        classSize_strictMono.monotone hk
      omega
    · intro hk
      have hlt : n - 1 < n := Nat.sub_lt ((Nat.two_pow_pos _).trans (not_le.1 h)) one_pos
      exact classSize_strictMono.lt_iff_lt.1 (hlo.trans_lt (hlt.trans_le hk))

end Arith
