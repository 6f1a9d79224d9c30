import Mathlib.Tactic.Common
import Saco.Arith.AlignUp

/-!
# Bit masks of powers of two

A machine word is aligned by adding `f - 1` and clearing the low bits, where `f` is a power of two.
`mask_alignUp` says what this computes on words of any width `w`: the exact rounding of
`Saco/Arith/AlignUp.lean`, reduced modulo `2 ^ w`. No side condition on overflow is needed, since the
alignment divides `2 ^ w`.

Powers of two are compared by divisibility (`dvd_of_le`); Lean's own `Nat.isPowerOfTwo` is used for
the predicate.
-/

namespace Arith

/-- Powers of two form a chain for divisibility. -/
lemma dvd_of_le {a b : ℕ} (ha : a.isPowerOfTwo) (hb : b.isPowerOfTwo) (h : a ≤ b) : a ∣ b := by
  obtain ⟨k, rfl⟩ := ha
  obtain ⟨l, rfl⟩ := hb
  exact Nat.pow_dvd_pow 2 ((Nat.pow_le_pow_iff_right one_lt_two).1 h)

/-- A power of two divides every larger one. -/
lemma dvd_two_pow {a w : ℕ} (ha : a.isPowerOfTwo) (h : a ≤ 2 ^ w) : a ∣ 2 ^ w :=
  dvd_of_le ha ⟨w, rfl⟩ h

variable {w : ℕ}

/-- A word that is not zero has a value that is not zero. -/
lemma toNat_ne_zero {x : BitVec w} (hx : x ≠ 0) : x.toNat ≠ 0 :=
  fun h => hx (BitVec.eq_of_toNat_eq (by simpa using h))

/-- A word that is not zero has a positive value. -/
lemma toNat_pos {x : BitVec w} (hx : x ≠ 0) : 0 < x.toNat :=
  Nat.pos_of_ne_zero (toNat_ne_zero hx)

/-- Subtracting one does not wrap on a positive value. -/
lemma toNat_pred {f : BitVec w} (hf : 0 < f.toNat) : (f - 1).toNat = f.toNat - 1 := by
  have hone : (1 : BitVec w).toNat = 1 := by
    rw [BitVec.ofNat_eq_ofNat, BitVec.toNat_ofNat]
    exact Nat.mod_eq_of_lt (Nat.lt_of_le_of_lt hf f.isLt)
  have hle : (1 : BitVec w) ≤ f := by
    rw [BitVec.le_def, hone]
    exact hf
  rw [BitVec.toNat_sub_of_le hle, hone]

/-- The mask below a power of two. -/
lemma getLsbD_pred {f : BitVec w} {k i : ℕ} (hf : f.toNat = 2 ^ k) :
    (f - 1).getLsbD i = decide (i < k) := by
  rw [BitVec.getLsbD, toNat_pred (hf ▸ Nat.two_pow_pos k), hf, Nat.testBit_two_pow_sub_one]

/-- Clearing the low bits with the complemented mask is a shift down and up again. -/
lemma and_not_pred {f : BitVec w} {k : ℕ} (hf : f.toNat = 2 ^ k) (x : BitVec w) :
    x &&& ~~~(f - 1) = x >>> k <<< k := by
  apply BitVec.eq_of_getLsbD_eq
  intro i hi
  rw [BitVec.getLsbD_and, BitVec.getLsbD_not, getLsbD_pred hf, BitVec.getLsbD_shiftLeft,
    BitVec.getLsbD_ushiftRight]
  by_cases hik : i < k
  · simp [hi, hik]
  · simp [hi, hik, Nat.add_sub_cancel' (Nat.not_lt.1 hik)]

/-- Shifting right and back rounds down. -/
lemma toNat_shift_shift (x : BitVec w) (k : ℕ) :
    (x >>> k <<< k).toNat = 2 ^ k * (x.toNat / 2 ^ k) := by
  rw [BitVec.toNat_shiftLeft, BitVec.toNat_ushiftRight, Nat.shiftLeft_eq,
    Nat.shiftRight_eq_div_pow, Nat.mul_comm]
  exact Nat.mod_eq_of_lt ((Nat.mul_div_le _ _).trans_lt x.isLt)

/-- Shifting right and back loses nothing on a multiple, and only there. -/
lemma shift_shift_eq_iff (x : BitVec w) (k : ℕ) : x >>> k <<< k = x ↔ 2 ^ k ∣ x.toNat := by
  rw [← BitVec.toNat_inj, toNat_shift_shift]
  exact ⟨fun h => ⟨_, h.symm⟩, Nat.mul_div_cancel'⟩

/-- Add-and-mask computes the exact rounding, reduced to the width of the word. -/
lemma mask_alignUp {f : BitVec w} (hf : f.toNat.isPowerOfTwo) (n : ℕ) :
    (BitVec.ofNat w n + (f - 1)) &&& ~~~(f - 1) = BitVec.ofNat w (alignUp f.toNat n) := by
  obtain ⟨k, hk⟩ := hf
  have hpos := Nat.two_pow_pos k
  have hdvd : 2 ^ k ∣ 2 ^ w := dvd_two_pow ⟨k, rfl⟩ (hk ▸ f.isLt.le)
  have hpred : BitVec.ofNat w n + (f - 1) = BitVec.ofNat w (n + (2 ^ k - 1)) := by
    apply BitVec.eq_of_toNat_eq
    rw [BitVec.toNat_add, toNat_pred (hk ▸ hpos), hk, BitVec.toNat_ofNat, BitVec.toNat_ofNat,
      Nat.mod_add_mod]
  rw [hpred, and_not_pred hk, hk]
  apply BitVec.eq_of_toNat_eq
  rw [toNat_shift_shift, BitVec.toNat_ofNat, BitVec.toNat_ofNat, alignUp_eq_div]
  -- dividing by `2 ^ k` commutes with reducing modulo `2 ^ w`
  obtain ⟨m, hm⟩ := hdvd
  rw [hm, Nat.mod_mul_right_div_self, Nat.mul_mod_mul_left]

/-- A word is the word of its value. -/
lemma eq_ofNat (x : BitVec w) : x = BitVec.ofNat w x.toNat := by
  rw [BitVec.ofNat_toNat, BitVec.setWidth_eq]

/-- A number that fits is kept. -/
lemma toNat_ofNat_of_lt {n : ℕ} (h : n < 2 ^ w) : (BitVec.ofNat w n).toNat = n := by
  rw [BitVec.toNat_ofNat, Nat.mod_eq_of_lt h]

/-- Words subtract like numbers as long as nothing goes below zero. -/
lemma ofNat_sub {x y : ℕ} (h : y ≤ x) :
    BitVec.ofNat w x - BitVec.ofNat w y = BitVec.ofNat w (x - y) := by
  conv_lhs => rw [← Nat.sub_add_cancel h]
  rw [BitVec.ofNat_add, BitVec.add_sub_cancel]

end Arith
