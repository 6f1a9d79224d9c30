import Mathlib.Algebra.Order.Group.Nat
import Mathlib.Algebra.Ring.Int.Defs
import Mathlib.Tactic.Common

/-!
# Signed values in fewer bits

A word that is read as a signed number can be stored in fewer bits exactly if its value is one of a
signed type of that width: cutting it off and extending its sign gives it back.
-/

namespace Arith

variable {v w : ℕ}

/-- The values of a signed type with `w` bits. -/
def Signed (w : ℕ) (d : ℤ) : Prop := -2 ^ (w - 1) ≤ d ∧ d < 2 ^ (w - 1)

instance (w : ℕ) (d : ℤ) : Decidable (Signed w d) := inferInstanceAs (Decidable (_ ∧ _))

/-- The value of a word is in the range. -/
lemma signed_toInt (x : BitVec w) : Signed w x.toInt := ⟨x.le_toInt, x.toInt_lt⟩

/-- The balanced remainder of a value in the range is the value. -/
lemma bmod_of_signed {d : ℤ} (hpos : 0 < w) (h : Signed w d) : d.bmod (2 ^ w) = d := by
  obtain ⟨hlo, hhi⟩ := h
  have hpow : ((2 ^ w : ℕ) : ℤ) = 2 ^ (w - 1) * 2 := by
    rw [← pow_succ, Nat.sub_add_cancel hpos]
    exact Int.natCast_pow 2 w
  apply Int.bmod_eq_of_le_mul_two
  · omega
  · omega

/-- Narrowing keeps a value that is in the range of the narrow type. -/
lemma toInt_setWidth_of_signed {x : BitVec v} (hpos : 0 < w) (hle : w ≤ v) (h : Signed w x.toInt) :
    (x.setWidth w).toInt = x.toInt := by
  have hcut : (x.setWidth w).toInt = x.toInt.bmod (2 ^ w) := by
    rw [BitVec.toInt_setWidth, BitVec.toInt_eq_toNat_bmod]
    exact (Int.bmod_bmod_of_dvd (Nat.pow_dvd_pow 2 hle)).symm
  rw [hcut]
  exact bmod_of_signed hpos h

/-- The distance of two words, as a signed number. -/
lemma toInt_sub_of_signed {a b : BitVec v} (hpos : 0 < v) (h : Signed v ((b.toNat : ℤ) - a.toNat)) :
    (b - a).toInt = (b.toNat : ℤ) - a.toNat := by
  rw [BitVec.toInt_sub, BitVec.toInt_eq_toNat_bmod, BitVec.toInt_eq_toNat_bmod, Int.bmod_sub_bmod,
    Int.sub_bmod_bmod]
  exact bmod_of_signed hpos h

/-- Two words of a window that is not longer than the reach of the type. -/
lemma signed_of_window {a b : BitVec v} {lo n : ℕ} (hpos : 0 < w) (hle : w ≤ v)
    (ha : lo ≤ a.toNat ∧ a.toNat ≤ lo + n) (hb : lo ≤ b.toNat ∧ b.toNat < lo + n)
    (hn : n ≤ 2 ^ (w - 1)) : Signed w (b - a).toInt := by
  have hn' : (n : ℤ) ≤ 2 ^ (w - 1) := by exact_mod_cast hn
  have hv : (2 : ℤ) ^ (w - 1) ≤ 2 ^ (v - 1) := by
    exact_mod_cast Nat.pow_le_pow_right Nat.two_pos (Nat.sub_le_sub_right hle 1)
  have hdistance : -2 ^ (w - 1) ≤ (b.toNat : ℤ) - a.toNat ∧ (b.toNat : ℤ) - a.toNat < 2 ^ (w - 1) := by
    constructor
    · omega
    · omega
  rw [toInt_sub_of_signed (Nat.lt_of_lt_of_le hpos hle)]
  · exact hdistance
  · exact ⟨by omega, by omega⟩

/-- Widening gives back what narrowing kept. -/
lemma signExtend_setWidth {x : BitVec v} (hpos : 0 < w) (hle : w ≤ v) (h : Signed w x.toInt) :
    (x.setWidth w).signExtend v = x := by
  apply BitVec.eq_of_toInt_eq
  rw [BitVec.toInt_signExtend_of_le hle]
  exact toInt_setWidth_of_signed hpos hle h

/-- Narrowing undoes widening. -/
lemma setWidth_signExtend (x : BitVec w) (hpos : 0 < w) (hle : w ≤ v) :
    (x.signExtend v).setWidth w = x := by
  apply BitVec.eq_of_toInt_eq
  have htoInt : (x.signExtend v).toInt = x.toInt := BitVec.toInt_signExtend_of_le hle
  rw [toInt_setWidth_of_signed hpos hle (htoInt ▸ signed_toInt x)]
  exact htoInt

/-- The sign bit decides what is read back. -/
lemma signExtend_eq_zero_iff {x : BitVec w} (hle : w ≤ v) : x.signExtend v = 0 ↔ x = 0 := by
  constructor
  · intro h
    apply BitVec.eq_of_toInt_eq
    rw [← BitVec.toInt_signExtend_of_le hle, h]
    simp
  · intro h
    rw [h]
    apply BitVec.eq_of_toInt_eq
    rw [BitVec.toInt_signExtend_of_le hle]
    simp

end Arith
