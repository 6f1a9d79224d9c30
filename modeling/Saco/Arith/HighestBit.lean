import Saco.Arith.Mask

/-!
# The highest bit of a word

`Nat.log2` is the index of the highest bit of a number that is not zero. Two machine computations of it are
treated here for words of any width `w`: counting the leading zeros (`toNat_clz`), and copying the highest
bit into all lower ones by `x ||| x >>> e` with growing shift distances (`Smears`).
-/

namespace Arith

variable {w : ℕ} {x y : BitVec w} {d e i : ℕ}

/-- The highest bit is one of the bits of the word. -/
lemma log2_lt_width (hx : x ≠ 0) : x.toNat.log2 < w :=
  (Nat.log2_lt (toNat_ne_zero hx)).2 x.isLt

/-- The bit at the logarithm is set. -/
lemma getLsbD_log2 (hx : x ≠ 0) : x.getLsbD x.toNat.log2 = true :=
  Nat.testBit_log2 (toNat_ne_zero hx)

/-- No bit above the logarithm is set. -/
lemma le_log2_of_getLsbD (h : x.getLsbD i = true) : i ≤ x.toNat.log2 := by
  have hle : 2 ^ i ≤ x.toNat := Nat.ge_two_pow_of_testBit h
  have hne : x.toNat ≠ 0 := (Nat.two_pow_pos i).trans_le hle |>.ne'
  exact (Nat.le_log2 hne).2 hle

/-- The leading zeros and the index of the highest bit add up to `w - 1`. -/
lemma toNat_clz (hx : x ≠ 0) : x.clz.toNat = w - 1 - x.toNat.log2 := by
  have hw : 0 < w := (Nat.zero_le _).trans_lt (log2_lt_width hx)
  have hlog : x.toNat.log2 = w - 1 - x.clz.toNat := by
    rw [Nat.log2_eq_iff (toNat_ne_zero hx)]
    constructor
    · exact BitVec.two_pow_sub_clz_le_toNat_of_ne_zero hw hx
    · refine BitVec.toNat_lt_two_pow_sub_clz.trans_le (Nat.pow_le_pow_right two_pos ?_)
      omega
  have hlt : x.clz.toNat < w := by
    have h := BitVec.lt_def.1 (BitVec.clz_lt_iff_ne_zero.2 hx)
    rwa [BitVec.natCast_eq_ofNat, BitVec.toNat_ofNat, Nat.mod_eq_of_lt Nat.lt_two_pow_self] at h
  omega

/-! ## Smearing -/

/-- A bit of `y` is set if `x` has a bit at its place or less than `d` places higher. -/
def Smears (x y : BitVec w) (d : ℕ) : Prop :=
  ∀ i, y.getLsbD i = true ↔ ∃ j < d, x.getLsbD (i + j) = true

/-- A word is smeared over a window of one bit. -/
lemma smears_self : Smears x x 1 := by
  intro i
  constructor
  · intro h
    exact ⟨0, one_pos, h⟩
  · intro ⟨j, hj, h⟩
    cases Nat.lt_one_iff.1 hj
    exact h

/-- A step may reach as far as the bits that are covered already. -/
lemma Smears.step (sm : Smears x y d) (he : e ≤ d) : Smears x (y ||| y >>> e) (d + e) := by
  intro i
  rw [BitVec.getLsbD_or, BitVec.getLsbD_ushiftRight, Bool.or_eq_true, sm, sm]
  constructor
  · intro h
    cases h with
    | inl h =>
      obtain ⟨j, hj, hx⟩ := h
      exact ⟨j, Nat.lt_add_right e hj, hx⟩
    | inr h =>
      obtain ⟨j, hj, hx⟩ := h
      refine ⟨e + j, Nat.add_comm d e ▸ Nat.add_lt_add_left hj e, ?_⟩
      rwa [← Nat.add_assoc, Nat.add_comm i e]
  · intro ⟨j, hj, hx⟩
    cases Nat.lt_or_ge j d with
    | inl hlt => exact .inl ⟨j, hlt, hx⟩
    | inr hge =>
      refine .inr ⟨j - e, by omega, ?_⟩
      rwa [show e + i + (j - e) = i + j by omega]

/-- When every place is covered, all bits up to the highest one are set. -/
lemma Smears.toNat_eq (sm : Smears x y w) (hx : x ≠ 0) :
    y.toNat = 2 ^ (x.toNat.log2 + 1) - 1 := by
  apply Nat.eq_of_testBit_eq
  intro i
  rw [Nat.testBit_two_pow_sub_one, Bool.eq_iff_iff, decide_eq_true_iff, Nat.lt_succ_iff]
  constructor
  · intro h
    obtain ⟨j, -, hj⟩ := (sm i).1 h
    exact (Nat.le_add_right i j).trans (le_log2_of_getLsbD hj)
  · intro h
    have hlt := log2_lt_width hx
    refine (sm i).2 ⟨x.toNat.log2 - i, by omega, ?_⟩
    rw [Nat.add_sub_cancel' h]
    exact getLsbD_log2 hx

end Arith
