import Saco.Layout.Simulation

/-!
# `align` on all words

`align` of `include/saco/saco.h` against the division-based reference of `test/test_mctx.cpp`, on the whole
range of 64-bit words. At its top, where the next multiple is `2 ^ 64`, both wrap around to zero.
-/

namespace Saco.Layout
open Arith Bump

/-- `reference_align` of the tests. -/
def referenceAlign (ALIGN refOffset : SizeT) : SizeT :=
  let o := refOffset / ALIGN
  let o := o * ALIGN
  if o < refOffset then o + ALIGN else o

/-- `is_power_of_two` accepts the words with exactly one bit. -/
lemma isPowerOfTwo_iff_exists {value : SizeT} :
    isPowerOfTwo value = true ↔ ∃ k < 64, value.toNat = 2 ^ k := by
  rw [isPowerOfTwo_iff]
  constructor
  · intro ⟨k, hk⟩
    refine ⟨k, ?_, hk⟩
    exact (Nat.pow_lt_pow_iff_right one_lt_two).1 (hk ▸ value.isLt)
  · intro ⟨k, _, hk⟩
    exact ⟨k, hk⟩

variable {ALIGN F : Alignment} {x : SizeT}

/-- Alignments are positive. -/
lemma Alignment.toNat_pos (ALIGN : Alignment) : 0 < ALIGN.value.toNat :=
  powersOfTwo.coe_pos ALIGN.nat

/-- The mask rounds up, and wraps like the sum does. -/
lemma align_eq_ofNat (ALIGN : Alignment) (x : SizeT) :
    align ALIGN x = BitVec.ofNat 64 (alignUp ALIGN.value.toNat x.toNat) := by
  conv_lhs => rw [eq_ofNat x]
  exact align_ofNat

/-- A multiple is aligned already. -/
lemma align_of_dvd (h : ALIGN.value.toNat ∣ x.toNat) : align ALIGN x = x := by
  rw [align_eq_ofNat, alignUp_of_dvd ALIGN.toNat_pos h]
  exact (eq_ofNat x).symm

/-- The division of the reference rounds up, and wraps in the same way. -/
lemma referenceAlign_eq_ofNat (ALIGN : Alignment) (x : SizeT) :
    referenceAlign ALIGN.value x = BitVec.ofNat 64 (alignUp ALIGN.value.toNat x.toNat) := by
  have hdown : x / ALIGN.value * ALIGN.value =
      BitVec.ofNat 64 (x.toNat / ALIGN.value.toNat * ALIGN.value.toNat) := by
    rw [eq_ofNat (x / ALIGN.value), BitVec.toNat_udiv, BitVec.ofNat_mul, ← eq_ofNat]
  have hlt : x / ALIGN.value * ALIGN.value < x ↔
      x.toNat / ALIGN.value.toNat * ALIGN.value.toNat < x.toNat := by
    have hfit := (Nat.div_mul_le_self x.toNat ALIGN.value.toNat).trans_lt x.isLt
    rw [hdown, BitVec.lt_def, toNat_ofNat_of_lt hfit]
  rw [referenceAlign, alignUp_eq_ite ALIGN.toNat_pos]
  by_cases h : x.toNat / ALIGN.value.toNat * ALIGN.value.toNat < x.toNat
  · rw [if_pos (hlt.2 h), if_pos h, hdown, BitVec.ofNat_add, ← eq_ofNat]
  · rw [if_neg (h ∘ hlt.1), if_neg h, hdown]

/-- `2 ^ 64` is a multiple of every alignment, so the rounding does not step over it. -/
lemma alignUp_le_two_pow (ALIGN : Alignment) (x : SizeT) :
    alignUp ALIGN.value.toNat x.toNat ≤ 2 ^ 64 :=
  (alignUp_le_iff ALIGN.toNat_pos ALIGN.dvd_two_pow).2 x.isLt.le

/-- Without a wrap the value is rounded up. -/
lemma toNat_align (h : alignUp ALIGN.value.toNat x.toNat < 2 ^ 64) :
    (align ALIGN x).toNat = alignUp ALIGN.value.toNat x.toNat := by
  rw [align_eq_ofNat, toNat_ofNat_of_lt h]

/-- If the multiple fits, then so does the sum from which `align` computes it. -/
lemma add_mask_lt (h : alignUp ALIGN.value.toNat x.toNat < 2 ^ 64) :
    x.toNat + (ALIGN.value - 1).toNat < 2 ^ 64 := by
  have hpos := ALIGN.toNat_pos
  have hle : x.toNat ≤ alignUp ALIGN.value.toNat x.toNat := le_alignUp hpos
  have hnext : alignUp ALIGN.value.toNat x.toNat + ALIGN.value.toNat ≤ 2 ^ 64 :=
    add_le_of_lt_of_dvd dvd_alignUp ALIGN.dvd_two_pow h
  rw [toNat_pred hpos]
  omega

/-- What rounds up past the last address wraps to zero. -/
lemma align_eq_zero (h : 2 ^ 64 ≤ alignUp ALIGN.value.toNat x.toNat) : align ALIGN x = 0 := by
  rw [align_eq_ofNat, le_antisymm (alignUp_le_two_pow ALIGN x) h]
  rfl

/-- Rounding to a smaller alignment first makes no difference. -/
lemma align_align (h : F.value ≤ ALIGN.value) : align ALIGN (align F x) = align ALIGN x := by
  have hdvd : F.value.toNat ∣ ALIGN.value.toNat := powersOfTwo.dvd (Alignment.le_iff.1 h)
  rw [align_eq_ofNat F, align_ofNat, align_eq_ofNat ALIGN, Alignment.coe_nat,
    alignUp_alignUp F.toNat_pos ALIGN.toNat_pos hdvd]

/-- `align` is the division-based rounding, for every alignment and every offset. -/
theorem align_eq_referenceAlign (ALIGN : Alignment) (x : SizeT) :
    (∀ value : SizeT, isPowerOfTwo value = true ↔ ∃ k < 64, value.toNat = 2 ^ k) ∧
      align ALIGN x = referenceAlign ALIGN.value x ∧
      ((∃ m < 2 ^ 64, ALIGN.value.toNat ∣ m ∧ x.toNat ≤ m) →
        IsLeast {m | ALIGN.value.toNat ∣ m ∧ x.toNat ≤ m} (align ALIGN x).toNat ∧
          x.toNat + (ALIGN.value - 1).toNat < 2 ^ 64) ∧
      ((¬∃ m < 2 ^ 64, ALIGN.value.toNat ∣ m ∧ x.toNat ≤ m) → align ALIGN x = 0) ∧
      (∀ F : Alignment, F.value ≤ ALIGN.value → align ALIGN (align F x) = align ALIGN x) ∧
      ∀ ctx : MeasureContext, ∀ F : Alignment, ctx.mFreeAlignment = F.value →
        F.value ≤ ALIGN.value → align ALIGN ctx.oldOffset = align ALIGN ctx.mOffset := by
  have hleast := isLeast_alignUp (x := x.toNat) ALIGN.toNat_pos
  refine ⟨fun _ => isPowerOfTwo_iff_exists, ?_, ?_, ?_, fun F => align_align, ?_⟩
  · rw [align_eq_ofNat, referenceAlign_eq_ofNat]
  · intro ⟨m, hm, hdvd, hx⟩
    have hlt := (hleast.2 ⟨hdvd, hx⟩).trans_lt hm
    rw [toNat_align hlt]
    exact ⟨hleast, add_mask_lt hlt⟩
  · intro hnone
    apply align_eq_zero
    by_contra hlt
    exact hnone ⟨_, not_le.1 hlt, hleast.1⟩
  · intro ctx F hfree hle
    have hold : ctx.oldOffset = align F ctx.mOffset := by
      rw [MeasureContext.oldOffset, hfree]
      rfl
    rw [hold, align_align hle]

end Saco.Layout
