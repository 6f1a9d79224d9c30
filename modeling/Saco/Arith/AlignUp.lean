import Mathlib.Algebra.Order.Floor.Div
import Mathlib.Algebra.Order.Group.Nat
import Mathlib.Data.Nat.ModEq

/-!
# Rounding up to a multiple

The rounding `alignUp a x`, the least multiple of `a` that is not below `x`. It is the upper adjoint
side of Mathlib's ceiling division, so everything below follows from the Galois connection
`alignUp_le_iff` and from `dvd_alignUp`.

The last three lemmas are about two alignments `f ∣ a`: rounding an `f`-aligned point to `a` skips at
most `a - f` units (`alignUp_add_le`), and among the points that differ by a multiple of `f` there is
one that skips exactly that many (`exists_alignUp_worst`).
-/

namespace Arith

/-- The least multiple of `a` that is at least `x`. -/
def alignUp (a x : ℕ) : ℕ := a * (x ⌈/⌉ a)

variable {a b c f x y : ℕ}

/-- Two multiples of `a` that differ are at least `a` apart. -/
lemma add_le_of_lt_of_dvd (hx : a ∣ x) (hy : a ∣ y) (h : x < y) : x + a ≤ y :=
  Nat.le_of_lt_add_of_dvd (Nat.add_lt_add_right h a) (Nat.dvd_add hx dvd_rfl) hy

/-- The aligned number is a multiple. -/
lemma dvd_alignUp : a ∣ alignUp a x := Dvd.intro _ rfl

/-- Aligning only goes up. -/
lemma le_alignUp (ha : 0 < a) : x ≤ alignUp a x := le_smul_ceilDiv ha

/-- Rounding up is the least multiple above: it is adjoint to the inclusion of the multiples. -/
lemma alignUp_le_iff (ha : 0 < a) (hy : a ∣ y) : alignUp a x ≤ y ↔ x ≤ y := by
  obtain ⟨c, rfl⟩ := hy
  rw [alignUp, Nat.mul_le_mul_left_iff ha, ceilDiv_le_iff_le_mul ha]

/-- The aligned number is the least multiple that is not below the number. -/
lemma isLeast_alignUp (ha : 0 < a) : IsLeast {m | a ∣ m ∧ x ≤ m} (alignUp a x) :=
  ⟨⟨dvd_alignUp, le_alignUp ha⟩, fun _ hm => (alignUp_le_iff ha hm.1).2 hm.2⟩

/-- A multiple is aligned already. -/
lemma alignUp_of_dvd (ha : 0 < a) (hx : a ∣ x) : alignUp a x = x :=
  le_antisymm ((alignUp_le_iff ha hx).2 le_rfl) (le_alignUp ha)

/-- Aligning keeps the order. -/
lemma alignUp_mono (ha : 0 < a) (h : x ≤ y) : alignUp a x ≤ alignUp a y :=
  (alignUp_le_iff ha dvd_alignUp).2 (h.trans (le_alignUp ha))

/-- Less than one alignment is skipped. -/
lemma alignUp_lt (ha : 0 < a) : alignUp a x < x + a := by
  have h : a * ((x + a - 1) / a) ≤ x + a - 1 := Nat.mul_div_le _ _
  rw [alignUp, Nat.ceilDiv_eq_add_pred_div]
  omega

/-- The form with a division that rounds down. -/
lemma alignUp_eq_div : alignUp a x = a * ((x + (a - 1)) / a) := by
  rcases Nat.eq_zero_or_pos a with rfl | ha
  · simp [alignUp]
  · rw [alignUp, Nat.ceilDiv_eq_add_pred_div, Nat.add_sub_assoc ha]

/-- The rounding by division: down first, and up by `a` if something was cut off. -/
lemma alignUp_eq_ite (ha : 0 < a) :
    alignUp a x = if x / a * a < x then x / a * a + a else x / a * a := by
  have hdvd : a ∣ x / a * a := Nat.dvd_mul_left a (x / a)
  split
  case isTrue h =>
    apply le_antisymm
    · rw [alignUp_le_iff ha (Nat.dvd_add hdvd dvd_rfl)]
      exact (Nat.lt_div_mul_add ha).le
    · exact add_le_of_lt_of_dvd hdvd dvd_alignUp (h.trans_le (le_alignUp ha))
  case isFalse h =>
    have hx : x / a * a = x := le_antisymm (Nat.div_mul_le_self x a) (not_lt.1 h)
    rw [hx]
    exact alignUp_of_dvd ha (hx ▸ hdvd)

/-- Behind zero there is room for the whole alignment. -/
lemma le_alignUp_of_pos (ha : 0 < a) (hx : 0 < x) : a ≤ alignUp a x :=
  Nat.le_of_dvd (hx.trans_le (le_alignUp ha)) dvd_alignUp

/-- A multiple can be taken out of the sum. -/
lemma alignUp_add_of_dvd (ha : 0 < a) (hc : a ∣ c) : alignUp a (c + x) = c + alignUp a x := by
  apply le_antisymm
  · rw [alignUp_le_iff ha (Nat.dvd_add hc dvd_alignUp)]
    exact Nat.add_le_add_left (le_alignUp ha) c
  · have hsub : a ∣ alignUp a (c + x) - c := Nat.dvd_sub dvd_alignUp hc
    have hle := le_alignUp ha (x := c + x)
    have h := (alignUp_le_iff ha hsub (x := x)).2 (by omega)
    omega

/-- Rounding first to a divisor of the alignment changes nothing. -/
lemma alignUp_alignUp (ha : 0 < a) (hb : 0 < b) (hab : a ∣ b) :
    alignUp b (alignUp a x) = alignUp b x := by
  apply le_antisymm
  · rw [alignUp_le_iff hb dvd_alignUp, alignUp_le_iff ha (hab.trans dvd_alignUp)]
    exact le_alignUp hb
  · exact alignUp_mono hb (le_alignUp ha)

/-- What rounding skips depends on the residue only. -/
lemma alignUp_congr (ha : 0 < a) (h : x ≡ y [MOD a]) : alignUp a x + y = alignUp a y + x := by
  wlog hxy : x ≤ y generalizing x y
  · exact (this h.symm (by omega)).symm
  obtain ⟨c, hc⟩ := (Nat.modEq_iff_dvd' hxy).1 h
  obtain rfl : y = a * c + x := by omega
  rw [alignUp_add_of_dvd ha (Dvd.intro c rfl)]
  omega

/-- Rounding an `f`-aligned point to a multiple of `f` skips at most `a - f`. -/
lemma alignUp_add_le (hfa : f ∣ a) (ha : 0 < a) (hfx : f ∣ x) :
    alignUp a x + f ≤ x + a := by
  have hdvd : f ∣ alignUp a x := hfa.trans dvd_alignUp
  have hdvd' : f ∣ x + a := Nat.dvd_add hfx hfa
  exact add_le_of_lt_of_dvd hdvd hdvd' (alignUp_lt ha)

/-- The first multiple behind zero. -/
lemma alignUp_of_le (hx : 0 < x) (hxa : x ≤ a) : alignUp a x = a := by
  have ha := hx.trans_le hxa
  exact le_antisymm ((alignUp_le_iff ha dvd_rfl).2 hxa) (le_alignUp_of_pos ha hx)

/-- Some shift by a multiple of `f` makes the rounding skip the full `a - f`. -/
lemma exists_alignUp_worst (hf : 0 < f) (hfa : f ∣ a) (ha : 0 < a) (hfx : f ∣ x) :
    ∃ d, f ∣ d ∧ d < a ∧ alignUp a (x + d) + f = x + d + a := by
  have hle := alignUp_add_le hfa ha hfx
  have hge := le_alignUp ha (x := x)
  -- the shift that lands just past a multiple of `a`, unless `x` is already there
  cases Nat.lt_or_ge (alignUp a x + f) (x + a) with
  | inl hlt =>
    refine ⟨alignUp a x + f - x, ?_, by omega, ?_⟩
    · exact Nat.dvd_sub (Nat.dvd_add (hfa.trans dvd_alignUp) dvd_rfl) hfx
    · rw [show x + (alignUp a x + f - x) = alignUp a x + f by omega,
        alignUp_add_of_dvd ha dvd_alignUp, alignUp_of_le hf (Nat.le_of_dvd ha hfa)]
      omega
  | inr hlast =>
    refine ⟨0, dvd_zero f, ha, ?_⟩
    rw [Nat.add_zero]
    omega

end Arith
