import Mathlib.Algebra.BigOperators.Group.List.Basic
import Mathlib.Data.List.Forall2
import Saco.Bump.Estimate

/-!
# Comparing estimates

An estimate is the worst case over all bases (`exists_worst`, `tracks_run`), so an inequality between runs
of the cursor from every base is one between estimates. `size_mono`: leaving blocks out, or making them
smaller or less aligned, never costs more. `size_flatten_le`: blocks that are placed together never need
more than in runs of their own, each rounded up to `M`.
-/

namespace Bump
open Arith

variable {S : Alignments} {M : S} {p q : Block S} {ps qs : List (Block S)} {x y : ℕ}

/-- A block that is not larger and not more aligned. -/
structure Below (p q : Block S) : Prop where
  align : p.align ≤ q.align
  size : p.size ≤ q.size

/-- A block is below itself. -/
lemma Below.refl (q : Block S) : Below q q := ⟨le_rfl, le_rfl⟩

/-- A smaller block, requested earlier, ends no later. -/
lemma Below.advance (h : Below p q) (hxy : x ≤ y) : advance x p ≤ advance y q := by
  have hdvd : (p.align : ℕ) ∣ alignUp q.align y := (S.dvd h.align).trans dvd_alignUp
  have hstart : alignUp p.align x ≤ alignUp q.align y :=
    (alignUp_le_iff p.align_pos hdvd).2 (hxy.trans (le_alignUp q.align_pos))
  exact Nat.add_le_add hstart h.size

/-- Smaller blocks, or fewer of them, end no later. -/
lemma finish_mono (h : List.SublistForall₂ Below ps qs) (hxy : x ≤ y) : finish x ps ≤ finish y qs := by
  induction h generalizing x y with
  | nil => exact hxy.trans (le_finish y _)
  | cons hpq _ ih => exact ih (hpq.advance hxy)
  | cons_right _ ih => exact ih (hxy.trans ((Nat.le_add_right _ _).trans (le_advance y _)))

/-- Starting earlier ends no later. -/
lemma finish_le_finish (hxy : x ≤ y) : finish x qs ≤ finish y qs := by
  refine finish_mono ?_ hxy
  rw [List.sublistForall₂_iff]
  exact ⟨qs, List.forall₂_same.2 fun q _ => .refl q, .refl qs⟩

namespace Estimate

/-- To compare an estimate with a number of bytes it is enough to look at every base. -/
lemma size_le_of_finish_le {n : ℕ} (h : ∀ b, (M : ℕ) ∣ b → finish b qs ≤ b + n) :
    (run M qs).size ≤ n := by
  obtain ⟨b, hb, -, hworst⟩ := exists_worst (M := M) qs
  have hle := h b hb
  omega

/-- The size covers the run from every aligned base. -/
lemma finish_le {b : ℕ} (hb : (M : ℕ) ∣ b) (qs : List (Block S)) :
    finish b qs ≤ b + (run M qs).size :=
  (tracks_run hb qs).upper

/-- Fewer, smaller and less aligned blocks. -/
lemma size_mono (h : List.SublistForall₂ Below ps qs) : (run M ps).size ≤ (run M qs).size :=
  size_le_of_finish_le fun _ hb => (finish_mono h le_rfl).trans (finish_le hb qs)

/-- Two runs, the second one at the next base. -/
lemma size_append_le : (run M (ps ++ qs)).size ≤ alignUp M (run M ps).size + (run M qs).size := by
  refine size_le_of_finish_le fun b hb => ?_
  have hround : finish b ps ≤ b + alignUp M (run M ps).size :=
    (finish_le hb ps).trans (Nat.add_le_add_left (le_alignUp (S.coe_pos M)) b)
  have hnext : (M : ℕ) ∣ b + alignUp M (run M ps).size := Nat.dvd_add hb dvd_alignUp
  calc
    finish b (ps ++ qs) = finish (finish b ps) qs := finish_append
    _ ≤ finish (b + alignUp M (run M ps).size) qs := finish_le_finish hround
    _ ≤ b + alignUp M (run M ps).size + (run M qs).size := finish_le hnext qs
    _ = b + (alignUp M (run M ps).size + (run M qs).size) := Nat.add_assoc ..

/-- Any number of runs. -/
lemma size_flatten_le (qss : List (List (Block S))) :
    (run M qss.flatten).size ≤ (qss.map fun qs => alignUp M (run M qs).size).sum := by
  induction qss with
  | nil => rfl
  | cons qs qss ih =>
    rw [List.flatten_cons, List.map_cons, List.sum_cons]
    exact size_append_le.trans (Nat.add_le_add_left ih _)

end Estimate

end Bump
