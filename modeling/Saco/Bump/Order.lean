import Saco.Bump.Estimate

/-!
# The order of the blocks

How much of an estimate is padding. In every order it is at least the step from `M` to the largest
alignment (`sum_le_size`), and no more when the alignments decrease after a head that is aligned for what
follows (`size_decreasing`).
-/

namespace Bump
open Arith

variable {S : Alignments} {M : S}

namespace Estimate

/-- The largest alignment does not depend on the order. -/
lemma free_foldl (e : Estimate S M) (qs : List (Block S)) :
    (qs.foldl advance e).free = (qs.map Block.align).foldl max e.free := by
  induction qs generalizing e with
  | nil => rfl
  | cons q qs ih => rw [List.foldl_cons, ih, free_advance, List.map_cons, List.foldl_cons]

/-- The free alignment at the end of a run. -/
lemma free_run (qs : List (Block S)) : (run M qs).free = (qs.map Block.align).foldl max M :=
  free_foldl init qs

/-- One block pays for itself and for the step in alignment. -/
lemma size_add_le_advance (e : Estimate S M) (q : Block S) :
    e.size + q.size + (e.advance q).free ≤ (e.advance q).size + e.free := by
  cases le_or_gt q.align e.free with
  | inl h =>
    have hle := le_advance e.offset q
    rw [free_advance, max_eq_left h, advance_of_le h]
    simp only [size]
    omega
  | inr h =>
    have hextra := extra_advance h
    have hle := le_alignUp (S.coe_pos e.free) (x := e.offset)
    rw [free_advance, max_eq_right h.le]
    simp only [size, offset_advance, Bump.advance]
    omega

/-- The size of an estimate is at least the sum of the blocks and the step from `M` to the largest
alignment. -/
lemma sum_le_size (qs : List (Block S)) :
    (qs.map Block.size).sum + (run M qs).free ≤ (run M qs).size + M := by
  induction qs using List.reverseRecOn with
  | nil => rfl
  | append_singleton qs q ih =>
    have hstep := size_add_le_advance (run M qs) q
    rw [run_concat, List.map_append, List.sum_append, List.map_singleton, List.sum_singleton]
    omega

/-- The offset of an estimate is aligned for `q`, up to the largest alignment so far. -/
def Ready (e : Estimate S M) (q : Block S) : Prop :=
  (q.align : ℕ) ∣ e.offset ∨ (e.free : ℕ) ∣ e.offset

/-- A block that the estimate is ready for costs nothing but the step in alignment. -/
lemma size_advance_of_ready {e : Estimate S M} {q : Block S} (h : e.Ready q) :
    (e.advance q).size + e.free = e.size + q.size + (e.advance q).free := by
  cases le_or_gt q.align e.free with
  | inl hle =>
    -- no padding and the free size stays
    have hdvd : (q.align : ℕ) ∣ e.offset := h.elim id fun hfree => (S.dvd hle).trans hfree
    rw [free_advance, max_eq_left hle, advance_of_le hle]
    simp only [size, Bump.advance, alignUp_of_dvd q.align_pos hdvd]
    omega
  | inr hlt =>
    -- the padding is what the larger alignment adds to the free size
    have hdvd : (e.free : ℕ) ∣ e.offset := h.elim (fun halign => (S.dvd hlt.le).trans halign) id
    have hextra := extra_advance hlt
    rw [alignUp_of_dvd (S.coe_pos e.free) hdvd] at hextra
    rw [free_advance, max_eq_right hlt.le]
    simp only [size, offset_advance, Bump.advance]
    omega

/-- After a block of whole units of its alignment the estimate is ready for everything that is aligned to
less. -/
lemma ready_advance {e : Estimate S M} {q r : Block S} (hsize : (q.align : ℕ) ∣ q.size)
    (hr : r.align ≤ q.align) : (e.advance q).Ready r := by
  refine .inl ?_
  rw [offset_advance]
  exact (S.dvd hr).trans (Nat.dvd_add dvd_alignUp hsize)

/-- Blocks in the order of decreasing alignment. -/
lemma size_foldl_decreasing {e : Estimate S M} {qs : List (Block S)}
    (hqs : qs.Pairwise fun q r => r.align ≤ q.align) (hsize : ∀ q ∈ qs, (q.align : ℕ) ∣ q.size)
    (hready : ∀ q ∈ qs, e.Ready q) :
    (qs.foldl advance e).size + e.free =
      e.size + (qs.map Block.size).sum + (qs.foldl advance e).free := by
  induction qs generalizing e with
  | nil => rfl
  | cons q qs ih =>
    obtain ⟨hq, hqs⟩ := List.pairwise_cons.1 hqs
    obtain ⟨hqsize, hsize⟩ := List.forall_mem_cons.1 hsize
    have hstep := size_advance_of_ready (hready q List.mem_cons_self)
    have hnext : ∀ r ∈ qs, (e.advance q).Ready r := fun r hr => ready_advance hqsize (hq r hr)
    have hrest := ih hqs hsize hnext
    rw [List.foldl_cons, List.map_cons, List.sum_cons]
    omega

/-- A head, and then the order of decreasing alignment. -/
lemma size_decreasing {head : Block S} {qs : List (Block S)} (hhead : head.align ≤ M)
    (hqs : qs.Pairwise fun q r => r.align ≤ q.align) (hsize : ∀ q ∈ qs, (q.align : ℕ) ∣ q.size)
    (hready : ∀ q ∈ qs, (q.align : ℕ) ∣ head.size ∨ (M : ℕ) ∣ head.size) :
    (run M (head :: qs)).size + M =
      ((head :: qs).map Block.size).sum + (run M (head :: qs)).free := by
  have hfirst : (init : Estimate S M).advance head = ⟨head.size, M, 0, le_rfl, by omega⟩ := by
    have hoffset : Bump.advance 0 head = head.size := by
      rw [Bump.advance, alignUp_of_dvd head.align_pos (dvd_zero _), Nat.zero_add]
    have hle : head.align ≤ (init : Estimate S M).free := hhead
    rw [advance_of_le hle]
    simp only [init, hoffset]
  have hnext : ∀ q ∈ qs, ((init : Estimate S M).advance head).Ready q := by
    rw [hfirst]
    exact hready
  have hrest := size_foldl_decreasing hqs hsize hnext
  rw [run, List.foldl_cons, List.map_cons, List.sum_cons]
  rw [hfirst] at hrest ⊢
  exact hrest

end Estimate

end Bump
