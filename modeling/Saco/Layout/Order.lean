import Mathlib.Algebra.BigOperators.Group.List.Basic
import Saco.Bump.Order
import Saco.Layout.Block

/-!
# The order of the requests

A builder is free to place its parts in any order. `decreasing_optimal`: after a head that is aligned for
them the order of decreasing alignment is the best one. What it needs beside the objects themselves is the
step from `MAX_NEW_ALIGNMENT` to the largest alignment, which every order needs.
-/

namespace Saco.Layout
open Arith Bump

variable {cfg : Config} {T : HeadType cfg} {ts us : List TypedRequest}

/-- The bytes of the objects. -/
def totalExtent (ts : List TypedRequest) : ℕ := (ts.map TypedRequest.extent).sum

/-- The sizes add up to the total extent. -/
lemma sum_size_blocks : ((ts.map TypedRequest.block).map Block.size).sum = totalExtent ts := by
  rw [List.map_map]
  rfl

/-- An extent is a multiple of its alignment, since `sizeof` is. -/
lemma align_dvd_extent (t : TypedRequest) : t.request.ALIGN.value.toNat ∣ t.extent := by
  cases t with
  | object T => exact T.alignof_dvd
  | array T count => exact Dvd.dvd.mul_right T.alignof_dvd _

/-- The largest alignment of typed requests. -/
lemma coe_free_typed : ((Estimate.run cfg.maxNewAlignment.nat (ts.map TypedRequest.block)).free : ℕ) =
    largestAlignment cfg (ts.map TypedRequest.request) := by
  have haligns : (ts.map TypedRequest.block).map Block.align =
      ((ts.map TypedRequest.request).map Request.block).map Block.align := by
    rw [List.map_map, List.map_map, List.map_map]
    rfl
  rw [← coe_free_run, Estimate.free_run, Estimate.free_run, haligns]

/-- The order makes no difference to the largest alignment. -/
lemma largestAlignment_perm {qs rs : List Request} (h : qs.Perm rs) :
    largestAlignment cfg qs = largestAlignment cfg rs :=
  (h.map _).foldl_eq _

section Headed

variable {mctx : MeasureContext}

/-- Every order needs at least the objects and the step in alignment. -/
lemma Measures.totalExtent_le (measures : Measures T ts mctx) :
    totalExtent (headedBy T ts) + largestAlignment cfg ((headedBy T ts).map TypedRequest.request) ≤
      mctx.requiredSize.toNat + cfg.maxNewAlignment.value.toNat := by
  have hle := Estimate.sum_le_size (M := cfg.maxNewAlignment.nat) ((headedBy T ts).map TypedRequest.block)
  rw [sum_size_blocks, coe_free_typed, ← measures.requiredSize] at hle
  exact hle

/-- The head is aligned for the requests behind it. -/
def Leads (T : HeadType cfg) (ts : List TypedRequest) : Prop :=
  ∀ t ∈ ts, t.request.ALIGN.value.toNat ∣ T.sizeof.toNat ∨
    cfg.maxNewAlignment.value.toNat ∣ T.sizeof.toNat

/-- The order of decreasing alignment needs no more. -/
lemma size_of_decreasing (leads : Leads T ts)
    (hts : ts.Pairwise fun t u => u.request.ALIGN.value ≤ t.request.ALIGN.value) :
    (Estimate.run cfg.maxNewAlignment.nat ((headedBy T ts).map TypedRequest.block)).size +
        cfg.maxNewAlignment.value.toNat =
      totalExtent (headedBy T ts) +
        largestAlignment cfg ((headedBy T ts).map TypedRequest.request) := by
  have hsize : ∀ b ∈ ts.map TypedRequest.block, (b.align : ℕ) ∣ b.size := by
    intro b hb
    obtain ⟨t, -, rfl⟩ := List.mem_map.1 hb
    exact align_dvd_extent t
  have hready : ∀ b ∈ ts.map TypedRequest.block,
      (b.align : ℕ) ∣ T.block.size ∨ (cfg.maxNewAlignment.nat : ℕ) ∣ T.block.size := by
    intro b hb
    obtain ⟨t, ht, rfl⟩ := List.mem_map.1 hb
    exact leads t ht
  have hdecreasing := Estimate.size_decreasing (M := cfg.maxNewAlignment.nat)
    (Alignment.le_iff.1 T.alignof_le_max) (List.pairwise_map.2 hts) hsize hready
  have hblocks : (headedBy T ts).map TypedRequest.block =
      T.block :: ts.map TypedRequest.block := rfl
  rw [← hblocks, sum_size_blocks, coe_free_typed] at hdecreasing
  exact hdecreasing

/-- The head stays in front. -/
lemma headedBy_perm (h : us.Perm ts) : (headedBy T us).Perm (headedBy T ts) := h.cons _

end Headed

/-- After a head that is aligned for them, the requests in the order of decreasing alignment are measured
with at most the size of any other order. No byte is lost except for the step to the largest alignment. -/
theorem decreasing_optimal (cfg : Config) (T : HeadType cfg) (ts us : List TypedRequest)
    (leads : Leads T ts) (hts : ts.Pairwise fun t u => u.request.ALIGN.value ≤ t.request.ALIGN.value)
    (hperm : us.Perm ts) (rep : Representable cfg ((headedBy T us).map TypedRequest.block)) :
    ∃ best mctx,
      MeasureContext.allocateAll cfg ((headedBy T ts).map TypedRequest.request) (.init cfg) = .ok best ∧
      MeasureContext.allocateAll cfg ((headedBy T us).map TypedRequest.request) (.init cfg) = .ok mctx ∧
      best.requiredSize ≤ mctx.requiredSize ∧
      best.requiredSize.toNat + cfg.maxNewAlignment.value.toNat =
        totalExtent (headedBy T ts) +
          largestAlignment cfg ((headedBy T ts).map TypedRequest.request) := by
  obtain ⟨mctx, measures⟩ := exists_measures rep
  have hbest := size_of_decreasing leads hts
  have hle := measures.totalExtent_le
  have hextent : totalExtent (headedBy T us) = totalExtent (headedBy T ts) :=
    ((headedBy_perm hperm).map _).sum_eq
  -- the lower bound does not depend on the order
  rw [hextent, largestAlignment_perm ((headedBy_perm hperm).map TypedRequest.request)] at hle
  have hrep : Representable cfg ((headedBy T ts).map TypedRequest.block) := by
    have hword := mctx.requiredSize.isLt
    rw [Representable]
    omega
  obtain ⟨best, measures'⟩ := exists_measures hrep
  have hsize := measures'.requiredSize
  refine ⟨best, mctx, measures'.run, measures.run, ?_, ?_⟩
  · rw [BitVec.le_def]
    omega
  · rw [hsize]
    exact hbest

/-- A line is placed before two bytes, not behind them. -/
theorem decreasing_optimal_line : ∃ best mctx,
    MeasureContext.allocateAll debug16 ((headedBy lineHead
      [.object lineHead.toCxxType, .object shortHead.toCxxType]).map TypedRequest.request)
        (.init debug16) = .ok best ∧
    MeasureContext.allocateAll debug16 ((headedBy lineHead
      [.object shortHead.toCxxType, .object lineHead.toCxxType]).map TypedRequest.request)
        (.init debug16) = .ok mctx ∧
    best.requiredSize ≤ mctx.requiredSize := by
  obtain ⟨best, mctx, hbest, hmctx, hle, -⟩ := decreasing_optimal debug16 lineHead
    [.object lineHead.toCxxType, .object shortHead.toCxxType]
    [.object shortHead.toCxxType, .object lineHead.toCxxType]
    (fun _ _ => .inr (by decide)) (List.pairwise_pair.2 (by decide)) (.swap ..)
    (by decide)
  exact ⟨best, mctx, hbest, hmctx, hle⟩

end Saco.Layout
