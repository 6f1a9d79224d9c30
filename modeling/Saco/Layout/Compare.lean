import Saco.Bump.Compare
import Saco.Layout.Align
import Saco.Layout.Block

/-!
# Comparing measured sizes

`requiredSize_mono`: a request that is left out, made smaller or less aligned never makes the measured size
grow. `single_allocation_le`: objects that are placed together take at most as many bytes as in allocations
of their own, each of which `operator new` serves in units of `MAX_NEW_ALIGNMENT`.
-/

namespace Saco.Layout
open Arith Bump

variable {cfg : Config}

/-- A request that is not larger and not more aligned. -/
structure Request.Below (q r : Request) : Prop where
  align : q.ALIGN.value ≤ r.ALIGN.value
  size : q.size ≤ r.size

/-- Requests compare like their blocks. -/
lemma below_blocks {qs rs : List Request} (h : List.SublistForall₂ Request.Below qs rs) :
    List.SublistForall₂ Bump.Below (qs.map Request.block) (rs.map Request.block) := by
  induction h with
  | nil => exact .nil
  | cons hqr _ ih => exact .cons ⟨Alignment.le_iff.1 hqr.align, BitVec.le_def.1 hqr.size⟩ ih
  | cons_right _ ih => exact .cons_right ih

/-- A sequence of requests and a smaller one, both with a head as `build_unique` guarantees it. -/
theorem requiredSize_mono (cfg : Config) (qs rs : List Request)
    (hqs : Headed cfg (qs.map Request.block)) (hrs : Headed cfg (rs.map Request.block))
    (hle : List.SublistForall₂ Request.Below qs rs) (rep : Representable cfg (rs.map Request.block)) :
    ∃ mctx mctx', MeasureContext.allocateAll cfg qs (.init cfg) = .ok mctx ∧
      MeasureContext.allocateAll cfg rs (.init cfg) = .ok mctx' ∧
      mctx.requiredSize ≤ mctx'.requiredSize := by
  have hsize := Estimate.size_mono (M := cfg.maxNewAlignment.nat) (below_blocks hle)
  have rep' : Representable cfg (qs.map Request.block) := hsize.trans_lt rep
  obtain ⟨mctx, hmctx, sim⟩ := MeasureContext.exists_run (Request.denotes_blocks qs) hqs rep'
  obtain ⟨mctx', hmctx', sim'⟩ := MeasureContext.exists_run (Request.denotes_blocks rs) hrs rep
  refine ⟨mctx, mctx', hmctx, hmctx', ?_⟩
  rw [BitVec.le_def, sim.toNat_requiredSize, sim'.toNat_requiredSize, Nat.mod_eq_of_lt rep,
    Nat.mod_eq_of_lt rep']
  exact hsize

/-- A line instead of two cache lines. -/
theorem requiredSize_mono_cacheLines : ∃ mctx mctx',
    MeasureContext.allocateAll debug16 [⟨⟨1, by decide⟩, 1⟩, ⟨align16, 16⟩] (.init debug16) = .ok mctx ∧
      MeasureContext.allocateAll debug16 cacheLines (.init debug16) = .ok mctx' ∧
      mctx.requiredSize ≤ mctx'.requiredSize := by
  have hbelow : Request.Below ⟨align16, 16⟩ ⟨⟨64, by decide⟩, 128⟩ := ⟨by decide, by decide⟩
  have hhead : Headed debug16 (cacheLines.map Request.block) := ⟨by decide, by decide⟩
  exact requiredSize_mono debug16 [⟨⟨1, by decide⟩, 1⟩, ⟨align16, 16⟩] cacheLines
    ⟨by decide, by decide⟩ hhead (.cons ⟨BitVec.le_refl _, BitVec.le_refl _⟩ (.cons hbelow .nil))
    (by decide)

/-- An object that could be built on its own. -/
structure Part (cfg : Config) where
  head : HeadType cfg
  rest : List TypedRequest

namespace Part

def requests (p : Part cfg) : List TypedRequest := headedBy p.head p.rest

/-- The requests of all parts, one after the other. -/
def together (ps : List (Part cfg)) : List TypedRequest := ps.flatMap requests

/-- The bytes of an allocation of its own. -/
def ownSize (p : Part cfg) : ℕ :=
  alignUp cfg.maxNewAlignment.value.toNat
    (Estimate.run cfg.maxNewAlignment.nat (p.requests.map TypedRequest.block)).size

/-- The parts together need no more than each of them rounded up. -/
lemma size_together_le (ps : List (Part cfg)) :
    (Estimate.run cfg.maxNewAlignment.nat ((together ps).map TypedRequest.block)).size ≤
      (ps.map ownSize).sum := by
  have hblocks : (together ps).map TypedRequest.block =
      (ps.map fun p => p.requests.map TypedRequest.block).flatten := by
    rw [together, List.map_flatMap]
    rfl
  have hle := Estimate.size_flatten_le (M := cfg.maxNewAlignment.nat)
    (ps.map fun p => p.requests.map TypedRequest.block)
  rw [List.map_map] at hle
  rw [hblocks]
  exact hle

/-- The first part heads the others. -/
lemma together_cons (p : Part cfg) (ps : List (Part cfg)) :
    together (p :: ps) = headedBy p.head (p.rest ++ together ps) := by
  rw [together, List.flatMap_cons]
  rfl

/-- Measured on its own, and rounded as `operator new` does. -/
lemma exists_own (p : Part cfg) (h : p.ownSize < 2 ^ 64) :
    ∃ mctx, MeasureContext.allocateAll cfg (p.requests.map TypedRequest.request) (.init cfg) = .ok mctx ∧
      (align cfg.maxNewAlignment mctx.requiredSize).toNat = p.ownSize := by
  have rep : Representable cfg ((headedBy p.head p.rest).map TypedRequest.block) :=
    (le_alignUp cfg.maxNewAlignment.toNat_pos).trans_lt h
  obtain ⟨mctx, measures⟩ := exists_measures rep
  have hround : alignUp cfg.maxNewAlignment.value.toNat mctx.requiredSize.toNat = p.ownSize := by
    rw [measures.requiredSize]
    rfl
  refine ⟨mctx, measures.run, ?_⟩
  rw [toNat_align (hround.trans_lt h), hround]

/-- Each part can be measured on its own. -/
lemma exists_owns (ps : List (Part cfg)) (h : (ps.map ownSize).sum < 2 ^ 64) :
    ∃ mctxs, List.Forall₂ (fun p mctx =>
        MeasureContext.allocateAll cfg (p.requests.map TypedRequest.request) (.init cfg) = .ok mctx)
          ps mctxs ∧
      (mctxs.map fun mctx => (align cfg.maxNewAlignment mctx.requiredSize).toNat).sum =
        (ps.map ownSize).sum := by
  induction ps with
  | nil => exact ⟨[], .nil, rfl⟩
  | cons p ps ih =>
    rw [List.map_cons, List.sum_cons] at h
    obtain ⟨mctx, hmctx, hown⟩ := p.exists_own (Nat.lt_of_le_of_lt (Nat.le_add_right _ _) h)
    obtain ⟨mctxs, hmctxs, howns⟩ := ih (Nat.lt_of_le_of_lt (Nat.le_add_left _ _) h)
    refine ⟨mctx :: mctxs, .cons hmctx hmctxs, ?_⟩
    rw [List.map_cons, List.sum_cons, List.map_cons, List.sum_cons, hown, howns]

end Part

/-- One allocation for all parts is at most as large as their own allocations together. -/
theorem single_allocation_le (cfg : Config) (p : Part cfg) (ps : List (Part cfg))
    (hsum : ((p :: ps).map Part.ownSize).sum < 2 ^ 64) :
    ∃ mctx mctxs,
      MeasureContext.allocateAll cfg ((Part.together (p :: ps)).map TypedRequest.request) (.init cfg) =
        .ok mctx ∧
      List.Forall₂ (fun p mctx =>
        MeasureContext.allocateAll cfg (p.requests.map TypedRequest.request) (.init cfg) = .ok mctx)
          (p :: ps) mctxs ∧
      mctx.requiredSize.toNat ≤
        (mctxs.map fun mctx => (align cfg.maxNewAlignment mctx.requiredSize).toNat).sum := by
  have hle := Part.size_together_le (p :: ps)
  have rep : Representable cfg ((Part.together (p :: ps)).map TypedRequest.block) :=
    hle.trans_lt hsum
  rw [Part.together_cons] at rep hle ⊢
  obtain ⟨mctx, measures⟩ := exists_measures rep
  obtain ⟨mctxs, hmctxs, howns⟩ := Part.exists_owns (p :: ps) hsum
  refine ⟨mctx, mctxs, measures.run, hmctxs, ?_⟩
  rw [howns, measures.requiredSize]
  exact hle

/-- A line, and two bytes with a line of their own: not more than 16 and 32 bytes. -/
theorem single_allocation_le_lines : ∃ mctx,
    MeasureContext.allocateAll debug16 ((Part.together [⟨lineHead, []⟩,
      ⟨shortHead, [.object lineHead.toCxxType]⟩]).map TypedRequest.request) (.init debug16) = .ok mctx ∧
    mctx.requiredSize.toNat ≤ 16 + 32 := by
  obtain ⟨mctx, mctxs, hmctx, hown, hle⟩ := single_allocation_le debug16 ⟨lineHead, []⟩
    [⟨shortHead, [.object lineHead.toCxxType]⟩] (by decide)
  cases hown with
  | cons hline hrest =>
    cases hrest with
    | cons hshort hnil =>
      cases hnil
      obtain rfl := Except.ok.inj (hline.symm.trans rfl)
      obtain rfl := Except.ok.inj (hshort.symm.trans rfl)
      exact ⟨mctx, hmctx, hle.trans (by decide)⟩

end Saco.Layout
