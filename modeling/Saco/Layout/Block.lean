import Saco.Layout.RequiredSize

/-!
# Layouts of a block

A head object followed by any typed requests, measured and then constructed in one block.

`layout_valid`: if the sums of the measure pass are representable, every base that satisfies what
`alloc_raw` asserts gives a valid layout, also when the block is smaller than `MAX_NEW_ALIGNMENT` and
therefore less aligned. In that case no requested alignment exceeds the block, so the base is a multiple
of all of them.

`extents_inside_iff`: when both passes complete, the exact extents of the requests lie inside the block
if and only if the sums are representable. The arithmetic of the two passes agrees modulo `2 ^ 64` for
all requests, so the comparison of `m_current` with `m_end` alone does not notice sums that wrap.
-/

namespace Saco.Layout
open Arith Bump

variable {cfg : Config} {T : HeadType cfg} {ts : List TypedRequest} {qs : List Request}
  {bs : List (Block powersOfTwo)} {r base : SizeT}

/-- The block of the head object. -/
def HeadType.block (T : HeadType cfg) : Block powersOfTwo := (TypedRequest.object T.toCxxType).block

/-- The request of the head object, followed by others. -/
def headedBy (T : HeadType cfg) (ts : List TypedRequest) : List TypedRequest :=
  .object T.toCxxType :: ts

/-- The block of a head is one that the contexts accept first. -/
lemma headed_block : Headed cfg (T.block :: bs) :=
  ⟨T.sizeof_pos, Alignment.le_iff.1 T.alignof_le_max⟩

/-- Behind a head, every request ends behind its own alignment. -/
lemma align_le_finish_headed {b : Block powersOfTwo} (hb : b ∈ T.block :: bs) :
    (b.align : ℕ) ≤ finish 0 (T.block :: bs) :=
  align_le_finish_cons T.sizeof_pos T.alignof_le hb

/-- The alignments of requests are alignments of words. -/
lemma exists_alignment {b : Block powersOfTwo} (den : List.Forall₂ Request.Denotes qs bs)
    (hb : b ∈ bs) : ∃ a : Alignment, b.align = a.nat := by
  induction den with
  | nil => cases hb
  | @cons q b' qs bs dq _ ih =>
    cases hb with
    | head => exact ⟨q.ALIGN, dq.align⟩
    | tail _ hb => exact ih hb

/-- In a block smaller than `MAX_NEW_ALIGNMENT` the base is a multiple of every requested alignment. -/
lemma align_dvd_of_small {b : Block powersOfTwo} (den : List.Forall₂ Request.Denotes qs (T.block :: bs))
    (hr : r.toNat = (Estimate.run cfg.maxNewAlignment.nat (T.block :: bs)).size)
    (hbase : allocRawAligned cfg r base = true) (hsmall : ¬cfg.maxNewAlignment.value ≤ r)
    (hb : b ∈ T.block :: bs) : (b.align : ℕ) ∣ base.toNat := by
  obtain ⟨a, ha⟩ := exists_alignment den hb
  have hfin := align_le_finish_headed hb
  rw [ha, Alignment.coe_nat] at hfin ⊢
  rw [Estimate.size, Estimate.offset_run] at hr
  rw [BitVec.le_def] at hsmall
  have hle : a.value ≤ r := by
    rw [BitVec.le_def, hr]
    exact hfin.trans (Nat.le_add_right _ _)
  exact allocRawAligned_dvd hbase (by rw [BitVec.le_def] at hle ⊢; omega) hle

/-- From a base that `alloc_raw` returns, the cursor ends within the measured size. -/
lemma finish_le_of_allocRawAligned (den : List.Forall₂ Request.Denotes qs (T.block :: bs))
    (hr : r.toNat = (Estimate.run cfg.maxNewAlignment.nat (T.block :: bs)).size)
    (hbase : allocRawAligned cfg r base = true) :
    finish base.toNat (T.block :: bs) ≤ base.toNat + r.toNat := by
  by_cases hsmall : cfg.maxNewAlignment.value ≤ r
  · rw [hr]
    exact (Estimate.tracks_run (allocRawAligned_dvd hbase (BitVec.le_refl _) hsmall) _).upper
  · have hadd := finish_add (c := base.toNat) (x := 0)
      fun b hb => align_dvd_of_small den hr hbase hsmall hb
    rw [Nat.add_zero] at hadd
    rw [hadd, hr, Estimate.size, Estimate.offset_run]
    omega

/-- The head is placed at the base itself. -/
lemma head_align_dvd (hr : r.toNat = (Estimate.run cfg.maxNewAlignment.nat (T.block :: bs)).size)
    (hbase : allocRawAligned cfg r base = true) : T.alignof.value.toNat ∣ base.toNat := by
  refine allocRawAligned_dvd hbase T.alignof_le_max ?_
  have hfin : (T.block.align : ℕ) ≤ finish 0 (T.block :: bs) :=
    align_le_finish_headed (List.mem_cons_self ..)
  rw [Estimate.size, Estimate.offset_run] at hr
  rw [BitVec.le_def, hr]
  exact hfin.trans (Nat.le_add_right _ _)

/-- Addresses below the top of the address space are read back exactly. -/
lemma toNat_starts {x : ℕ} (h : finish x bs < 2 ^ 64) :
    ((starts x bs).map (BitVec.ofNat 64)).map BitVec.toNat = starts x bs := by
  induction bs generalizing x with
  | nil => rfl
  | cons b bs ih =>
    have hadv := le_finish (advance x b) bs
    rw [finish_cons] at h
    rw [starts, List.map_cons, List.map_cons, ih h, toNat_ofNat_of_lt]
    rw [advance] at hadv h
    omega

/-- A measure pass over a head and other requests, none of whose sums wraps. -/
structure Measures (T : HeadType cfg) (ts : List TypedRequest) (mctx : MeasureContext) : Prop where
  rep : Representable cfg ((headedBy T ts).map TypedRequest.block)
  run : MeasureContext.allocateAll cfg ((headedBy T ts).map TypedRequest.request) (.init cfg) = .ok mctx

section Measures

variable {mctx : MeasureContext}

/-- A measure pass whose sums fit completes. -/
lemma exists_measures (rep : Representable cfg ((headedBy T ts).map TypedRequest.block)) :
    ∃ mctx, Measures T ts mctx := by
  obtain ⟨mctx, hmctx, -⟩ :=
    MeasureContext.exists_run (TypedRequest.denotes_blocks (headedBy T ts)) headed_block rep
  exact ⟨mctx, rep, hmctx⟩

/-- A measure pass returns the size of the estimate. -/
lemma Measures.requiredSize (measures : Measures T ts mctx) : mctx.requiredSize.toNat =
    (Estimate.run cfg.maxNewAlignment.nat ((headedBy T ts).map TypedRequest.block)).size := by
  have sim := MeasureContext.simulates_run (TypedRequest.denotes_blocks (headedBy T ts)) measures.run
  rw [sim.toNat_requiredSize, Nat.mod_eq_of_lt measures.rep]

/-- A construct pass in a block of the measured size at a base that `alloc_raw` can return. -/
lemma Measures.exists_layout (measures : Measures T ts mctx)
    (hbase : allocRawAligned cfg mctx.requiredSize base = true)
    (hfit : base.toNat + mctx.requiredSize.toNat < 2 ^ 64) :
    ∃ as cctx, ConstructContext.allocateAll cfg ((headedBy T ts).map TypedRequest.request)
        (.init base mctx.requiredSize) = .ok (as, cctx) ∧
      as.head? = some base ∧
      Laid base.toNat (base.toNat + mctx.requiredSize.toNat)
        ((headedBy T ts).map TypedRequest.block) (as.map BitVec.toNat) := by
  have den := TypedRequest.denotes_blocks (headedBy T ts)
  have hr := measures.requiredSize
  have hfin : finish base.toNat ((headedBy T ts).map TypedRequest.block) ≤
      base.toNat + mctx.requiredSize.toNat := finish_le_of_allocRawAligned den hr hbase
  refine ⟨_, _, ConstructContext.allocateAll_eq den ConstructContext.mCurrent_init
    (.inr (ConstructContext.mEnd_init hfit ▸ hfin)), ?_, ?_⟩
  · have hhead : alignUp T.alignof.nat base.toNat = base.toNat :=
      alignUp_of_dvd (powersOfTwo.coe_pos _) (head_align_dvd hr hbase)
    change some (BitVec.ofNat 64 (alignUp T.alignof.nat base.toNat)) = some base
    rw [hhead, ← eq_ofNat]
  · rw [toNat_starts (by omega)]
    exact starts_laid.mono hfin

end Measures

/-- Every block that `alloc_raw` can return gives a valid layout. No assertion fires in either pass,
the head is at the base, and the requests are laid out in order within the block. -/
theorem layout_valid (cfg : Config) (T : HeadType cfg) (ts : List TypedRequest)
    (rep : Representable cfg ((headedBy T ts).map TypedRequest.block)) :
    ∃ mctx, MeasureContext.allocateAll cfg ((headedBy T ts).map TypedRequest.request)
        (.init cfg) = .ok mctx ∧
      ∀ base, allocRawAligned cfg mctx.requiredSize base = true →
        base.toNat + mctx.requiredSize.toNat < 2 ^ 64 →
        ∃ as cctx, ConstructContext.allocateAll cfg ((headedBy T ts).map TypedRequest.request)
            (.init base mctx.requiredSize) = .ok (as, cctx) ∧
          as.head? = some base ∧
          Laid base.toNat (base.toNat + mctx.requiredSize.toNat)
            ((headedBy T ts).map TypedRequest.block) (as.map BitVec.toNat) := by
  obtain ⟨mctx, measures⟩ := exists_measures rep
  exact ⟨mctx, measures.run, fun base => measures.exists_layout⟩

/-- Two bytes aligned to two, a head for blocks below `MAX_NEW_ALIGNMENT`. -/
def shortHead : HeadType debug16 where
  sizeof := 2
  alignof := ⟨2, by decide⟩
  hasVirtualDestructor := false
  isTriviallyDestructible := true
  sizeof_ne_zero := by decide
  sizeof_mod_alignof := by decide
  virtual_not_trivial := by decide
  alignof_le_max := by decide

/-- A block of six bytes at an address that is only a multiple of four. -/
theorem layout_valid_shortHead : ∃ as cctx, ConstructContext.allocateAll debug16
    ((headedBy shortHead [.array shortHead.toCxxType 2]).map TypedRequest.request)
      (.init 12 6) = .ok (as, cctx) ∧ as.head? = some 12 := by
  obtain ⟨mctx, hmctx, valid⟩ :=
    layout_valid debug16 shortHead [.array shortHead.toCxxType 2] (by decide)
  have hr : mctx = ⟨6, 16, 0⟩ := Except.ok.inj (hmctx.symm.trans rfl)
  subst hr
  obtain ⟨as, cctx, hcctx, hhead, -⟩ := valid 12 (by decide) (by decide)
  exact ⟨as, cctx, hcctx, hhead⟩

/-! ## Sums that wrap -/

/-- The exact extents of the requests lie in the block of `r` bytes at `base`. -/
def Inside (base r : SizeT) (ts : List TypedRequest) (as : List SizeT) : Prop :=
  List.Forall₂
    (fun t a => base.toNat ≤ a.toNat ∧ a.toNat + t.extent ≤ base.toNat + r.toNat) ts as

/-- If the extents at the reduced addresses are inside, the cursor has not left the block: it could
only pass `2 ^ 64` by rounding up to it, and then the next address would be zero. -/
lemma finish_le_of_inside {x : ℕ} (hne : base ≠ 0)
    (hfit : base.toNat + r.toNat < 2 ^ 64) (hx : x ≤ base.toNat + r.toNat)
    (inside : Inside base r ts ((starts x (ts.map TypedRequest.block)).map (BitVec.ofNat 64))) :
    finish x (ts.map TypedRequest.block) ≤ base.toNat + r.toNat := by
  induction ts generalizing x with
  | nil => exact hx
  | cons t ts ih =>
    cases inside with
    | cons ht inside =>
      obtain ⟨hlo, hhi⟩ := ht
      have hpos : 0 < base.toNat := toNat_pos hne
      have hle : alignUp t.block.align x ≤ 2 ^ 64 :=
        (alignUp_le_iff t.block.align_pos t.request.ALIGN.dvd_two_pow).2 (by omega)
      have hlt : alignUp t.block.align x < 2 ^ 64 := by
        refine lt_of_le_of_ne hle fun htop => ?_
        rw [htop] at hlo
        exact not_lt.2 hlo hpos
      rw [toNat_ofNat_of_lt hlt] at hhi
      exact ih hhi inside

/-- Both passes may complete although sums wrapped. The exact extents then still lie inside the block
if all sums of the measure pass are representable; since `operator new` does not return the null
address, only if they are. -/
theorem extents_inside_iff (cfg : Config) (ts : List TypedRequest) (mctx : MeasureContext)
    (base : SizeT) (as : List SizeT) (cctx : ConstructContext)
    (hmeasure : MeasureContext.allocateAll cfg (ts.map TypedRequest.request) (.init cfg) = .ok mctx)
    (hbase : cfg.maxNewAlignment.value.toNat ∣ base.toNat)
    (hfit : base.toNat + mctx.requiredSize.toNat < 2 ^ 64)
    (hconstruct : ConstructContext.allocateAll cfg (ts.map TypedRequest.request)
      (.init base mctx.requiredSize) = .ok (as, cctx)) :
    (Representable cfg (ts.map TypedRequest.block) → Inside base mctx.requiredSize ts as) ∧
      (base ≠ 0 → Inside base mctx.requiredSize ts as →
        Representable cfg (ts.map TypedRequest.block)) := by
  have den := TypedRequest.denotes_blocks ts
  have sim := MeasureContext.simulates_run den hmeasure
  obtain ⟨rfl, -⟩ := ConstructContext.allocateAll_ok den ConstructContext.mCurrent_init hconstruct
  refine ⟨fun rep => ?_, fun hne inside => ?_⟩
  · have hupper : finish base.toNat (ts.map TypedRequest.block) ≤
        base.toNat + mctx.requiredSize.toNat := by
      rw [sim.toNat_requiredSize, Nat.mod_eq_of_lt rep]
      exact (Estimate.tracks_run (M := cfg.maxNewAlignment.nat) hbase _).upper
    have laid : Laid base.toNat (base.toNat + mctx.requiredSize.toNat) (ts.map TypedRequest.block)
        (starts base.toNat (ts.map TypedRequest.block)) := starts_laid.mono hupper
    rw [← toNat_starts (by omega)] at laid
    exact List.forall₂_map_left_iff.1 (List.forall₂_map_right_iff.1 laid.within)
  · have hfin := finish_le_of_inside hne hfit (Nat.le_add_right _ _) inside
    exact representable_of_finish_le den sim hbase hfin

/-- Sixteen bytes aligned to sixteen. -/
def lineHead : HeadType debug16 where
  sizeof := 16
  alignof := align16
  hasVirtualDestructor := false
  isTriviallyDestructible := true
  sizeof_ne_zero := by decide
  sizeof_mod_alignof := by decide
  virtual_not_trivial := by decide
  alignof_le_max := by decide

/-- Three of them after a head, in a block at address 4096. -/
theorem extents_inside_iff_lineHead :
    Inside 4096 64 (headedBy lineHead [.array lineHead.toCxxType 3]) [4096, 4112] := by
  exact (extents_inside_iff debug16 (headedBy lineHead [.array lineHead.toCxxType 3]) ⟨64, 16, 0⟩ 4096
    [4096, 4112] ⟨4160, 4160⟩ rfl (by decide) (by decide) rfl).1 (by decide)

/-- The product `sizeof(T) * count` wraps to zero for `2 ^ 60` elements. Both passes complete, with a
block of 16 bytes in which the elements start at its end. -/
theorem extents_not_inside : ¬∀ (cfg : Config) (T : HeadType cfg) (ts : List TypedRequest)
    (mctx : MeasureContext) (base : SizeT) (as : List SizeT) (cctx : ConstructContext),
    MeasureContext.allocateAll cfg ((headedBy T ts).map TypedRequest.request) (.init cfg) = .ok mctx →
    cfg.maxNewAlignment.value.toNat ∣ base.toNat →
    base.toNat + mctx.requiredSize.toNat < 2 ^ 64 →
    ConstructContext.allocateAll cfg ((headedBy T ts).map TypedRequest.request)
      (.init base mctx.requiredSize) = .ok (as, cctx) →
    Inside base mctx.requiredSize (headedBy T ts) as := by
  intro hall
  have inside := hall debug16 lineHead [.array lineHead.toCxxType 1152921504606846976] ⟨16, 16, 0⟩ 4096
    [4096, 4112] ⟨4112, 4112⟩ rfl (by decide) (by decide) rfl
  cases inside with
  | cons _ inside =>
    cases inside with
    | cons h _ => exact absurd h.2 (by decide)

end Saco.Layout
