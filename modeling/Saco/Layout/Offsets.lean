import Mathlib.Data.BitVec
import Saco.Layout.Block

/-!
# Offsets

Where the requests lie relative to the base of their block. The offsets from two bases agree when the
bases are congruent modulo the largest requested alignment (`offsets_congr`). From a base that is a
multiple of it they are the offsets that the measure pass counts (`offsets_measured`), and when no
request is over-aligned that is every base that `alloc_raw` returns (`Measures.requestedAlignment_dvd`).
-/

namespace Saco.Layout
open Arith Bump

variable {cfg : Config} {qs : List Request} {bs : List (Block powersOfTwo)} {ts : List TypedRequest}

/-- The offsets that the measure pass counts: `m_offset` after each request, less the size. -/
def MeasureContext.offsets (cfg : Config) : List Request → MeasureContext → Except Abort (List SizeT)
  | [], _ => return []
  | q :: qs, ctx => do
    let (_, ctx) ← ctx.allocateSpace0 cfg q.ALIGN q.size
    let rest ← offsets cfg qs ctx
    return (ctx.mOffset - q.size) :: rest

/-- The largest alignment that is requested. -/
def requestedAlignment (qs : List Request) : ℕ :=
  (qs.map fun q => q.ALIGN.value.toNat).foldl max 1

/-- A pass that completes counted the offsets of a run from base zero. -/
lemma MeasureContext.Simulates.offsets {ctx ctx' : MeasureContext}
    {e : Estimate powersOfTwo cfg.maxNewAlignment.nat} (sim : ctx.Simulates e)
    (den : List.Forall₂ Request.Denotes qs bs) (h : MeasureContext.allocateAll cfg qs ctx = .ok ctx') :
    MeasureContext.offsets cfg qs ctx = .ok ((starts e.offset bs).map (BitVec.ofNat 64)) := by
  induction den generalizing ctx e with
  | nil => rfl
  | @cons q b qs bs dq _ ih =>
    rw [MeasureContext.allocateAll] at h
    cases hq : ctx.allocateSpace0 cfg q.ALIGN q.size with
    | error a => simp [hq, bind, Except.bind] at h
    | ok r =>
      rw [hq] at h
      have sim' := sim.of_allocateSpace0 rfl dq hq
      have hrest := ih sim' h
      have hoffset : r.2.mOffset - q.size = BitVec.ofNat 64 (alignUp b.align e.offset) := by
        rw [sim'.offset, Estimate.offset_advance, advance, dq.size, BitVec.ofNat_add,
          BitVec.add_sub_cancel]
      rw [Estimate.offset_advance] at hrest
      rw [MeasureContext.offsets, hq]
      simp only [bind, Except.bind, hrest, hoffset]
      rfl

/-! ## Alignments -/

/-- On a platform where every alignment above one is over-aligned, it is the free alignment. -/
lemma exists_free (qs : List Request) :
    ∃ M : powersOfTwo, ((Estimate.run M (qs.map Request.block)).free : ℕ) = requestedAlignment qs := by
  let cfg : Config := ⟨true, ⟨1, by decide⟩⟩
  have hfree : ((Estimate.run cfg.maxNewAlignment.nat (qs.map Request.block)).free : ℕ) =
      largestAlignment cfg qs := coe_free_run
  exact ⟨cfg.maxNewAlignment.nat, hfree⟩

/-- The requested alignment is a multiple of every alignment. -/
lemma align_dvd_requestedAlignment {q : Request} (hq : q ∈ qs) :
    q.ALIGN.value.toNat ∣ requestedAlignment qs := by
  obtain ⟨M, hfree⟩ := exists_free qs
  rw [← hfree]
  exact powersOfTwo.dvd (Estimate.align_le_free (List.mem_map_of_mem hq))

/-- The requested alignment is positive. -/
lemma requestedAlignment_pos : 0 < requestedAlignment qs := by
  obtain ⟨M, hfree⟩ := exists_free qs
  rw [← hfree]
  exact powersOfTwo.coe_pos _

/-- The requested alignment divides what all the alignments divide. -/
lemma requestedAlignment_dvd {n : ℕ} (h : ∀ q ∈ qs, q.ALIGN.value.toNat ∣ n) :
    requestedAlignment qs ∣ n := by
  induction qs using List.reverseRecOn with
  | nil => exact one_dvd n
  | append_singleton qs q ih =>
    have hrest := ih fun q' hq' => h q' (List.mem_append_left _ hq')
    rw [requestedAlignment] at hrest ⊢
    rw [List.map_append, List.map_singleton, List.foldl_concat]
    cases max_choice ((qs.map fun q => q.ALIGN.value.toNat).foldl max 1) q.ALIGN.value.toNat with
    | inl hmax => rwa [hmax]
    | inr hmax =>
      rw [hmax]
      exact h q (List.mem_append_right _ (List.mem_singleton_self q))

/-- A divisor of the base for every request. -/
lemma dvd_of_requestedAlignment {n : ℕ}
    (h : requestedAlignment (ts.map TypedRequest.request) ∣ n) {b : Block powersOfTwo}
    (hb : b ∈ ts.map TypedRequest.block) : (b.align : ℕ) ∣ n := by
  obtain ⟨t, ht, rfl⟩ := List.mem_map.1 hb
  exact (align_dvd_requestedAlignment (List.mem_map_of_mem ht)).trans h

/-! ## Bases -/

/-- Bases that are congruent modulo every alignment give the same offsets. -/
lemma offsets_starts {x y : ℕ} (h : ∀ b ∈ bs, x ≡ y [MOD b.align]) :
    (starts x bs).map (fun a => BitVec.ofNat 64 a - BitVec.ofNat 64 x) =
      (starts y bs).map fun a => BitVec.ofNat 64 a - BitVec.ofNat 64 y := by
  have hshift : ∀ c z : ℕ, (∀ b ∈ bs, (b.align : ℕ) ∣ c) →
      (starts (c + z) bs).map (fun a => BitVec.ofNat 64 a - BitVec.ofNat 64 (c + z)) =
        (starts z bs).map fun a => BitVec.ofNat 64 a - BitVec.ofNat 64 z := by
    intro c z hc
    rw [starts_add hc, List.map_map]
    refine List.map_congr_left fun a _ => ?_
    rw [Function.comp_apply, BitVec.ofNat_add, BitVec.ofNat_add, add_sub_add_left_eq_sub]
  cases Nat.le_total x y with
  | inl hle =>
    have hy := hshift (y - x) x fun b hb => (Nat.modEq_iff_dvd' hle).1 (h b hb)
    rw [Nat.sub_add_cancel hle] at hy
    exact hy.symm
  | inr hle =>
    have hx := hshift (x - y) y fun b hb => (Nat.modEq_iff_dvd' hle).1 (h b hb).symm
    rwa [Nat.sub_add_cancel hle] at hx

/-- The addresses that a construct pass returned, relative to its base. -/
lemma offsets_construct {base size : SizeT} {as : List SizeT} {cctx : ConstructContext}
    (h : ConstructContext.allocateAll cfg (ts.map TypedRequest.request) (.init base size) =
      .ok (as, cctx)) :
    as.map (· - base) = (starts base.toNat (ts.map TypedRequest.block)).map
      fun a => BitVec.ofNat 64 a - BitVec.ofNat 64 base.toNat := by
  obtain ⟨rfl, -⟩ := ConstructContext.allocateAll_ok (TypedRequest.denotes_blocks ts)
    ConstructContext.mCurrent_init h
  rw [List.map_map, ← eq_ofNat]
  rfl

/-- The same requests from two bases. -/
lemma offsets_congr {base base' size size' : SizeT} {as as' : List SizeT}
    {cctx cctx' : ConstructContext}
    (hmod : base.toNat ≡ base'.toNat [MOD requestedAlignment (ts.map TypedRequest.request)])
    (h : ConstructContext.allocateAll cfg (ts.map TypedRequest.request) (.init base size) =
      .ok (as, cctx))
    (h' : ConstructContext.allocateAll cfg (ts.map TypedRequest.request) (.init base' size') =
      .ok (as', cctx')) :
    as.map (· - base) = as'.map (· - base') := by
  rw [offsets_construct h, offsets_construct h']
  exact offsets_starts fun b hb => hmod.of_dvd (dvd_of_requestedAlignment dvd_rfl hb)

/-- From a base that is a multiple of the alignments, the offsets of the measure pass. -/
lemma offsets_measured {mctx : MeasureContext} {base size : SizeT} {as : List SizeT}
    {cctx : ConstructContext}
    (hmctx : MeasureContext.allocateAll cfg (ts.map TypedRequest.request) (.init cfg) = .ok mctx)
    (hdvd : requestedAlignment (ts.map TypedRequest.request) ∣ base.toNat)
    (h : ConstructContext.allocateAll cfg (ts.map TypedRequest.request) (.init base size) =
      .ok (as, cctx)) :
    MeasureContext.offsets cfg (ts.map TypedRequest.request) (.init cfg) =
      .ok (as.map (· - base)) := by
  have hzero : ∀ b ∈ ts.map TypedRequest.block, base.toNat ≡ 0 [MOD b.align] := fun b hb =>
    Nat.modEq_zero_iff_dvd.2 (dvd_of_requestedAlignment hdvd hb)
  rw [MeasureContext.simulates_init.offsets (TypedRequest.denotes_blocks ts) hmctx,
    offsets_construct h, offsets_starts hzero]
  refine congrArg Except.ok (List.map_congr_left fun a _ => ?_)
  exact (BitVec.sub_zero _).symm

/-- When no request is over-aligned, every base that `alloc_raw` returns is aligned for all of them. -/
lemma Measures.requestedAlignment_dvd {T : HeadType cfg} {mctx : MeasureContext} {base : SizeT}
    (measures : Measures T ts mctx)
    (hmax : requestedAlignment ((headedBy T ts).map TypedRequest.request) ≤
      cfg.maxNewAlignment.value.toNat)
    (hbase : allocRawAligned cfg mctx.requiredSize base = true) :
    requestedAlignment ((headedBy T ts).map TypedRequest.request) ∣ base.toNat := by
  refine Layout.requestedAlignment_dvd fun q hq => ?_
  obtain ⟨t, ht, rfl⟩ := List.mem_map.1 hq
  by_cases hsmall : cfg.maxNewAlignment.value ≤ mctx.requiredSize
  · have hle : t.request.ALIGN.value.toNat ≤ cfg.maxNewAlignment.value.toNat :=
      (Nat.le_of_dvd requestedAlignment_pos (align_dvd_requestedAlignment hq)).trans hmax
    exact allocRawAligned_dvd hbase hle (BitVec.le_trans (BitVec.le_def.2 hle) hsmall)
  · exact align_dvd_of_small (TypedRequest.denotes_blocks (headedBy T ts)) measures.requiredSize
      hbase hsmall (List.mem_map_of_mem (f := TypedRequest.block) ht)

end Saco.Layout
