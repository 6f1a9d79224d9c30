import Saco.Layout.Context

/-!
# The contexts simulate bump allocation

Both contexts compute, modulo `2 ^ 64`, what `Saco/Bump` computes in exact arithmetic: the measure pass
is an `Estimate` (`MeasureContext.Simulates`), the construct pass is a cursor
(`ConstructContext.allocateAll_ok`). The simulation needs no bound on the sizes, because every alignment
divides `2 ^ 64`. Bounds only enter where a theorem reads the reduced numbers back.

A request denotes a block whose size may be any number that reduces to the requested one; for a typed
request this is the extent that the caller is going to use.
-/

namespace Saco.Layout
open Arith Bump

/-- A request on machine words stands for a block in exact arithmetic. -/
structure Request.Denotes (q : Request) (b : Block powersOfTwo) : Prop where
  align : b.align = q.ALIGN.nat
  size : q.size = BitVec.ofNat 64 b.size

/-- The block of a request, its size taken as it is. -/
def Request.block (q : Request) : Block powersOfTwo := ⟨q.ALIGN.nat, q.size.toNat⟩

/-- The block of a typed request, with the exact product of `sizeof` and `count`. -/
def TypedRequest.block (t : TypedRequest) : Block powersOfTwo := ⟨t.request.ALIGN.nat, t.extent⟩

/-- A request denotes its block. -/
lemma Request.denotes_block (q : Request) : q.Denotes q.block :=
  ⟨rfl, eq_ofNat q.size⟩

/-- The words of a typed request denote its exact block, though the product may wrap. -/
lemma TypedRequest.denotes_block (t : TypedRequest) : t.request.Denotes t.block := by
  refine ⟨rfl, ?_⟩
  cases t with
  | object T => exact eq_ofNat T.sizeof
  | array T count =>
    rw [block, extent, request, BitVec.ofNat_mul]
    simp

/-- Requests denote their blocks one by one. -/
lemma Request.denotes_blocks (qs : List Request) :
    List.Forall₂ Request.Denotes qs (qs.map Request.block) :=
  List.forall₂_map_right_iff.2 (List.forall₂_same.2 fun q _ => q.denotes_block)

/-- Typed requests denote their exact blocks one by one. -/
lemma TypedRequest.denotes_blocks (ts : List TypedRequest) :
    List.Forall₂ Request.Denotes (ts.map TypedRequest.request) (ts.map TypedRequest.block) :=
  List.forall₂_map_left_iff.2
    (List.forall₂_map_right_iff.2 (List.forall₂_same.2 fun t _ => t.denotes_block))

variable {cfg : Config} {q : Request} {b : Block powersOfTwo} {n : ℕ}

/-- `align` is the exact rounding modulo `2 ^ 64`. -/
lemma align_ofNat {ALIGN : Alignment} :
    align ALIGN (BitVec.ofNat 64 n) = BitVec.ofNat 64 (alignUp ALIGN.nat n) :=
  mask_alignUp ALIGN.nat.2 n

/-- `align_and_add` is one step of the cursor modulo `2 ^ 64`. -/
lemma alignAndAdd_ofNat (den : q.Denotes b) :
    alignAndAdd q.ALIGN (BitVec.ofNat 64 n) q.size =
      (BitVec.ofNat 64 (alignUp b.align n), BitVec.ofNat 64 (advance n b)) := by
  rw [alignAndAdd, align_ofNat, advance, den.align, den.size, BitVec.ofNat_add]

/-! ## The measure pass -/

namespace MeasureContext

variable {M : powersOfTwo} {ctx ctx' : MeasureContext} {e : Estimate powersOfTwo M}

/-- The machine state is the estimate modulo `2 ^ 64`. -/
structure Simulates (ctx : MeasureContext) (e : Estimate powersOfTwo M) : Prop where
  offset : ctx.mOffset = BitVec.ofNat 64 e.offset
  free : ctx.mFreeAlignment.toNat = e.free
  extra : ctx.mExtraPadding = BitVec.ofNat 64 e.extra

/-- Before the first request. -/
lemma simulates_init : (init cfg).Simulates (Estimate.init (M := cfg.maxNewAlignment.nat)) :=
  ⟨rfl, rfl, rfl⟩

/-- `required_size` is the size of the estimate modulo `2 ^ 64`. -/
lemma Simulates.requiredSize (sim : ctx.Simulates e) :
    ctx.requiredSize = BitVec.ofNat 64 e.size := by
  rw [MeasureContext.requiredSize, sim.offset, sim.extra, ← BitVec.ofNat_add, Estimate.size]

/-- The returned size is that of the estimate, modulo the size of a word. -/
lemma Simulates.toNat_requiredSize (sim : ctx.Simulates e) :
    ctx.requiredSize.toNat = e.size % 2 ^ 64 := by
  rw [sim.requiredSize, BitVec.toNat_ofNat]

/-- A request that is not over-aligned. -/
lemma Simulates.moveOffset (sim : ctx.Simulates e) (den : q.Denotes b) (h : b.align ≤ e.free) :
    { ctx with mOffset := (alignAndAdd q.ALIGN ctx.mOffset q.size).2 : MeasureContext }.Simulates
      (e.advance b) := by
  rw [Estimate.advance_of_le h]
  refine ⟨?_, sim.free, sim.extra⟩
  rw [sim.offset, alignAndAdd_ofNat den]

/-- The old offset of an over-aligned request. -/
lemma Simulates.oldOffset (sim : ctx.Simulates e) :
    ctx.oldOffset = BitVec.ofNat 64 (alignUp e.free e.offset) := by
  have hfree : ctx.mFreeAlignment.toNat.isPowerOfTwo := sim.free ▸ e.free.2
  rw [MeasureContext.oldOffset, sim.offset, mask_alignUp hfree, sim.free]

/-- The padding of an over-aligned request. -/
lemma Simulates.padding {ALIGN : Alignment} (sim : ctx.Simulates e) :
    ctx.padding ALIGN = BitVec.ofNat 64
      (alignUp ALIGN.nat (alignUp e.free e.offset) - alignUp e.free e.offset) := by
  rw [MeasureContext.padding, sim.oldOffset, align_ofNat, ofNat_sub]
  exact le_alignUp (powersOfTwo.coe_pos _)

/-- For a request that raises the alignment, `ALIGN - padding - m_free_alignment` stays positive or
zero. -/
lemma Simulates.padding_add_free_le {ALIGN : Alignment} (sim : ctx.Simulates e)
    (h : ctx.mFreeAlignment < ALIGN.value) :
    (ctx.padding ALIGN).toNat + ctx.mFreeAlignment.toNat ≤ ALIGN.value.toNat := by
  rw [BitVec.lt_def, sim.free] at h
  have hpad := e.padding_add_free_le (a := ALIGN.nat) h.le
  have hword := ALIGN.value.isLt
  rw [Alignment.coe_nat] at hpad
  rw [sim.padding, sim.free, toNat_ofNat_of_lt]
  · exact hpad
  · rw [Alignment.coe_nat]
    omega

/-- `allocate_over_aligned`, once its assertion has passed. -/
lemma Simulates.allocateOverAligned (cfg : Config) (sim : ctx.Simulates e) (den : q.Denotes b)
    (hok : cfg.ndebug = true ∨ ctx.mOffset ≠ 0) (h : e.free < b.align) :
    ∃ ctx', ctx.allocateOverAligned cfg q.ALIGN q.size = .ok ctx' ∧ ctx'.Simulates (e.advance b) := by
  have hpad := e.padding_add_free_le h.le
  have hA : q.ALIGN.value = BitVec.ofNat 64 b.align := by
    rw [den.align, Alignment.coe_nat, ← eq_ofNat]
  have hF : ctx.mFreeAlignment = BitVec.ofNat 64 e.free := by
    rw [← sim.free, ← eq_ofNat]
  rw [MeasureContext.allocateOverAligned, sacoAssert_ok (by simpa using hok)]
  refine ⟨_, rfl, ?_⟩
  rw [sim.oldOffset, align_ofNat, sim.padding, sim.extra, ← den.align, den.size]
  refine ⟨?_, ?_, ?_⟩
  · rw [Estimate.offset_advance, ← BitVec.ofNat_add, advance,
      alignUp_alignUp (powersOfTwo.coe_pos _) b.align_pos (powersOfTwo.dvd h.le)]
  · rw [Estimate.free_advance, max_eq_right h.le, den.align, Alignment.coe_nat]
  · -- no subtraction wraps, by the bound on the padding
    dsimp only
    rw [Estimate.extra_advance_of_lt h, hA, ofNat_sub (by omega), hF, ofNat_sub (by omega),
      BitVec.ofNat_add]

/-- One request is answered as the estimate answers it, unless the assertion fires. -/
lemma Simulates.allocateSpace0 (hM : M = cfg.maxNewAlignment.nat) (sim : ctx.Simulates e)
    (den : q.Denotes b) (hok : cfg.ndebug = true ∨ ctx.mOffset ≠ 0 ∨ b.align ≤ e.free) :
    ∃ ctx', ctx.allocateSpace0 cfg q.ALIGN q.size = .ok (0, ctx') ∧ ctx'.Simulates (e.advance b) := by
  have hle : q.ALIGN.value ≤ cfg.maxNewAlignment.value → b.align ≤ e.free := fun h =>
    (den.align ▸ hM ▸ Alignment.le_iff.1 h : b.align ≤ M).trans e.le_free
  have hle1 : q.ALIGN.value ≤ ctx.mFreeAlignment ↔ b.align ≤ e.free := by
    rw [BitVec.le_def, sim.free, den.align]
    rfl
  rw [MeasureContext.allocateSpace0]
  split
  case isTrue h => exact ⟨_, rfl, sim.moveOffset den (hle h)⟩
  case isFalse =>
    rw [allocateSpace1]
    split
    case isTrue h => exact ⟨_, rfl, sim.moveOffset den (hle1.1 h)⟩
    case isFalse h =>
      rw [hle1] at h
      obtain ⟨ctx', hctx', sim'⟩ :=
        sim.allocateOverAligned cfg den (by tauto) (not_le.1 h)
      rw [hctx']
      exact ⟨ctx', rfl, sim'⟩

/-- A request that was answered. -/
lemma Simulates.of_allocateSpace0 {p : SizeT} (hM : M = cfg.maxNewAlignment.nat)
    (sim : ctx.Simulates e) (den : q.Denotes b)
    (h : ctx.allocateSpace0 cfg q.ALIGN q.size = .ok (p, ctx')) : ctx'.Simulates (e.advance b) := by
  have hok : cfg.ndebug = true ∨ ctx.mOffset ≠ 0 ∨ b.align ≤ e.free := by
    by_contra hno
    obtain ⟨hdebug, hzero, hfree⟩ : cfg.ndebug ≠ true ∧ ctx.mOffset = 0 ∧ e.free < b.align := by
      simpa using hno
    have hmax : ¬q.ALIGN.value ≤ cfg.maxNewAlignment.value := fun hle =>
      not_lt.2 (e.le_free.trans' (den.align ▸ hM ▸ Alignment.le_iff.1 hle)) hfree
    have hgt : ¬q.ALIGN.value ≤ ctx.mFreeAlignment := by
      rw [BitVec.le_def, sim.free, not_le]
      exact (den.align ▸ hfree : e.free < q.ALIGN.nat)
    rw [MeasureContext.allocateSpace0, if_neg hmax, allocateSpace1, if_neg hgt,
      MeasureContext.allocateOverAligned, hzero, sacoAssert] at h
    simp [hdebug, bind, Except.bind] at h
  obtain ⟨ctx'', h'', sim'⟩ := sim.allocateSpace0 hM den hok
  cases h.symm.trans h''
  exact sim'

variable {qs : List Request} {bs : List (Block powersOfTwo)}

/-- Requests that were all answered. -/
lemma Simulates.of_allocateAll (hM : M = cfg.maxNewAlignment.nat) (sim : ctx.Simulates e)
    (den : List.Forall₂ Request.Denotes qs bs) (h : allocateAll cfg qs ctx = .ok ctx') :
    ctx'.Simulates (bs.foldl Estimate.advance e) := by
  induction den generalizing ctx e with
  | nil =>
    cases h
    exact sim
  | @cons q b qs bs dq _ ih =>
    rw [MeasureContext.allocateAll] at h
    cases hq : ctx.allocateSpace0 cfg q.ALIGN q.size with
    | error a => simp [hq, bind, Except.bind] at h
    | ok r =>
      rw [hq] at h
      exact ih (sim.of_allocateSpace0 hM dq hq) h

/-- Once the offset is positive, no assertion fires as long as the offset does not wrap. -/
lemma Simulates.allocateAll (hM : M = cfg.maxNewAlignment.nat) (sim : ctx.Simulates e)
    (den : List.Forall₂ Request.Denotes qs bs)
    (hok : cfg.ndebug = true ∨ 0 < e.offset ∧ finish e.offset bs < 2 ^ 64) :
    ∃ ctx', allocateAll cfg qs ctx = .ok ctx' := by
  induction den generalizing ctx e with
  | nil => exact ⟨ctx, rfl⟩
  | @cons q b qs bs dq _ ih =>
    rw [finish_cons] at hok
    have hle := le_finish (advance e.offset b) bs
    have hadv := le_advance e.offset b
    have hne : 0 < e.offset ∧ finish (advance e.offset b) bs < 2 ^ 64 → ctx.mOffset ≠ 0 := by
      rintro ⟨hpos, hlt⟩ h0
      rw [sim.offset, ← BitVec.toNat_inj, toNat_ofNat_of_lt (by omega)] at h0
      exact hpos.ne' h0
    obtain ⟨ctx', hctx', sim'⟩ := sim.allocateSpace0 hM dq (hok.imp_right fun h => .inl (hne h))
    rw [MeasureContext.allocateAll, hctx']
    refine ih sim' ?_
    rw [Estimate.offset_advance]
    exact hok.imp_right fun h => ⟨by omega, h.2⟩

/-- A measure pass that completed. -/
lemma simulates_run (den : List.Forall₂ Request.Denotes qs bs)
    (h : allocateAll cfg qs (init cfg) = .ok ctx) :
    ctx.Simulates (Estimate.run cfg.maxNewAlignment.nat bs) :=
  simulates_init.of_allocateAll rfl den h

end MeasureContext

/-- All sums of the measure pass over `bs` stay below `2 ^ 64`. -/
def Representable (cfg : Config) (bs : List (Block powersOfTwo)) : Prop :=
  (Estimate.run cfg.maxNewAlignment.nat bs).size < 2 ^ 64

instance {cfg : Config} {bs : List (Block powersOfTwo)} : Decidable (Representable cfg bs) :=
  inferInstanceAs (Decidable (_ < _))

/-- The first block is not empty and not over-aligned. -/
def Headed (cfg : Config) : List (Block powersOfTwo) → Prop
  | [] => False
  | b :: _ => 0 < b.size ∧ b.align ≤ cfg.maxNewAlignment.nat

/-- Sums that fit to the end also fit in between. -/
lemma Representable.of_append {bs bs' : List (Block powersOfTwo)}
    (rep : Representable cfg (bs ++ bs')) : Representable cfg bs := by
  refine Nat.lt_of_le_of_lt ?_ rep
  rw [Estimate.run, Estimate.run, List.foldl_append]
  exact Estimate.size_le_foldl

/-- The end of a run from base zero is part of what the measure pass adds up. -/
lemma Representable.finish_lt {bs : List (Block powersOfTwo)} (rep : Representable cfg bs) :
    finish 0 bs < 2 ^ 64 := by
  rw [Representable, Estimate.size, Estimate.offset_run] at rep
  omega

namespace MeasureContext

variable {qs : List Request} {bs : List (Block powersOfTwo)}

/-- The measure pass never fires its assertion when the head is as `build_unique` guarantees. -/
lemma exists_run (den : List.Forall₂ Request.Denotes qs bs) (head : Headed cfg bs)
    (rep : Representable cfg bs) : ∃ ctx, allocateAll cfg qs (init cfg) = .ok ctx ∧
      ctx.Simulates (Estimate.run cfg.maxNewAlignment.nat bs) := by
  cases den with
  | nil => exact head.elim
  | @cons q b qs bs dq den =>
    obtain ⟨ctx₁, h₁, sim₁⟩ := simulates_init.allocateSpace0 rfl dq (.inr (.inr head.2))
    have hpos : 0 < ((Estimate.init (M := cfg.maxNewAlignment.nat)).advance b).offset := by
      have hle := le_advance 0 b
      have hsize := head.1
      rw [Estimate.offset_advance]
      exact Nat.lt_of_lt_of_le (by omega) hle
    have hrun : allocateAll cfg (q :: qs) (init cfg) = allocateAll cfg qs ctx₁ := by
      rw [allocateAll, h₁]
      rfl
    have hfit : finish ((Estimate.init (M := cfg.maxNewAlignment.nat)).advance b).offset bs < 2 ^ 64 := by
      rw [Estimate.offset_advance]
      exact rep.finish_lt
    obtain ⟨ctx, hctx⟩ := sim₁.allocateAll rfl den (.inr ⟨hpos, hfit⟩)
    rw [← hrun] at hctx
    exact ⟨ctx, hctx, simulates_run (.cons dq den) hctx⟩

end MeasureContext

/-! ## The construct pass -/

namespace ConstructContext

variable {ctx ctx' : ConstructContext} {qs : List Request} {bs : List (Block powersOfTwo)}
  {as : List SizeT} {x : ℕ}

/-- A construct pass starts at the block. -/
lemma mCurrent_init {mem size : SizeT} : (init mem size).mCurrent = BitVec.ofNat 64 mem.toNat :=
  eq_ofNat mem

/-- The end of a block that does not wrap. -/
lemma mEnd_init {mem size : SizeT} (hfit : mem.toNat + size.toNat < 2 ^ 64) :
    (init mem size).mEnd.toNat = mem.toNat + size.toNat := by
  rw [init, BitVec.toNat_add, Nat.mod_eq_of_lt hfit]

/-- One request is one step of the cursor, unless the assertion fires. -/
lemma allocateSpace0_eq (den : q.Denotes b) (hx : ctx.mCurrent = BitVec.ofNat 64 x) :
    ctx.allocateSpace0 cfg q.ALIGN q.size =
      (sacoAssert cfg "m_current <= m_end" (BitVec.ofNat 64 (advance x b) ≤ ctx.mEnd)).map
        fun _ => (BitVec.ofNat 64 (alignUp b.align x),
          { ctx with mCurrent := BitVec.ofNat 64 (advance x b) }) := by
  rw [allocateSpace0, hx, alignAndAdd_ofNat den]
  rfl

/-- A pass over requests that was answered placed their blocks where the cursor does. -/
lemma allocateAll_ok (den : List.Forall₂ Request.Denotes qs bs)
    (hx : ctx.mCurrent = BitVec.ofNat 64 x) (h : allocateAll cfg qs ctx = .ok (as, ctx')) :
    as = (starts x bs).map (BitVec.ofNat 64) ∧
      ctx' = { ctx with mCurrent := BitVec.ofNat 64 (finish x bs) } := by
  induction den generalizing ctx ctx' x as with
  | nil =>
    cases h
    exact ⟨rfl, by rw [finish_nil, ← hx]⟩
  | @cons q b qs bs dq _ ih =>
    rw [allocateAll, allocateSpace0_eq dq hx] at h
    cases hassert : sacoAssert cfg "m_current <= m_end"
        (BitVec.ofNat 64 (advance x b) ≤ ctx.mEnd) with
    | error a => simp [hassert, bind, Except.bind, Except.map] at h
    | ok u =>
      rw [hassert] at h
      cases hrest : allocateAll cfg qs { ctx with mCurrent := BitVec.ofNat 64 (advance x b) } with
      | error a => simp [hrest, bind, Except.bind, Except.map] at h
      | ok r =>
        obtain ⟨as', ctx''⟩ := r
        obtain ⟨rfl, rfl⟩ := ih rfl hrest
        simp only [Except.map, bind, Except.bind, hrest, pure, Except.pure, Except.ok.injEq,
          Prod.mk.injEq] at h
        obtain ⟨rfl, rfl⟩ := h
        exact ⟨rfl, rfl⟩

/-- No assertion fires when assertions are compiled out or the cursor ends in the block. -/
lemma exists_allocateAll (den : List.Forall₂ Request.Denotes qs bs)
    (hx : ctx.mCurrent = BitVec.ofNat 64 x)
    (hok : cfg.ndebug = true ∨ finish x bs ≤ ctx.mEnd.toNat) :
    ∃ r, allocateAll cfg qs ctx = .ok r := by
  induction den generalizing ctx x with
  | nil => exact ⟨_, rfl⟩
  | @cons q b qs bs dq _ ih =>
    rw [finish_cons] at hok
    have hassert : cfg.ndebug = true ∨
        decide (BitVec.ofNat 64 (advance x b) ≤ ctx.mEnd) = true := by
      refine hok.imp_right fun hle => ?_
      have hadv := le_finish (advance x b) bs
      have hend := ctx.mEnd.isLt
      rw [decide_eq_true_eq, BitVec.le_def, toNat_ofNat_of_lt (by omega)]
      omega
    obtain ⟨r, hr⟩ : ∃ r, allocateAll cfg qs
        { ctx with mCurrent := BitVec.ofNat 64 (advance x b) } = .ok r := ih rfl hok
    rw [allocateAll, allocateSpace0_eq dq hx, sacoAssert_ok hassert]
    simp only [Except.map, bind, Except.bind, hr]
    exact ⟨_, rfl⟩

/-- Where no single step can wrap from inside the block, the assertion keeps the cursor in the block. -/
lemma finish_le_of_allocateAll (den : List.Forall₂ Request.Denotes qs bs) (hdebug : cfg.ndebug = false)
    (hx : ctx.mCurrent = BitVec.ofNat 64 x) (hle : x ≤ ctx.mEnd.toNat)
    (hroom : ∀ b ∈ bs, ctx.mEnd.toNat + b.align + b.size ≤ 2 ^ 64)
    (h : allocateAll cfg qs ctx = .ok (as, ctx')) : finish x bs ≤ ctx.mEnd.toNat := by
  induction den generalizing ctx ctx' x as with
  | nil => exact hle
  | @cons q b qs bs dq _ ih =>
    obtain ⟨hb, hbs⟩ := List.forall_mem_cons.1 hroom
    rw [allocateAll, allocateSpace0_eq dq hx] at h
    rcases sacoAssert_cases cfg "m_current <= m_end"
      (BitVec.ofNat 64 (advance x b) ≤ ctx.mEnd) with ⟨hok, hholds⟩ | herror
    · rw [hok] at h
      have hlt : advance x b < 2 ^ 64 := by
        have hup := alignUp_lt b.align_pos (x := x)
        rw [advance]
        omega
      have hnext : advance x b ≤ ctx.mEnd.toNat := by
        have hholds := hholds.resolve_left (by rw [hdebug]; exact Bool.false_ne_true)
        rwa [decide_eq_true_eq, BitVec.le_def, toNat_ofNat_of_lt hlt] at hholds
      cases hrest : allocateAll cfg qs { ctx with mCurrent := BitVec.ofNat 64 (advance x b) } with
      | error e => simp [hrest, bind, Except.bind, Except.map] at h
      | ok r =>
        have hfin : finish (advance x b) bs ≤
            ({ ctx with mCurrent := BitVec.ofNat 64 (advance x b) } : ConstructContext).mEnd.toNat :=
          ih rfl hnext hbs hrest
        exact hfin
    · simp [herror, bind, Except.bind, Except.map] at h

/-- A pass that no assertion stops returns the addresses and the end of the cursor. -/
lemma allocateAll_eq (den : List.Forall₂ Request.Denotes qs bs)
    (hx : ctx.mCurrent = BitVec.ofNat 64 x)
    (hok : cfg.ndebug = true ∨ finish x bs ≤ ctx.mEnd.toNat) :
    allocateAll cfg qs ctx = .ok ((starts x bs).map (BitVec.ofNat 64),
      { ctx with mCurrent := BitVec.ofNat 64 (finish x bs) }) := by
  obtain ⟨⟨as, ctx'⟩, h⟩ := exists_allocateAll den hx hok
  obtain ⟨rfl, rfl⟩ := allocateAll_ok den hx h
  exact h

end ConstructContext

end Saco.Layout
