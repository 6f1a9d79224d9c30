import Saco.Layout.Align
import Saco.Layout.RequiredSize

/-!
# The reference of the tests

`check_sequence` of `test/test_mctx.cpp` compares `required_size` with two maxima over all bases below a
largest alignment: of what a division-based reference consumes, and of what `construct_context` consumes
in a block of static memory. `checkSequence_passes`: both comparisons hold for every sequence, not only for
those that the tests list, and no requirement fails on the way.

A `REQUIRE` that fails ends the test with an exception.
-/

namespace Saco.Layout
open Arith Bump

/-- `reference_align_and_add`: the new value of `ref_offset`. -/
def referenceAlignAndAdd (ALIGN : Alignment) (refOffset size : SizeT) : Except Abort SizeT := do
  let o := referenceAlign ALIGN.value refOffset
  require "o >= ref_offset" (refOffset ≤ o)
  require "o % ALIGN == 0" (o % ALIGN.value == 0)
  return o + size

/-- `ref_size_op::alloc<T>()` and `ref_size_op::alloc<T>(count)`. -/
def refSizeOp (address : SizeT) : TypedRequest → Except Abort SizeT
  | .object T => referenceAlignAndAdd T.alignof address (T.sizeof * 1)
  | .array T count => referenceAlignAndAdd T.alignof address (T.sizeof * count)

/-- `ref_size_at`. -/
def refSizeAt (sequence : List TypedRequest) (startAddress : SizeT) : Except Abort SizeT := do
  let address ← sequence.foldlM refSizeOp startAddress
  require "address - start_address <= std::numeric_limits<std::size_t>::max()"
    (address - startAddress ≤ BitVec.allOnes 64)
  return address - startAddress

/-- The loop of `ref_size` and of `cctx_size`, over the bases that are multiples of
`MAX_NEW_ALIGNMENT`. -/
def maxSizeAt (cfg : Config) (maxAlign : SizeT) (sizeAt : SizeT → Except Abort SizeT) :
    (fuel : ℕ) → (offset maxSize : SizeT) → Except Abort SizeT
  | 0, _, maxSize => return maxSize
  | fuel + 1, offset, maxSize => do
    if offset ≤ maxAlign then
      let size ← sizeAt offset
      maxSizeAt cfg maxAlign sizeAt fuel (offset + cfg.maxNewAlignment.value)
        (if maxSize < size then size else maxSize)
    else
      return maxSize

/-- `ref_size`. -/
def refSize (cfg : Config) (sequence : List TypedRequest) (maxAlign : SizeT) : Except Abort SizeT :=
  maxSizeAt cfg maxAlign (fun offset => refSizeAt sequence (offset + maxAlign)) (maxAlign.toNat + 1) 0 0

/-- `measured_size`. -/
def measuredSize (cfg : Config) (sequence : List TypedRequest) : Except Abort SizeT := do
  let mctx ← MeasureContext.allocateAll cfg (sequence.map TypedRequest.request) (.init cfg)
  return mctx.requiredSize

/-- `current`. -/
def ConstructContext.current (ctx : ConstructContext) : SizeT := ctx.mCurrent

/-- `sizeof(memory)`. -/
def sizeofMemory : SizeT := 1024 * 1024

/-- `cctx_size_at`, for static memory at the address `memory`. -/
def cctxSizeAt (cfg : Config) (memory : SizeT) (sequence : List TypedRequest) (startOffset : SizeT) :
    Except Abort SizeT := do
  require "start_offset < sizeof(memory) / 2" (startOffset < sizeofMemory / 2)
  let (_, cctx) ← ConstructContext.allocateAll cfg (sequence.map TypedRequest.request)
    (.init (memory + startOffset) (sizeofMemory - startOffset))
  return cctx.current - (memory + startOffset)

/-- `cctx_size`. -/
def cctxSize (cfg : Config) (memory : SizeT) (sequence : List TypedRequest) (maxAlign : SizeT) :
    Except Abort SizeT :=
  maxSizeAt cfg maxAlign (cctxSizeAt cfg memory sequence) (maxAlign.toNat + 1) 0 0

/-- `check_sequence`: whether the two checks hold. -/
def checkSequence (cfg : Config) (memory maxAlign : SizeT) (sequence : List TypedRequest) :
    Except Abort (Bool × Bool) := do
  let ref ← refSize cfg sequence maxAlign
  let measured ← measuredSize cfg sequence
  let required ← cctxSize cfg memory sequence maxAlign
  return (measured == ref, required == ref)

/-! ## The loop -/

variable {cfg : Config} {maxAlign r : SizeT} {sizeAt : SizeT → Except Abort SizeT}

/-- The loop has reached the base `o`: what is still to come does not exceed `r`, and `r` has been found or
is still to come. -/
structure Reaches (cfg : Config) (maxAlign : SizeT) (sizeAt : SizeT → Except Abort SizeT)
    (r : SizeT) (o : ℕ) (maxSize : SizeT) : Prop where
  base : cfg.maxNewAlignment.value.toNat ∣ o
  le : ∀ d, cfg.maxNewAlignment.value.toNat ∣ d → o ≤ d → d ≤ maxAlign.toNat →
    ∃ n ≤ r, sizeAt (BitVec.ofNat 64 d) = .ok n
  found_le : maxSize ≤ r
  found : maxSize = r ∨ ∃ d, cfg.maxNewAlignment.value.toNat ∣ d ∧ o ≤ d ∧ d ≤ maxAlign.toNat ∧
    sizeAt (BitVec.ofNat 64 d) = .ok r

/-- One round of the loop. -/
lemma Reaches.step {o : ℕ} {maxSize : SizeT} (h : Reaches cfg maxAlign sizeAt r o maxSize)
    (ho : o ≤ maxAlign.toNat) : ∃ n, sizeAt (BitVec.ofNat 64 o) = .ok n ∧
      Reaches cfg maxAlign sizeAt r (o + cfg.maxNewAlignment.value.toNat)
        (if maxSize < n then n else maxSize) := by
  obtain ⟨n, hn, hsize⟩ := h.le o h.base le_rfl ho
  have hpos := cfg.maxNewAlignment.toNat_pos
  refine ⟨n, hsize, Nat.dvd_add h.base dvd_rfl, fun d hd hle => h.le d hd (by omega), ?_, ?_⟩
  · split
    case isTrue => exact hn
    case isFalse => exact h.found_le
  · rcases h.found with rfl | ⟨d, hd, hle, hmax, hfound⟩
    · exact .inl (if_neg (BitVec.not_lt.2 hn))
    · cases Nat.lt_or_eq_of_le hle with
      -- the maximum is at a later base, at least one step of the loop away
      | inl hlt => exact .inr ⟨d, hd, add_le_of_lt_of_dvd h.base hd hlt, hmax, hfound⟩
      | inr heq =>
        subst heq
        obtain rfl : n = r := Except.ok.inj (hsize.symm.trans hfound)
        refine .inl ?_
        split
        case isTrue => rfl
        case isFalse hnot => exact BitVec.le_antisymm h.found_le (BitVec.not_lt.1 hnot)

/-- Behind the last base the maximum has been found. -/
lemma Reaches.done {o : ℕ} {maxSize : SizeT} (h : Reaches cfg maxAlign sizeAt r o maxSize)
    (ho : maxAlign.toNat < o) : maxSize = r := by
  rcases h.found with heq | ⟨d, -, hle, hmax, -⟩
  · exact heq
  · omega

/-- The loop ends with the maximum. -/
lemma Reaches.run {fuel o : ℕ} {maxSize : SizeT} (h : Reaches cfg maxAlign sizeAt r o maxSize)
    (hfit : maxAlign.toNat + cfg.maxNewAlignment.value.toNat < 2 ^ 64)
    (ho : o ≤ maxAlign.toNat + cfg.maxNewAlignment.value.toNat)
    (hfuel : maxAlign.toNat < fuel + o) :
    maxSizeAt cfg maxAlign sizeAt fuel (BitVec.ofNat 64 o) maxSize = .ok r := by
  induction fuel generalizing o maxSize with
  | zero =>
    rw [maxSizeAt, h.done (by omega)]
    rfl
  | succ fuel ih =>
    have hoffset : (BitVec.ofNat 64 o).toNat = o := toNat_ofNat_of_lt (by omega)
    rw [maxSizeAt]
    by_cases hle : o ≤ maxAlign.toNat
    · obtain ⟨n, hsize, hnext⟩ := h.step hle
      have hadd : BitVec.ofNat 64 o + cfg.maxNewAlignment.value =
          BitVec.ofNat 64 (o + cfg.maxNewAlignment.value.toNat) := by
        rw [BitVec.ofNat_add, ← eq_ofNat]
      have hpos := cfg.maxNewAlignment.toNat_pos
      rw [if_pos (BitVec.le_def.2 (hoffset.symm ▸ hle)), hsize, hadd]
      exact ih hnext (by omega) (by omega)
    · rw [if_neg (fun h => hle (hoffset ▸ BitVec.le_def.1 h)), h.done (not_le.1 hle)]
      rfl

/-- A function whose maximum over the bases is `r`. -/
lemma maxSizeAt_eq (hfit : maxAlign.toNat + cfg.maxNewAlignment.value.toNat < 2 ^ 64)
    (hle : ∀ d, cfg.maxNewAlignment.value.toNat ∣ d → d ≤ maxAlign.toNat →
      ∃ n ≤ r, sizeAt (BitVec.ofNat 64 d) = .ok n)
    (hex : ∃ d, cfg.maxNewAlignment.value.toNat ∣ d ∧ d ≤ maxAlign.toNat ∧
      sizeAt (BitVec.ofNat 64 d) = .ok r) :
    maxSizeAt cfg maxAlign sizeAt (maxAlign.toNat + 1) 0 0 = .ok r := by
  obtain ⟨d, hd, hmax, hfound⟩ := hex
  have hreaches : Reaches cfg maxAlign sizeAt r 0 0 :=
    ⟨dvd_zero _, fun d hd _ => hle d hd, Nat.zero_le _, .inr ⟨d, hd, Nat.zero_le d, hmax, hfound⟩⟩
  exact hreaches.run hfit (Nat.zero_le _) (Nat.lt_succ_self _)

/-! ## The reference -/

variable {sequence : List TypedRequest} {x : ℕ}

/-- The reference moves its offset like a cursor, and its requirements hold. -/
lemma referenceAlignAndAdd_ofNat {t : TypedRequest} (hx : alignUp t.block.align x < 2 ^ 64) :
    referenceAlignAndAdd t.request.ALIGN (BitVec.ofNat 64 x) t.request.size =
      .ok (BitVec.ofNat 64 (advance x t.block)) := by
  have hle : x ≤ alignUp t.block.align x := le_alignUp t.block.align_pos
  have hword : (BitVec.ofNat 64 x).toNat = x := toNat_ofNat_of_lt (by omega)
  have halign : referenceAlign t.request.ALIGN.value (BitVec.ofNat 64 x) =
      BitVec.ofNat 64 (alignUp t.block.align x) := by
    rw [referenceAlign_eq_ofNat, hword]
    rfl
  have hge : BitVec.ofNat 64 x ≤ BitVec.ofNat 64 (alignUp t.block.align x) := by
    rw [BitVec.le_def, hword, toNat_ofNat_of_lt hx]
    exact hle
  have hmod : BitVec.ofNat 64 (alignUp t.block.align x) % t.request.ALIGN.value = 0 := by
    apply BitVec.eq_of_toNat_eq
    rw [BitVec.toNat_umod, toNat_ofNat_of_lt hx]
    exact Nat.mod_eq_zero_of_dvd dvd_alignUp
  rw [referenceAlignAndAdd, halign, require_ok (decide_eq_true hge), require_ok (beq_iff_eq.2 hmod)]
  show Except.ok (_ + t.request.size) = _
  rw [t.denotes_block.size, ← BitVec.ofNat_add]
  rfl

/-- A typed request moves the offset of the reference like a cursor. -/
lemma refSizeOp_ofNat {t : TypedRequest} (hx : alignUp t.block.align x < 2 ^ 64) :
    refSizeOp (BitVec.ofNat 64 x) t = .ok (BitVec.ofNat 64 (advance x t.block)) := by
  rw [← referenceAlignAndAdd_ofNat hx]
  cases t with
  | object T =>
    have hone : T.sizeof * 1 = T.sizeof := BitVec.mul_one T.sizeof
    rw [refSizeOp, hone]
    rfl
  | array T count => rfl

/-- The reference consumes what the cursor does. -/
lemma refSizeAt_ofNat (hfin : finish x (sequence.map TypedRequest.block) < 2 ^ 64) :
    refSizeAt sequence (BitVec.ofNat 64 x) =
      .ok (BitVec.ofNat 64 (finish x (sequence.map TypedRequest.block) - x)) := by
  have hfold : ∀ y, finish y (sequence.map TypedRequest.block) < 2 ^ 64 →
      sequence.foldlM refSizeOp (BitVec.ofNat 64 y) =
        .ok (BitVec.ofNat 64 (finish y (sequence.map TypedRequest.block))) := by
    clear hfin
    induction sequence with
    | nil => exact fun y _ => rfl
    | cons t sequence ih =>
      intro y hfin
      rw [List.map_cons, finish_cons] at hfin
      have hadv := le_finish (advance y t.block) (sequence.map TypedRequest.block)
      have hstart : alignUp t.block.align y < 2 ^ 64 := by
        rw [advance] at hadv hfin
        omega
      rw [List.foldlM_cons, refSizeOp_ofNat hstart]
      exact ih _ hfin
  have hmax : BitVec.ofNat 64 (finish x (sequence.map TypedRequest.block)) - BitVec.ofNat 64 x ≤
      BitVec.allOnes 64 := by
    rw [BitVec.le_def, BitVec.toNat_allOnes]
    exact Nat.le_pred_of_lt (BitVec.isLt _)
  rw [refSizeAt, hfold x hfin]
  show (require _ _ >>= fun _ => Except.ok _) = _
  rw [require_ok (decide_eq_true hmax), ofNat_sub (le_finish _ _)]
  rfl

/-! ## The construct pass -/

/-- A construct pass in the memory of the test consumes what a cursor does. -/
lemma cctxSizeAt_ofNat {memory : SizeT} (hend : memory.toNat + sizeofMemory.toNat < 2 ^ 64)
    (hhalf : x < (sizeofMemory / 2).toNat)
    (hfin : finish (memory.toNat + x) (sequence.map TypedRequest.block) ≤
      memory.toNat + sizeofMemory.toNat) :
    cctxSizeAt cfg memory sequence (BitVec.ofNat 64 x) =
      .ok (BitVec.ofNat 64 (finish (memory.toNat + x) (sequence.map TypedRequest.block) -
        (memory.toNat + x))) := by
  have hmemory : (sizeofMemory / 2).toNat * 2 = sizeofMemory.toNat := by decide
  have hword : (BitVec.ofNat 64 x).toNat = x := toNat_ofNat_of_lt (by omega)
  have hbase : memory + BitVec.ofNat 64 x = BitVec.ofNat 64 (memory.toNat + x) := by
    rw [BitVec.ofNat_add, ← eq_ofNat]
  have hle : BitVec.ofNat 64 x ≤ sizeofMemory := by
    rw [BitVec.le_def, hword]
    omega
  have hbase' : (memory + BitVec.ofNat 64 x).toNat = memory.toNat + x := by
    rw [hbase, toNat_ofNat_of_lt (by omega)]
  have hcurrent : (ConstructContext.init (memory + BitVec.ofNat 64 x)
      (sizeofMemory - BitVec.ofNat 64 x)).mCurrent = BitVec.ofNat 64 (memory.toNat + x) := hbase
  have hok : cfg.ndebug = true ∨ finish (memory.toNat + x) (sequence.map TypedRequest.block) ≤
      (ConstructContext.init (memory + BitVec.ofNat 64 x)
        (sizeofMemory - BitVec.ofNat 64 x)).mEnd.toNat := by
    have hrest : (sizeofMemory - BitVec.ofNat 64 x).toNat = sizeofMemory.toNat - x := by
      rw [BitVec.toNat_sub_of_le hle, hword]
    rw [ConstructContext.mEnd_init (by omega), hrest, hbase']
    omega
  have hrun := ConstructContext.allocateAll_eq (TypedRequest.denotes_blocks sequence) hcurrent hok
  have hhalf' : BitVec.ofNat 64 x < sizeofMemory / 2 := by
    rw [BitVec.lt_def, hword]
    exact hhalf
  have hsplit : cctxSizeAt cfg memory sequence (BitVec.ofNat 64 x) =
      (ConstructContext.allocateAll cfg (sequence.map TypedRequest.request)
        (.init (memory + BitVec.ofNat 64 x) (sizeofMemory - BitVec.ofNat 64 x))).map
          fun r => r.2.current - (memory + BitVec.ofNat 64 x) := by
    unfold cctxSizeAt
    rw [require_ok (decide_eq_true hhalf')]
    cases ConstructContext.allocateAll cfg (sequence.map TypedRequest.request)
      (.init (memory + BitVec.ofNat 64 x) (sizeofMemory - BitVec.ofNat 64 x))
    all_goals rfl
  rw [hsplit, hrun, ← ofNat_sub (le_finish _ _), ← hbase]
  rfl

/-! ## The result -/

section Sequence

variable {A : Alignment} {memory : SizeT} {size : ℕ}
  (hM : cfg.maxNewAlignment.value ≤ A.value)
  (hA : ∀ t ∈ sequence, t.request.ALIGN.value ≤ A.value)
  (hsize : (Estimate.run cfg.maxNewAlignment.nat (sequence.map TypedRequest.block)).size = size)

include hA in
/-- The largest alignment is a multiple of every alignment of the sequence. -/
lemma block_align_dvd : ∀ b ∈ sequence.map TypedRequest.block, (b.align : ℕ) ∣ A.value.toNat := by
  intro b hb
  obtain ⟨t, ht, rfl⟩ := List.mem_map.1 hb
  exact powersOfTwo.dvd (Alignment.le_iff.1 (hA t ht))

include hM hA hsize

omit hM hA in
/-- The size covers the run from every base. -/
lemma finish_le_base {b : ℕ} (hb : cfg.maxNewAlignment.value.toNat ∣ b) :
    finish b (sequence.map TypedRequest.block) ≤ b + size := by
  rw [← hsize]
  exact (Estimate.tracks_run hb (sequence.map TypedRequest.block)).upper

/-- A function that consumes what the cursor does from the base `lo` on. -/
lemma maxSizeAt_cursor {lo : ℕ} (hlo : cfg.maxNewAlignment.value.toNat ∣ lo)
    (hfit : A.value.toNat + size < 2 ^ 63)
    (hsizeAt : ∀ d, cfg.maxNewAlignment.value.toNat ∣ d → d ≤ A.value.toNat →
      sizeAt (BitVec.ofNat 64 d) =
        .ok (BitVec.ofNat 64 (finish (lo + d) (sequence.map TypedRequest.block) - (lo + d)))) :
    maxSizeAt cfg A.value sizeAt (A.value.toNat + 1) 0 0 = .ok (BitVec.ofNat 64 size) := by
  have hM' : cfg.maxNewAlignment.value.toNat ≤ A.value.toNat := BitVec.le_def.1 hM
  refine maxSizeAt_eq (by omega) (fun d hd hle => ⟨_, ?_, hsizeAt d hd hle⟩) ?_
  · have hupper := finish_le_base hsize (Nat.dvd_add hlo hd)
    rw [BitVec.le_def, toNat_ofNat_of_lt (by omega), toNat_ofNat_of_lt (by omega)]
    omega
  · obtain ⟨d, hd, hlt, hworst⟩ := Estimate.exists_worst_from (M := cfg.maxNewAlignment.nat)
      A.toNat_pos (powersOfTwo.dvd (Alignment.le_iff.1 hM)) (block_align_dvd hA) hlo
    refine ⟨d, hd, hlt.le, ?_⟩
    rw [hsizeAt d hd hlt.le, hworst, hsize, Nat.add_sub_cancel_left]

/-- The loop over the reference finds the size. -/
lemma refSize_eq (hfit : 2 * A.value.toNat + size < 2 ^ 63) :
    refSize cfg sequence A.value = .ok (BitVec.ofNat 64 size) := by
  have hbase : cfg.maxNewAlignment.value.toNat ∣ A.value.toNat :=
    powersOfTwo.dvd (Alignment.le_iff.1 hM)
  refine maxSizeAt_cursor hM hA hsize hbase (by omega) fun d hd hle => ?_
  have hfin := finish_le_base hsize (Nat.dvd_add hbase hd)
  have hstart : BitVec.ofNat 64 d + A.value = BitVec.ofNat 64 (A.value.toNat + d) := by
    rw [Nat.add_comm, BitVec.ofNat_add, ← eq_ofNat]
  rw [hstart]
  exact refSizeAt_ofNat (by omega)

/-- The loop over the construct passes finds it, too. -/
lemma cctxSize_eq (hmemory : cfg.maxNewAlignment.value.toNat ∣ memory.toNat)
    (hend : memory.toNat + sizeofMemory.toNat < 2 ^ 64)
    (hhalf : A.value < sizeofMemory / 2) (hfit : A.value.toNat + size ≤ sizeofMemory.toNat) :
    cctxSize cfg memory sequence A.value = .ok (BitVec.ofNat 64 size) := by
  have hmax : sizeofMemory.toNat = 2 ^ 20 := rfl
  refine maxSizeAt_cursor hM hA hsize hmemory (by omega) fun d hd hle => ?_
  have hfin := finish_le_base hsize (Nat.dvd_add hmemory hd)
  exact cctxSizeAt_ofNat hend (hle.trans_lt (BitVec.lt_def.1 hhalf)) (by omega)

end Sequence

/-- The checks hold for every sequence that begins with a head and fits the memory of the test. -/
theorem checkSequence_passes (cfg : Config) (A : Alignment) (memory : SizeT)
    (sequence : List TypedRequest) (head : Headed cfg (sequence.map TypedRequest.block))
    (rep : Representable cfg (sequence.map TypedRequest.block))
    (hM : cfg.maxNewAlignment.value ≤ A.value) (hA : ∀ t ∈ sequence, t.request.ALIGN.value ≤ A.value)
    (hmemory : cfg.maxNewAlignment.value.toNat ∣ memory.toNat)
    (hend : memory.toNat + sizeofMemory.toNat < 2 ^ 64) (hhalf : A.value < sizeofMemory / 2)
    (hfit : ∀ n, measuredSize cfg sequence = .ok n → A.value.toNat + n.toNat ≤ sizeofMemory.toNat) :
    checkSequence cfg memory A.value sequence = .ok (true, true) := by
  obtain ⟨mctx, hmctx, sim⟩ :=
    MeasureContext.exists_run (TypedRequest.denotes_blocks sequence) head rep
  have hmeasured : measuredSize cfg sequence = .ok mctx.requiredSize := by
    rw [measuredSize, hmctx]
    rfl
  have hfit := hfit _ hmeasured
  have hmax : sizeofMemory.toNat = 2 ^ 20 := rfl
  rw [sim.toNat_requiredSize, Nat.mod_eq_of_lt rep] at hfit
  rw [checkSequence, refSize_eq hM hA rfl (by omega), hmeasured,
    cctxSize_eq hM hA rfl hmemory hend hhalf hfit, ← sim.requiredSize]
  simp [bind, Except.bind, pure, Except.pure]

/-- No alignment is zero. -/
lemma Alignment.value_ne_zero (N : Alignment) : N.value ≠ 0 := by
  intro h
  have hpos := N.toNat_pos
  rw [h] at hpos
  exact absurd hpos (by decide)

/-- What a trivial destructor must satisfy when it is not virtual. -/
lemma trivial_of_not_virtual (h : false = true) : true = false :=
  absurd h Bool.false_ne_true

/-- `aligned_struct<N>`. -/
def alignedStruct (N : Alignment) : CxxType where
  sizeof := N.value
  alignof := N
  hasVirtualDestructor := false
  isTriviallyDestructible := true
  sizeof_ne_zero := N.value_ne_zero
  sizeof_mod_alignof := BitVec.umod_self
  virtual_not_trivial := trivial_of_not_virtual

/-- Bytes before an over-aligned object, as in the tests. -/
theorem checkSequence_passes_bytes :
    checkSequence debug16 4096 512 [.object (alignedStruct ⟨1, by decide⟩),
      .array (alignedStruct ⟨1, by decide⟩) 21, .object (alignedStruct ⟨64, by decide⟩)] =
        .ok (true, true) := by
  refine checkSequence_passes debug16 ⟨512, by decide⟩ 4096 _ ⟨by decide, by decide⟩ (by decide)
    (by decide) ?_ (by decide) (by decide) (by decide) fun n hn => ?_
  · intro t ht
    simp only [List.mem_cons, List.not_mem_nil, or_false] at ht
    rcases ht with rfl | rfl | rfl
    all_goals decide
  · obtain rfl : 144 = n := Except.ok.inj (rfl.trans hn)
    decide

end Saco.Layout
