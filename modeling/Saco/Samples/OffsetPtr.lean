import Saco.Arith.Signed
import Saco.Build.Exact

/-!
# Offset pointers

`offset_ptr_base` of `test/test_general.cpp`: a pointer that is stored as its distance from the address
of the pointer itself, in a signed integral type `Offset`. Objects of one block can point to each other so.

`encode_relocates`: which pointers can be stored, and what is read back, also after the pointer and what
it points to were moved together. `buildUnique_linked`: in a block that `build_unique` has built they all
can, if the type reaches across the block.
-/

namespace Saco.Samples
open Arith Build Exec Layout

/-- The type `Offset`: integral and signed, and not larger than `std::ptrdiff_t`. -/
structure OffsetType where
  width : ℕ
  width_pos : 0 < width
  width_le : width ≤ 64

variable {O : OffsetType} {myAddr p : SizeT}

namespace OffsetPtr

/-- `std::numeric_limits<Offset>::min()` in a comparison with a `std::ptrdiff_t`. -/
def minOffset (O : OffsetType) : SizeT := (BitVec.intMin O.width).signExtend 64

/-- `std::numeric_limits<Offset>::max()`. -/
def maxOffset (O : OffsetType) : SizeT := (BitVec.intMax O.width).signExtend 64

/-- `encode`, for an `m_offset` at the address `myAddr`. -/
def encode (O : OffsetType) (myAddr p : SizeT) : Except Abort (BitVec O.width) := do
  let offset := if p = 0 then 0 else p - myAddr
  if offset.slt (minOffset O) || (maxOffset O).slt offset then
    -- `throw_out_of_range`
    throw .exception
  return offset.setWidth O.width

/-- `decode`. -/
def decode (myAddr : SizeT) (mOffset : BitVec O.width) : SizeT :=
  if mOffset = 0 then 0 else myAddr + mOffset.signExtend 64

/-- The check of `encode` tests whether the value fits. -/
lemma check_iff {offset : SizeT} :
    (offset.slt (minOffset O) || (maxOffset O).slt offset) = false ↔ Signed O.width offset.toInt := by
  have hmin : (minOffset O).toInt = -2 ^ (O.width - 1) := by
    rw [minOffset, BitVec.toInt_signExtend_of_le O.width_le]
    exact BitVec.toInt_intMin_of_pos O.width_pos
  have hmax : (maxOffset O).toInt = 2 ^ (O.width - 1) - 1 := by
    rw [maxOffset, BitVec.toInt_signExtend_of_le O.width_le]
    exact BitVec.toInt_intMax
  rw [Bool.or_eq_false_iff, BitVec.slt_eq_decide, BitVec.slt_eq_decide, decide_eq_false_iff_not,
    decide_eq_false_iff_not, hmin, hmax, Signed]
  omega

/-- The distance that is stored. -/
def distance (myAddr p : SizeT) : SizeT := if p = 0 then 0 else p - myAddr

/-- A distance in the range of `Offset` is stored. -/
lemma encode_of_signed (h : Signed O.width (distance myAddr p).toInt) :
    encode O myAddr p = .ok ((distance myAddr p).setWidth O.width) := by
  rw [encode, ← distance, check_iff.2 h]
  rfl

/-- A distance out of the range is rejected. -/
lemma encode_of_not_signed (h : ¬Signed O.width (distance myAddr p).toInt) :
    encode O myAddr p = .error .exception := by
  rw [encode, ← distance, Bool.eq_true_of_not_eq_false (mt check_iff.1 h)]
  rfl

/-- What is stored is read back, wherever it was moved to. -/
lemma decode_setWidth {offset : SizeT} (h : Signed O.width offset.toInt) (myAddr : SizeT) :
    decode myAddr (offset.setWidth O.width) = if offset = 0 then 0 else myAddr + offset := by
  have hback : (offset.setWidth O.width).signExtend 64 = offset :=
    signExtend_setWidth O.width_pos O.width_le h
  have hzero : offset.setWidth O.width = 0 ↔ offset = 0 := by
    rw [← signExtend_eq_zero_iff O.width_le, hback]
  rw [decode, hback]
  exact if_congr hzero rfl rfl

/-- Moving a pointer and its target by the same distance. -/
lemma decode_distance (h : Signed O.width (distance myAddr p).toInt) (d : SizeT) :
    decode (myAddr + d) ((distance myAddr p).setWidth O.width) =
      if p = 0 ∨ p = myAddr then 0 else p + d := by
  rw [decode_setWidth h, distance]
  by_cases hp : p = 0
  · rw [if_pos hp, if_pos rfl, if_pos (.inl hp)]
  · rw [if_neg hp]
    -- a pointer to itself has the distance zero, which is read as null
    have hzero : p - myAddr = 0 ↔ p = myAddr := by bv_omega
    have hsum : myAddr + d + (p - myAddr) = p + d := by bv_omega
    rw [hsum]
    exact if_congr (hzero.trans (or_iff_right hp).symm) rfl rfl

/-- Storing what was read. -/
lemma encode_decode {m : BitVec O.width} (h : decode myAddr m ≠ 0) :
    encode O myAddr (decode myAddr m) = .ok m := by
  have hm : m ≠ 0 := by
    intro hm
    exact h (if_pos hm)
  have hdistance : distance myAddr (decode myAddr m) = m.signExtend 64 := by
    rw [distance, if_neg h, decode, if_neg hm]
    bv_omega
  have hback : (m.signExtend 64).toInt = m.toInt := BitVec.toInt_signExtend_of_le O.width_le
  rw [encode_of_signed, hdistance, setWidth_signExtend m O.width_pos O.width_le]
  rw [hdistance, hback]
  exact signed_toInt m

/-- Null is always in the range. -/
lemma signed_distance_iff :
    Signed O.width (distance myAddr p).toInt ↔ p = 0 ∨ Signed O.width (p - myAddr).toInt := by
  by_cases hp : p = 0
  · have hnull : distance myAddr p = (0 : BitVec O.width).signExtend 64 := by
      rw [distance, if_pos hp]
      exact ((signExtend_eq_zero_iff O.width_le).2 rfl).symm
    rw [hnull, BitVec.toInt_signExtend_of_le O.width_le]
    exact iff_of_true (signed_toInt 0) (.inl hp)
  · rw [distance, if_neg hp]
    exact (or_iff_right hp).symm

/-- A pointer can be stored if it is null or in reach, and `encode` throws otherwise. Null stays null, a
pointer to itself becomes null, and any other pointer is read back, also after both have been moved. What
was read and is not null is stored as before. -/
theorem encode_relocates (O : OffsetType) (myAddr p : SizeT) :
    ((∃ m, encode O myAddr p = .ok m ∧
        ∀ d, decode (myAddr + d) m = if p = 0 ∨ p = myAddr then 0 else p + d) ↔
      p = 0 ∨ Signed O.width (p - myAddr).toInt) ∧
    (encode O myAddr p = .error .exception ↔ ¬(p = 0 ∨ Signed O.width (p - myAddr).toInt)) ∧
    ∀ m : BitVec O.width, decode myAddr m = 0 ∨ encode O myAddr (decode myAddr m) = .ok m := by
  rw [← signed_distance_iff]
  refine ⟨⟨fun ⟨m, hm, _⟩ => ?_, fun h => ?_⟩, ⟨fun herror h => ?_, encode_of_not_signed⟩,
    fun m => ?_⟩
  · by_contra h
    cases (encode_of_not_signed h).symm.trans hm
  · exact ⟨_, encode_of_signed h, decode_distance h⟩
  · cases (encode_of_signed h).symm.trans herror
  · exact or_iff_not_imp_left.2 encode_decode

/-! ## Pointers in a block -/

/-- Every object of `done` can point to every other object of it, from any place in it, and keeps pointing
to it when the block is moved. -/
def Linked (O : OffsetType) (done : List Placement) : Prop :=
  ∀ o ∈ objectsIn done, ∀ o' ∈ objectsIn done, ∀ i < o.T.sizeof.toNat, o.address + i ≠ o'.address →
    ∃ m, encode O (BitVec.ofNat 64 (o.address + i)) (BitVec.ofNat 64 o'.address) = .ok m ∧
      ∀ d, decode (BitVec.ofNat 64 (o.address + i) + d) m = BitVec.ofNat 64 o'.address + d

/-- Objects in a small block are in reach of one another. -/
lemma linked_of_packed {mem size : SizeT} {done : List Placement} (packed : PackedIn mem size done)
    (hnull : mem ≠ 0) (hfit : mem.toNat + size.toNat < 2 ^ 64)
    (hsize : size.toNat ≤ 2 ^ (O.width - 1)) : Linked O done := by
  have hpos : 0 < mem.toNat := toNat_pos hnull
  have hwithin : ∀ o ∈ objectsIn done, mem.toNat ≤ o.address ∧
      o.address + o.T.sizeof.toNat ≤ mem.toNat + size.toNat := by
    intro o ho
    exact packed.within _ (List.mem_map_of_mem ho)
  intro o ho o' ho' i hi hne
  obtain ⟨hlo, hhi⟩ := hwithin o ho
  obtain ⟨hlo', hhi'⟩ := hwithin o' ho'
  -- the target starts strictly before the end of the block, which the range needs
  have hsizeof : 0 < o'.T.sizeof.toNat := toNat_pos o'.T.sizeof_ne_zero
  have hmy : (BitVec.ofNat 64 (o.address + i)).toNat = o.address + i :=
    toNat_ofNat_of_lt (by omega)
  have hp : (BitVec.ofNat 64 o'.address).toNat = o'.address := toNat_ofNat_of_lt (by omega)
  have hsigned : Signed O.width (distance (BitVec.ofNat 64 (o.address + i))
      (BitVec.ofNat 64 o'.address)).toInt := by
    refine signed_distance_iff.2 (.inr ?_)
    have hmy' : mem.toNat ≤ o.address + i ∧ o.address + i ≤ mem.toNat + size.toNat := by omega
    have hp' : mem.toNat ≤ o'.address ∧ o'.address < mem.toNat + size.toNat := by omega
    rw [← hmy] at hmy'
    rw [← hp] at hp'
    exact signed_of_window O.width_pos O.width_le hmy' hp' hsize
  refine ⟨_, encode_of_signed hsigned, fun d => ?_⟩
  rw [decode_distance hsigned, if_neg]
  rw [not_or, ← BitVec.toNat_inj, ← BitVec.toNat_inj, hmy, hp]
  exact ⟨(hpos.trans_le hlo').ne', hne.symm⟩

/-- A tree that `build_unique` has built in a block that the type `Offset` can reach across. -/
theorem buildUnique_linked {S : Type} (O : OffsetType) (env : Env) (T : HeadType env.cfg)
    (children : List Plan) (fits : (Plan.place T.toCxxType children).Fits env.cfg)
    (hnull : ∀ time, env.operatorNew time ≠ 0) :
    ∃ mctx, MeasureContext.allocateAll env.cfg ((Plan.place T.toCxxType children).requests false)
        (.init env.cfg) = .ok mctx ∧
      (env.Supplies mctx.requiredSize → mctx.requiredSize.toNat ≤ 2 ^ (O.width - 1) →
        Meets (buildUnique env T.toCxxType children : Program Abort Event S SizeT)
          (Safely (fun obj es => es = (Plan.place T.toCxxType children).measured ++
              .obtain obj (.raw mctx.requiredSize) ::
                (Plan.place T.toCxxType children).constructed obj ∧
            Linked O ((Plan.place T.toCxxType children).placements 0 obj.toNat)) fun _ => True)) := by
  obtain ⟨mctx, hmctx, hr⟩ := exists_measured fits
  refine ⟨mctx, hmctx, fun supplies hsize => ?_⟩
  refine Safely.mono (logs_buildUnique fits hmctx hr supplies) ?_ fun _ _ => trivial
  intro obj es hbuilt
  obtain ⟨⟨time, rfl⟩, hes, packed⟩ := hbuilt
  exact ⟨hes, linked_of_packed packed (hnull time) (supplies.fits time) hsize⟩

/-- `std::int8_t` reaches across four lines. -/
theorem buildUnique_linked_lines :
    Meets (buildUnique (throwsAt 7) lineHead.toCxxType threeLines : Program Abort Event Unit SizeT)
      (Safely (fun obj es => es = (Plan.place lineHead.toCxxType threeLines).measured ++
          .obtain obj (.raw 64) :: (Plan.place lineHead.toCxxType threeLines).constructed obj ∧
        Linked ⟨8, by decide, by decide⟩
          ((Plan.place lineHead.toCxxType threeLines).placements 0 obj.toNat)) fun _ => True) := by
  have hnull : (4096 : SizeT) ≠ 0 := by decide
  obtain ⟨mctx, hmctx, hlinked⟩ := buildUnique_linked (S := Unit) ⟨8, by decide, by decide⟩ (throwsAt 7)
    lineHead threeLines ⟨rfl, by decide⟩ fun _ => hnull
  obtain rfl : mctx = ⟨64, 16, 0⟩ := Except.ok.inj (hmctx.symm.trans rfl)
  have haligned : allocRawAligned debug16 64 4096 = true := by decide
  have hfits : (4096 : SizeT).toNat + (64 : SizeT).toNat < 2 ^ 64 := by decide
  exact hlinked ⟨fun _ => haligned, fun _ => hfits⟩ (by decide)

end OffsetPtr

end Saco.Samples
