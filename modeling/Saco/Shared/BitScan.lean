import Saco.Arith.HighestBit
import Saco.Layout.Platform

/-!
# Bit scans

`bsr_intrin` and `bsr_de_bruijn_32` of `include/saco/xsize_dispatcher.h`. The first is an intrinsic of the
compiler, the second hashes the smeared word with a multiplication into a table. An operation that is not
defined ends the call with an error.

`bsrDeBruijn32_eq_bsrIntrin`: on every word that is not zero both return the index of the highest bit.
-/

namespace Saco.Shared
open Arith Layout

/-- The compilers that have an intrinsic: `_MSC_VER`, and `__GNUC__` or `__clang__`. -/
inductive Intrinsic where
  | msvc
  | gnu
  deriving DecidableEq, Repr

/-- `_BitScanReverse`: searches the bits below `i` from the highest to the lowest for one that is set. -/
def bitScanReverse (mask : BitVec 32) : (i : ℕ) → Option ℕ
  | 0 => none
  | i + 1 => if mask.getLsbD i then some i else bitScanReverse mask i

/-- `bsr_intrin`. Neither intrinsic has a result for zero. -/
def bsrIntrin (intrinsic : Intrinsic) (s : BitVec 32) : Except Abort (BitVec 32) :=
  match intrinsic with
  | .msvc =>
    match bitScanReverse s 32 with
    | some index => .ok (BitVec.ofNat 32 index)
    | none => .error (.assertion "_BitScanReverse")
  | .gnu =>
    if s = 0 then .error (.assertion "__builtin_clz") else .ok (31 - s.clz)

/-- The statements `v |= v >> e` of `bsr_de_bruijn_32`. -/
def smear (v : BitVec 32) : BitVec 32 :=
  let v := v ||| v >>> 1
  let v := v ||| v >>> 2
  let v := v ||| v >>> 4
  let v := v ||| v >>> 8
  v ||| v >>> 16

/-- `TABLE`. -/
def table : Vector (BitVec 8) 32 :=
  #v[0, 9, 1, 10, 13, 21, 2, 29, 11, 14, 16, 18, 22, 25, 3, 30,
    8, 12, 20, 28, 15, 17, 24, 7, 19, 27, 23, 6, 26, 5, 4, 31]

/-- Five bits index the table. -/
lemma ushiftRight_lt (v : BitVec 32) : (v >>> 27).toNat < 32 := by
  rw [BitVec.toNat_ushiftRight, Nat.shiftRight_eq_div_pow]
  exact Nat.div_lt_of_lt_mul v.isLt

/-- The index `static_cast<std::uint32_t>(v * 0x07C4ACDDu) >> 27`. -/
def tableIndex (v : BitVec 32) : Fin 32 :=
  ⟨((v * 0x07C4ACDD) >>> 27).toNat, ushiftRight_lt _⟩

/-- `bsr_de_bruijn_32`. -/
def bsrDeBruijn32 (v : BitVec 32) : BitVec 32 :=
  (table.get (tableIndex (smear v))).setWidth 32

/-! ## The intrinsics -/

variable {v : BitVec 32}

/-- A scan from above stops at the highest bit. -/
lemma bitScanReverse_eq (hv : v ≠ 0) {i : ℕ} (hi : v.toNat.log2 < i) :
    bitScanReverse v i = some v.toNat.log2 := by
  induction i with
  | zero => cases hi
  | succ i ih =>
    rw [bitScanReverse]
    split
    case isTrue hset => rw [le_antisymm (le_log2_of_getLsbD hset) (Nat.lt_succ_iff.1 hi)]
    case isFalse hclear =>
      have hne : v.toNat.log2 ≠ i := by
        intro heq
        exact hclear (heq ▸ getLsbD_log2 hv)
      exact ih (Nat.lt_of_le_of_ne (Nat.lt_succ_iff.1 hi) hne)

/-- Both intrinsics return the index of the highest bit. -/
lemma bsrIntrin_eq (intrinsic : Intrinsic) (hv : v ≠ 0) :
    bsrIntrin intrinsic v = .ok (BitVec.ofNat 32 v.toNat.log2) := by
  have hlog := log2_lt_width hv
  cases intrinsic with
  | msvc => rw [bsrIntrin, bitScanReverse_eq hv hlog]
  | gnu =>
    have hclz := toNat_clz hv
    have hsub : 31 - v.clz = BitVec.ofNat 32 v.toNat.log2 := by
      rw [eq_ofNat v.clz, hclz]
      show BitVec.ofNat 32 31 - _ = _
      rw [ofNat_sub (by omega)]
      congr 1
      omega
    rw [bsrIntrin, if_neg hv, hsub]

/-! ## The hash -/

/-- Each statement doubles the number of places that are covered. -/
lemma smears_smear (v : BitVec 32) : Smears v (smear v) 32 :=
  smears_self.step le_rfl |>.step le_rfl |>.step le_rfl |>.step le_rfl |>.step le_rfl

/-- The smeared word is a mask up to the highest bit. -/
lemma smear_eq (hv : v ≠ 0) : smear v = BitVec.ofNat 32 (2 ^ (v.toNat.log2 + 1) - 1) := by
  rw [← (smears_smear v).toNat_eq hv, ← eq_ofNat]

/-- The smeared words hash to different entries. -/
lemma table_get_tableIndex (i : Fin 32) :
    table.get (tableIndex (BitVec.ofNat 32 (2 ^ (i.val + 1) - 1))) = BitVec.ofNat 8 i := by
  revert i
  decide

/-- The table knows each of these masks. -/
lemma table_get_smear (hv : v ≠ 0) :
    table.get (tableIndex (smear v)) = BitVec.ofNat 8 v.toNat.log2 := by
  rw [smear_eq hv]
  exact table_get_tableIndex ⟨v.toNat.log2, log2_lt_width hv⟩

/-- The portable scan returns the index of the highest bit. -/
lemma bsrDeBruijn32_eq (hv : v ≠ 0) : bsrDeBruijn32 v = BitVec.ofNat 32 v.toNat.log2 := by
  have hlog := log2_lt_width hv
  rw [bsrDeBruijn32, table_get_smear hv]
  exact BitVec.setWidth_ofNat_of_le_of_lt (by omega) (hlog.trans (by omega))

/-- `bsr_de_bruijn_32` agrees with `bsr_intrin` on every word that is not zero. -/
theorem bsrDeBruijn32_eq_bsrIntrin (hv : v ≠ 0) :
    (v.getLsbD v.toNat.log2 = true ∧ ∀ j, v.getLsbD j = true → j ≤ v.toNat.log2) ∧
      (smear v).toNat = 2 ^ (v.toNat.log2 + 1) - 1 ∧
      (table.get (tableIndex (smear v))).toNat = v.toNat.log2 ∧
      (bsrDeBruijn32 v).toNat = v.toNat.log2 ∧
      bsrDeBruijn32 v = 31 - v.clz ∧
      ∀ intrinsic, bsrIntrin intrinsic v = .ok (bsrDeBruijn32 v) := by
  have hlog := log2_lt_width hv
  have hbsr := bsrDeBruijn32_eq hv
  have hintrin : ∀ intrinsic, bsrIntrin intrinsic v = .ok (bsrDeBruijn32 v) := by
    intro intrinsic
    rw [hbsr, bsrIntrin_eq intrinsic hv]
  refine ⟨⟨getLsbD_log2 hv, fun j => le_log2_of_getLsbD⟩, (smears_smear v).toNat_eq hv, ?_, ?_, ?_,
    hintrin⟩
  · rw [table_get_smear hv]
    exact toNat_ofNat_of_lt (hlog.trans (by omega))
  · rw [hbsr]
    exact toNat_ofNat_of_lt (hlog.trans (by omega))
  · have hgnu := hintrin .gnu
    rw [bsrIntrin, if_neg hv] at hgnu
    exact (Except.ok.inj hgnu).symm

/-- The highest bit of 1000. -/
theorem bsrDeBruijn32_eq_bsrIntrin_1000 :
    bsrDeBruijn32 1000 = 31 - (1000 : BitVec 32).clz ∧ (bsrDeBruijn32 1000).toNat = 9 := by
  obtain ⟨-, -, -, hlog, hclz, -⟩ := bsrDeBruijn32_eq_bsrIntrin (v := 1000) (by decide)
  exact ⟨hclz, hlog.trans (by decide)⟩

end Saco.Shared
