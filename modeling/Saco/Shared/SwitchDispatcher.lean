import Saco.Arith.SizeClass
import Saco.Layout.RequiredSize
import Saco.Shared.BitScan

/-!
# The switch dispatcher

`size_dispatcher_switch` of `include/saco/xsize_dispatcher.h`: `compute_bucket` packs the exponent of a
size and the two bits below its highest bit into a bucket number, and a `switch` maps the numbers to
template arguments. An operation that is not defined ends the call with an error.

`computeBucket_eq`: the bucket numbers are the size classes of `Saco/Arith/SizeClass.lean` with four steps
per octave. `computeBucket_least` reads off what this means for the sizes.
-/

namespace Saco.Shared.Switch
open Arith Layout

/-- `MAX_SIZE`. -/
def maxSize : SizeT := 2048

/-- The new value of `s` in `compute_bucket`. -/
def clamped (s : SizeT) : SizeT := if s < 32 then 31 else s - 1

/-- The local `w` of `compute_bucket`, with `SACO_HAVE_BSR_INTRIN` or without. -/
def scan (cfg : Config) (intrinsic : Option Intrinsic) (s : SizeT) : Except Abort SizeT :=
  match intrinsic with
  | some intrinsic => do
    let w := (← bsrIntrin intrinsic (s.setWidth 32)).setWidth 64
    sacoAssert cfg "w == bsr_de_bruijn_32(static_cast<unsigned>(s))"
      (w == (bsrDeBruijn32 (s.setWidth 32)).setWidth 64)
    return w
  | none => return (bsrDeBruijn32 (s.setWidth 32)).setWidth 64

/-- `s >> n`, which is defined for counts below the width only. -/
def shiftRight (s n : SizeT) : Except Abort SizeT :=
  if n < 64 then .ok (s >>> n) else .error (.assertion "shift count")

/-- `compute_bucket`. -/
def computeBucket (cfg : Config) (intrinsic : Option Intrinsic) (s : SizeT) : Except Abort SizeT := do
  let s := clamped s
  let w ← scan cfg intrinsic s
  let a := w - 4
  let b := (← shiftRight s (w - 2)) &&& 3
  return (a <<< 2 ||| b) - 3

/-- The `case` labels of `dispatch`, with the argument that `Fn` is instantiated with. -/
def caseLabel : ℕ → Option SizeT
  | 0 => some 32
  | 1 => some 40
  | 2 => some 48
  | 3 => some 56
  | 4 => some 64
  | 5 => some 80
  | 6 => some 96
  | 7 => some 112
  | 8 => some 128
  | 9 => some 160
  | 10 => some 192
  | 11 => some 224
  | 12 => some 256
  | 13 => some 320
  | 14 => some 384
  | 15 => some 448
  | 16 => some 512
  | 17 => some 640
  | 18 => some 768
  | 19 => some 896
  | 20 => some 1024
  | 21 => some 1280
  | 22 => some 1536
  | 23 => some 1792
  | 24 => some 2048
  | _ => none

/-- `dispatch`. The result is the argument of the `Fn` that is called. -/
def dispatch (cfg : Config) (intrinsic : Option Intrinsic) (s : SizeT) : Except Abort SizeT := do
  sacoAssert cfg "s > 0" (0 < s)
  sacoAssert cfg "s <= MAX_SIZE" (s ≤ maxSize)
  let bucket ← computeBucket cfg intrinsic s
  match caseLabel bucket.toNat with
  | some n => return n
  | none => do
    sacoAssert cfg "0 && internal error in size dispatcher" false
    -- a failed `assert` ends in `std::abort` as well
    throw (.assertion "std::abort()")

/-! ## Packing -/

section Packing
variable {x : SizeT} {l : ℕ}

/-- The exponent does not underflow. -/
lemma exponent_eq (h : 4 ≤ l) : BitVec.ofNat 64 l - 4 = BitVec.ofNat 64 (l - 4) :=
  ofNat_sub h

/-- The shift count does not underflow. -/
lemma shiftCount_eq (h : 2 ≤ l) : BitVec.ofNat 64 l - 2 = BitVec.ofNat 64 (l - 2) :=
  ofNat_sub h

/-- The value of the shift count. -/
lemma toNat_shiftCount (hlo : 2 ≤ l) (hhi : l < 32) : (BitVec.ofNat 64 l - 2).toNat = l - 2 := by
  rw [shiftCount_eq hlo]
  exact toNat_ofNat_of_lt (by omega)

/-- The local `b`. -/
lemma mantissa_eq (hlo : 2 ≤ l) (hhi : l < 32) :
    x >>> (BitVec.ofNat 64 l - 2) &&& 3 = BitVec.ofNat 64 (x.toNat / 2 ^ (l - 2) % 4) := by
  apply BitVec.eq_of_toNat_eq
  have hmod : x.toNat / 2 ^ (l - 2) % 4 < 2 ^ 64 := (Nat.mod_lt _ four_pos).trans (by omega)
  rw [BitVec.toNat_and, BitVec.ushiftRight_eq', toNat_shiftCount hlo hhi, BitVec.toNat_ushiftRight,
    Nat.shiftRight_eq_div_pow, toNat_ofNat_of_lt hmod]
  exact Nat.and_two_pow_sub_one_eq_mod _ 2

/-- `a << 2 | b`, for the two bits of `b`. -/
lemma pack_eq {a b : ℕ} (hb : b < 4) :
    BitVec.ofNat 64 a <<< 2 ||| BitVec.ofNat 64 b = BitVec.ofNat 64 (4 * a + b) := by
  have hshift : BitVec.ofNat 64 a <<< 2 = BitVec.ofNat 64 (a <<< 2) := by
    apply BitVec.eq_of_toNat_eq
    rw [BitVec.toNat_shiftLeft, BitVec.toNat_ofNat, BitVec.toNat_ofNat, Nat.shiftLeft_eq,
      Nat.shiftLeft_eq, Nat.mod_mul_mod]
  have hor : a <<< 2 ||| b = 4 * a + b := by
    rw [← Nat.shiftLeft_add_eq_or_of_lt hb, Nat.shiftLeft_eq, Nat.mul_comm]
  rw [hshift, ← BitVec.ofNat_or, hor]

end Packing

/-! ## The bucket number -/

variable {cfg : Config} {intrinsic : Option Intrinsic} {s : SizeT}

/-- The value of the clamped size. -/
lemma toNat_clamped (s : SizeT) : (clamped s).toNat = max 31 (s.toNat - 1) := by
  rw [clamped]
  split
  case isTrue h =>
    have hlt : s.toNat < 32 := BitVec.lt_def.1 h
    show 31 = _
    exact (max_eq_left (by omega)).symm
  case isFalse h =>
    have hge : 32 ≤ s.toNat := BitVec.le_def.1 (BitVec.not_lt.1 h)
    rw [toNat_pred (by omega)]
    exact (max_eq_right (by omega)).symm

/-- The exponents that occur. -/
lemma log2_clamped (h : s.toNat ≤ 2 ^ 32) :
    4 ≤ (clamped s).toNat.log2 ∧ (clamped s).toNat.log2 < 32 := by
  have hclamped := toNat_clamped s
  have hne : (clamped s).toNat ≠ 0 := by omega
  rw [Nat.le_log2 hne, Nat.log2_lt hne]
  omega

/-- The cast to 32 bits keeps small values. -/
lemma toNat_cast {x : SizeT} (hlt : x.toNat < 2 ^ 32) : (x.setWidth 32).toNat = x.toNat := by
  rw [BitVec.toNat_setWidth, Nat.mod_eq_of_lt hlt]

/-- The cast of a small value is zero for zero only. -/
lemma cast_ne_zero {x : SizeT} (hpos : 0 < x.toNat) (hlt : x.toNat < 2 ^ 32) :
    x.setWidth 32 ≠ 0 := by
  intro h
  have hcast := toNat_cast hlt
  rw [h] at hcast
  exact hpos.ne hcast

/-- With and without an intrinsic the scan finds the highest bit, and no assertion fails. -/
lemma scan_eq {x : SizeT} (hpos : 0 < x.toNat) (hlt : x.toNat < 2 ^ 32) :
    scan cfg intrinsic x = .ok (BitVec.ofNat 64 x.toNat.log2) := by
  have hcast := toNat_cast hlt
  have hne := cast_ne_zero hpos hlt
  have hlog := log2_lt_width hne
  have hbsr : (bsrDeBruijn32 (x.setWidth 32)).setWidth 64 = BitVec.ofNat 64 x.toNat.log2 := by
    rw [bsrDeBruijn32_eq hne]
    rw [hcast] at hlog ⊢
    exact BitVec.setWidth_ofNat_of_le_of_lt (by omega) (hlog.trans (by omega))
  cases intrinsic with
  | none => rw [scan, hbsr]; rfl
  | some intrinsic =>
    rw [scan, bsrIntrin_eq intrinsic hne, ← bsrDeBruijn32_eq hne]
    show (sacoAssert cfg _ _ >>= fun _ => pure _) = _
    rw [sacoAssert_ok (.inr (beq_self_eq_true _)), hbsr]
    rfl

/-- The packed exponent and mantissa number the size classes, from 3 on. -/
lemma classIndex_add_three (n : ℕ) :
    classIndex 2 3 n + 3 =
      4 * ((max 31 (n - 1)).log2 - 4) + max 31 (n - 1) / 2 ^ ((max 31 (n - 1)).log2 - 2) % 4 := by
  rw [classIndex]
  split
  case isTrue h =>
    rw [max_eq_left (show n - 1 ≤ 31 by omega)]
    rfl
  case isFalse h =>
    have hlog : 2 + 3 ≤ (n - 1).log2 := le_log2_of_le (by omega)
    rw [max_eq_right (show 31 ≤ n - 1 by omega), classFloor]
    omega

/-- The packed word, before the final subtraction. -/
lemma packed_eq {w : SizeT} (h : s.toNat ≤ 2 ^ 32)
    (hw : w = BitVec.ofNat 64 (clamped s).toNat.log2) :
    (w - 4) <<< 2 ||| clamped s >>> (w - 2) &&& 3 =
      BitVec.ofNat 64 (classIndex 2 3 s.toNat + 3) := by
  obtain ⟨hlo, hhi⟩ := log2_clamped h
  rw [hw, exponent_eq hlo, mantissa_eq (by omega) hhi, pack_eq (Nat.mod_lt _ four_pos),
    classIndex_add_three, toNat_clamped]

/-- The shift count is less than the width of the word. -/
lemma count_lt {w : SizeT} (h : s.toNat ≤ 2 ^ 32)
    (hw : w = BitVec.ofNat 64 (clamped s).toNat.log2) : w - 2 < 64 := by
  obtain ⟨hlo, hhi⟩ := log2_clamped h
  rw [hw, BitVec.lt_def, toNat_shiftCount (by omega) hhi]
  exact (Nat.sub_le _ _).trans_lt (hhi.trans (by decide))

/-- The scan of a clamped size is defined, and finds its highest bit. -/
lemma scan_clamped (cfg : Config) (intrinsic : Option Intrinsic) (h : s.toNat ≤ 2 ^ 32) :
    scan cfg intrinsic (clamped s) = .ok (BitVec.ofNat 64 (clamped s).toNat.log2) := by
  have hclamped := toNat_clamped s
  exact scan_eq (by omega) (by omega)

/-- The rest of `compute_bucket`. -/
lemma computeBucket_of_scan {w : SizeT} (hscan : scan cfg intrinsic (clamped s) = .ok w)
    (hcount : w - 2 < 64) :
    computeBucket cfg intrinsic s = .ok (((w - 4) <<< 2 ||| clamped s >>> (w - 2) &&& 3) - 3) := by
  rw [computeBucket, hscan]
  show (shiftRight _ _ >>= fun b => .ok (((w - 4) <<< 2 ||| b &&& 3) - 3)) = _
  rw [shiftRight, if_pos hcount]
  rfl

/-- `compute_bucket` returns the size class. -/
lemma computeBucket_eq (h : s.toNat ≤ 2 ^ 32) :
    computeBucket cfg intrinsic s = .ok (BitVec.ofNat 64 (classIndex 2 3 s.toNat)) := by
  rw [computeBucket_of_scan (scan_clamped cfg intrinsic h) (count_lt h rfl), packed_eq h rfl]
  show Except.ok (_ - BitVec.ofNat 64 3) = _
  rw [ofNat_sub (Nat.le_add_left 3 _), Nat.add_sub_cancel]

/-! ## Capacities -/

/-- The capacity of a bucket: four equal steps in each octave, from 32 on. -/
def cap (k : ℕ) : ℕ := (4 + k % 4) * 2 ^ (3 + k / 4)

/-- Bucket numbers and capacities are adjoint. -/
lemma gc_cap : GaloisConnection (classIndex 2 3) cap :=
  gc_classIndex 2 3

/-- The largest index. -/
lemma classIndex_le (h : s.toNat ≤ 2 ^ 32) : classIndex 2 3 s.toNat ≤ 108 :=
  (gc_cap _ 108).2 h

/-- `compute_bucket` returns the index of the size class. -/
lemma exists_computeBucket (cfg : Config) (intrinsic : Option Intrinsic) (h : s.toNat ≤ 2 ^ 32) :
    ∃ k, computeBucket cfg intrinsic s = .ok k ∧ k.toNat = classIndex 2 3 s.toNat := by
  have hle := classIndex_le h
  refine ⟨_, computeBucket_eq h, ?_⟩
  exact toNat_ofNat_of_lt (by omega)

/-- The label of a `case` is the capacity of its bucket. -/
lemma caseLabel_of_le : ∀ k ≤ 24, caseLabel k = some (BitVec.ofNat 64 (cap k)) := by
  decide

/-- There are 25 labels. -/
lemma caseLabel_of_lt {k : ℕ} (h : 24 < k) : caseLabel k = none := by
  obtain ⟨n, rfl⟩ := Nat.exists_eq_add_of_le' h
  rfl

/-- A label is the cap of its class. -/
lemma caseLabel_toNat {k : ℕ} {n : SizeT} (h : caseLabel k = some n) :
    k ≤ 24 ∧ n.toNat = cap k := by
  cases Nat.lt_or_ge 24 k with
  | inl hlt =>
    rw [caseLabel_of_lt hlt] at h
    cases h
  | inr hle =>
    have hcap : cap k ≤ cap 24 := gc_cap.monotone_u hle
    rw [caseLabel_of_le k hle] at h
    cases h
    exact ⟨hle, toNat_ofNat_of_lt (hcap.trans_lt (by decide))⟩

/-- Under its preconditions `dispatch` reaches a `case` label. -/
lemma exists_dispatch_eq (cfg : Config) (intrinsic : Option Intrinsic) (hpos : 0 < s)
    (hmax : s ≤ maxSize) :
    ∃ n, dispatch cfg intrinsic s = .ok n ∧ caseLabel (classIndex 2 3 s.toNat) = some n := by
  have hmax' : s.toNat ≤ 2048 := BitVec.le_def.1 hmax
  obtain ⟨k, hk, hindex⟩ := exists_computeBucket cfg intrinsic (show s.toNat ≤ 2 ^ 32 by omega)
  have hlabel := caseLabel_of_le (classIndex 2 3 s.toNat) ((gc_cap _ 24).2 hmax')
  refine ⟨_, ?_, hlabel⟩
  rw [dispatch, sacoAssert_ok (.inr (decide_eq_true hpos)), sacoAssert_ok (.inr (decide_eq_true hmax)), hk]
  show (match caseLabel k.toNat with | some n => _ | none => _) = _
  rw [hindex, hlabel]
  rfl

/-- No unsigned operation of `compute_bucket(s)` leaves its range when the scan returns `w`. -/
structure NoUnderflow (s w : SizeT) : Prop where
  pred : 32 ≤ s → 1 ≤ s
  cast : ((clamped s).setWidth 32).toNat = (clamped s).toNat
  clz : ((clamped s).setWidth 32).clz ≤ 31
  exponent : 4 ≤ w
  count : 2 ≤ w ∧ w - 2 < 64
  shift : ((w - 4) <<< 2).toNat = (w - 4).toNat * 4
  bias : 3 ≤ (w - 4) <<< 2 ||| clamped s >>> (w - 2) &&& 3

/-- None of the subtractions underflows. -/
lemma noUnderflow (h : s.toNat ≤ 2 ^ 32) :
    NoUnderflow s (BitVec.ofNat 64 (clamped s).toNat.log2) := by
  have hclamped := toNat_clamped s
  obtain ⟨hlo, hhi⟩ := log2_clamped h
  have hle : ∀ n ≤ 4, BitVec.ofNat 64 n ≤ BitVec.ofNat 64 (clamped s).toNat.log2 := by
    intro n hn
    rw [BitVec.le_def, toNat_ofNat_of_lt (by omega), toNat_ofNat_of_lt (by omega)]
    exact hn.trans hlo
  constructor
  case pred =>
    intro hge
    exact BitVec.le_trans (by decide) hge
  case cast => exact toNat_cast (by omega)
  case clz =>
    rw [BitVec.le_def, toNat_clz (cast_ne_zero (by omega) (by omega))]
    exact Nat.sub_le _ _
  case exponent => exact hle 4 le_rfl
  case count => exact ⟨hle 2 (by decide), count_lt h rfl⟩
  case shift =>
    rw [exponent_eq hlo, BitVec.toNat_shiftLeft, Nat.shiftLeft_eq, toNat_ofNat_of_lt (by omega)]
    exact Nat.mod_eq_of_lt (by omega)
  case bias =>
    have hindex := classIndex_le h
    rw [packed_eq h rfl, BitVec.le_def, toNat_ofNat_of_lt (by omega)]
    exact Nat.le_add_left 3 _

/-- The capacity before the class of `n` is too small. -/
lemma cap_pred_lt {n : ℕ} (h : classIndex 2 3 n ≠ 0) : cap (classIndex 2 3 n - 1) < n := by
  have hnot : ¬classIndex 2 3 n ≤ classIndex 2 3 n - 1 := by omega
  exact not_le.1 fun hle => hnot ((gc_cap n _).2 hle)

/-- At most a quarter of the capacity before is added. -/
lemma cap_classIndex_le {n : ℕ} (h : 32 < n) : 4 * cap (classIndex 2 3 n) ≤ 5 * (n - 1) := by
  have hne : classIndex 2 3 n ≠ 0 := by
    intro h0
    exact h.not_ge ((gc_cap n 0).1 h0.le)
  obtain ⟨j, hj⟩ := Nat.exists_eq_add_one_of_ne_zero hne
  have hlt : cap j < n := by
    have hpred := cap_pred_lt hne
    rwa [hj] at hpred
  have hstep : 4 * cap (j + 1) ≤ 5 * cap j := classSize_succ_le (m := 2) (e := 3)
  rw [hj]
  omega

/-- `compute_bucket` selects the tightest bucket for every size up to `2 ^ 32`. -/
theorem computeBucket_least (cfg : Config) (intrinsic : Option Intrinsic) (hpos : 1 ≤ s.toNat)
    (hle : s.toNat ≤ 2 ^ 32) :
    ∃ w k, scan cfg intrinsic (clamped s) = .ok w ∧ NoUnderflow s w ∧
      (∀ i, bsrIntrin i ((clamped s).setWidth 32) =
        .ok (bsrDeBruijn32 ((clamped s).setWidth 32))) ∧
      computeBucket cfg intrinsic s = .ok k ∧
      IsLeast {i | s.toNat ≤ cap i} k.toNat ∧
      (k = 0 ∨ cap (k.toNat - 1) < s.toNat) ∧
      (∀ t : SizeT, s ≤ t → t.toNat ≤ 2 ^ 32 →
        ∃ l, computeBucket cfg intrinsic t = .ok l ∧ k ≤ l) ∧
      (k ≤ 24 ↔ s ≤ 2048) ∧
      (s ≤ maxSize → ∃ n, dispatch cfg intrinsic s = .ok n ∧ caseLabel k.toNat = some n) ∧
      (∀ i n, caseLabel i = some n → i ≤ 24 ∧ n.toNat = cap i) ∧
      (32 < s → 4 * cap k.toNat ≤ 5 * (s.toNat - 1)) := by
  have hclamped := toNat_clamped s
  obtain ⟨k, hk, hindex⟩ := exists_computeBucket cfg intrinsic hle
  refine ⟨_, k, scan_clamped cfg intrinsic hle, noUnderflow hle, ?_, hk, ?_, ?_, ?_, ?_, ?_, ?_, ?_⟩
  · intro i
    have hne : (clamped s).setWidth 32 ≠ 0 := cast_ne_zero (by omega) (by omega)
    rw [bsrIntrin_eq i hne, bsrDeBruijn32_eq hne]
  · rw [hindex]
    exact ⟨gc_cap.le_u_l s.toNat, fun i hi => (gc_cap s.toNat i).2 hi⟩
  · by_cases h0 : k = 0
    · exact .inl h0
    · rw [hindex]
      exact .inr (cap_pred_lt (hindex ▸ toNat_ne_zero h0))
  · intro t ht htle
    obtain ⟨l, hl, hindex'⟩ := exists_computeBucket cfg intrinsic htle
    refine ⟨l, hl, ?_⟩
    rw [BitVec.le_def, hindex, hindex']
    exact gc_cap.monotone_l (BitVec.le_def.1 ht)
  · rw [BitVec.le_def, BitVec.le_def, hindex]
    exact gc_cap s.toNat 24
  · intro hmax
    rw [hindex]
    exact exists_dispatch_eq cfg intrinsic (BitVec.lt_def.2 hpos) hmax
  · intro i n
    exact caseLabel_toNat
  · intro h
    rw [hindex]
    exact cap_classIndex_le (BitVec.lt_def.1 h)

/-- The first size of a class wastes the most. -/
theorem computeBucket_least_1281 :
    ∃ k, computeBucket debug16 (some .gnu) 1281 = .ok k ∧ 4 * cap k.toNat ≤ 5 * (1281 - 1) := by
  obtain ⟨_, k, -, -, -, hk, -, -, -, -, -, -, hcap⟩ :=
    computeBucket_least (s := 1281) debug16 (some .gnu) (by decide) (by decide)
  exact ⟨k, hk, hcap (by decide)⟩

end Saco.Shared.Switch
