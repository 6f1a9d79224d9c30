import Saco.Bump.Estimate

/-!
# The platform

The definitions of `include/saco/xcore.h` and `include/saco/xutility.h` that the rest of the library is
written over: machine words, the two settings that a build fixes (`NDEBUG` and the default alignment of
`operator new`), assertions, `is_power_of_two`, and what `alloc_raw` asserts about the result of
`operator new`.

A template argument that the source guards with a `static_assert` is a structure here whose field is the
asserted fact: an `Alignment` is a power of two, the `sizeof` of a `CxxType` is a multiple of its
`alignof`.
-/

namespace Saco.Layout
open Arith Bump

/-- `std::size_t` and `std::uintptr_t`. -/
abbrev SizeT := BitVec 64

/-- How a call can end other than by returning. -/
inductive Abort where
  | assertion (expr : String)
  | exception
  deriving DecidableEq, Repr

/-- An exception runs the destructors of the owners it passes, a failed assertion does not. -/
def Abort.unwinds : Abort → Bool
  | .assertion _ => false
  | .exception => true

/-- `is_power_of_two`. -/
def isPowerOfTwo {w : ℕ} (value : BitVec w) : Bool :=
  value != 0 && (value &&& (value - 1)) == 0

/-- A template argument `ALIGN`, with its `static_assert`. -/
structure Alignment where
  value : SizeT
  powerOfTwo : isPowerOfTwo value = true
  deriving DecidableEq

/-- What is fixed when the library is compiled: whether `assert` is compiled out, and
`MAX_NEW_ALIGNMENT`. -/
structure Config where
  ndebug : Bool
  maxNewAlignment : Alignment

/-- `SACO_ASSERT`. -/
def sacoAssert (cfg : Config) (expr : String) (holds : Bool) : Except Abort Unit :=
  if cfg.ndebug || holds then .ok () else .error (.assertion expr)

/-- `REQUIRE` of the tests. -/
def require (_expr : String) (holds : Bool) : Except Abort Unit :=
  if holds then .ok () else .error .exception

/-- A requirement that is met. -/
lemma require_ok {expr : String} {holds : Bool} (h : holds = true) : require expr holds = .ok () :=
  if_pos h

/-- An object type, as far as the library looks at it. -/
structure CxxType where
  sizeof : SizeT
  alignof : Alignment
  hasVirtualDestructor : Bool
  isTriviallyDestructible : Bool
  sizeof_ne_zero : sizeof ≠ 0
  sizeof_mod_alignof : sizeof % alignof.value = 0
  -- a virtual destructor is never trivial
  virtual_not_trivial : hasVirtualDestructor = true → isTriviallyDestructible = false

/-- A type that `build_unique` and `build_shared` accept: `alignof(T) <= MAX_NEW_ALIGNMENT`. -/
structure HeadType (cfg : Config) extends CxxType where
  alignof_le_max : alignof.value ≤ cfg.maxNewAlignment.value

/-- The loop of `alloc_raw`: `for (s = 2; s <= size; s *= 2) bits++`. -/
def allocRawBits (size : SizeT) : (fuel : ℕ) → (s : SizeT) → (bits : ℕ) → ℕ
  | 0, _, bits => bits
  | fuel + 1, s, bits => if s ≤ size then allocRawBits size fuel (s * 2) (bits + 1) else bits

/-- What `alloc_raw` asserts about the address `p` that `operator new` returned for `size` bytes. -/
def allocRawAligned (cfg : Config) (size p : SizeT) : Bool :=
  if cfg.maxNewAlignment.value ≤ size then
    p % cfg.maxNewAlignment.value == 0
  else
    let bits := allocRawBits size 64 2 0
    p >>> bits <<< bits == p

/-! ## Alignments as numbers -/

/-- `is_power_of_two` accepts exactly the powers of two. -/
lemma isPowerOfTwo_iff {w : ℕ} {value : BitVec w} :
    isPowerOfTwo value = true ↔ value.toNat.isPowerOfTwo := by
  rw [← Nat.ne_zero_and_sub_one_eq_zero_iff_isPowerOfTwo, isPowerOfTwo, Bool.and_eq_true,
    bne_iff_ne, beq_iff_eq]
  by_cases h : value = 0
  · simp [h]
  · have hne : value.toNat ≠ 0 := toNat_ne_zero h
    have hand : (value &&& (value - 1)).toNat = value.toNat &&& (value.toNat - 1) := by
      rw [BitVec.toNat_and, toNat_pred (toNat_pos h)]
    rw [← hand]
    simp only [h, hne, ne_eq, not_false_eq_true, true_and]
    exact ⟨fun h0 => h0 ▸ BitVec.toNat_zero,
      fun h0 => BitVec.eq_of_toNat_eq (h0.trans BitVec.toNat_zero.symm)⟩

namespace Alignment

def nat (a : Alignment) : powersOfTwo := ⟨a.value.toNat, isPowerOfTwo_iff.1 a.powerOfTwo⟩

/-- The alignment as a number. -/
@[simp] lemma coe_nat {a : Alignment} : (a.nat : ℕ) = a.value.toNat := rfl

/-- Alignments compare like the words. -/
lemma le_iff {a b : Alignment} : a.value ≤ b.value ↔ a.nat ≤ b.nat := Iff.rfl

/-- An alignment divides the size of the address space. -/
lemma dvd_two_pow (a : Alignment) : a.value.toNat ∣ 2 ^ 64 :=
  Arith.dvd_two_pow a.nat.2 a.value.isLt.le

/-- An alignment is at most half of it. -/
lemma le_half (a : Alignment) : a.value.toNat ≤ 2 ^ 63 := by
  obtain ⟨k, hk⟩ : a.value.toNat.isPowerOfTwo := a.nat.2
  have hlt := a.value.isLt
  rw [hk] at hlt ⊢
  have := (Nat.pow_lt_pow_iff_right one_lt_two).1 hlt
  exact Nat.pow_le_pow_right two_pos (by omega)

end Alignment

/-- An assertion that is compiled out or holds. -/
lemma sacoAssert_ok {cfg : Config} {expr : String} {holds : Bool}
    (h : cfg.ndebug = true ∨ holds = true) : sacoAssert cfg expr holds = .ok () :=
  if_pos (by simpa using h)

/-- An assertion passes for one of these reasons, or ends the run. -/
lemma sacoAssert_cases (cfg : Config) (expr : String) (holds : Bool) :
    (sacoAssert cfg expr holds = .ok () ∧ (cfg.ndebug = true ∨ holds = true)) ∨
      sacoAssert cfg expr holds = .error (.assertion expr) := by
  rw [sacoAssert]
  split
  case isTrue h => exact .inl ⟨rfl, by simpa using h⟩
  case isFalse => exact .inr rfl

/-- Objects take space. -/
lemma CxxType.sizeof_pos (T : CxxType) : 0 < T.sizeof.toNat :=
  toNat_pos T.sizeof_ne_zero

/-- No type is smaller than its alignment. -/
lemma CxxType.alignof_le (T : CxxType) : T.alignof.value.toNat ≤ T.sizeof.toNat := by
  have hmod := congrArg BitVec.toNat T.sizeof_mod_alignof
  rw [BitVec.toNat_umod] at hmod
  exact Nat.le_of_dvd T.sizeof_pos (Nat.dvd_of_mod_eq_zero hmod)

/-- The size is a multiple of the alignment. -/
lemma CxxType.alignof_dvd (T : CxxType) : T.alignof.value.toNat ∣ T.sizeof.toNat := by
  have hmod := congrArg BitVec.toNat T.sizeof_mod_alignof
  rw [BitVec.toNat_umod] at hmod
  exact Nat.dvd_of_mod_eq_zero hmod

/-! ## What `alloc_raw` asserts -/

/-- The loop stops at the largest power of two up to `size`. -/
lemma allocRawBits_spec {size s : SizeT} {fuel bits : ℕ} (hsize : size.toNat < 2 ^ 63)
    (hs : s.toNat = 2 ^ (bits + 1)) (hbits : 2 ^ bits ≤ size.toNat) (hfuel : 63 ≤ fuel + bits) :
    2 ^ allocRawBits size fuel s bits ≤ size.toNat ∧
      size.toNat < 2 ^ (allocRawBits size fuel s bits + 1) := by
  induction fuel generalizing s bits with
  | zero =>
    have := Nat.pow_le_pow_right two_pos (show 63 ≤ bits by omega)
    omega
  | succ fuel ih =>
    rw [allocRawBits]
    split
    case isTrue hle =>
      rw [BitVec.le_def, hs] at hle
      -- `s * 2` does not wrap, since `s` is still at most `size`
      have hlt : bits + 1 < 63 := (Nat.pow_lt_pow_iff_right one_lt_two).1 (hle.trans_lt hsize)
      have hdouble : (s * 2).toNat = 2 ^ (bits + 1 + 1) := by
        have hfit := Nat.pow_lt_pow_right one_lt_two (show bits + 1 + 1 < 64 by omega)
        rw [BitVec.toNat_mul, hs, show (2 : SizeT).toNat = 2 by rfl, ← Nat.pow_succ]
        exact Nat.mod_eq_of_lt hfit
      exact ih hdouble hle (by omega)
    case isFalse hle =>
      rw [BitVec.le_def, hs, not_le] at hle
      exact ⟨hbits, hle⟩

/-- The loop finds the highest bit of the size. -/
lemma allocRawBits_bounds {size : SizeT} (hpos : 0 < size.toNat) (hsize : size.toNat < 2 ^ 63) :
    2 ^ allocRawBits size 64 2 0 ≤ size.toNat ∧
      size.toNat < 2 ^ (allocRawBits size 64 2 0 + 1) :=
  allocRawBits_spec hsize rfl (by omega) (by omega)

variable {cfg : Config} {size p : SizeT}

/-- An address that passes the assertions is aligned to whatever fits both `size` and
`MAX_NEW_ALIGNMENT`. -/
lemma allocRawAligned_dvd {a : Alignment} (h : allocRawAligned cfg size p = true)
    (hmax : a.value ≤ cfg.maxNewAlignment.value) (hsize : a.value ≤ size) :
    a.value.toNat ∣ p.toNat := by
  rw [allocRawAligned] at h
  split at h
  case isTrue =>
    rw [beq_iff_eq] at h
    have hmod := congrArg BitVec.toNat h
    rw [BitVec.toNat_umod] at hmod
    exact (powersOfTwo.dvd (Alignment.le_iff.1 hmax)).trans (Nat.dvd_of_mod_eq_zero hmod)
  case isFalse hlt =>
    rw [beq_iff_eq, shift_shift_eq_iff] at h
    obtain ⟨k, hk⟩ : a.value.toNat.isPowerOfTwo := a.nat.2
    rw [BitVec.le_def] at hsize hlt
    have hhalf := cfg.maxNewAlignment.le_half
    have hone := Nat.two_pow_pos k
    obtain ⟨-, hub⟩ := allocRawBits_bounds (by omega : 0 < size.toNat) (by omega)
    refine dvd_trans ?_ h
    rw [hk] at hsize ⊢
    exact Nat.pow_dvd_pow 2 (Nat.lt_succ_iff.1
      ((Nat.pow_lt_pow_iff_right one_lt_two).1 (hsize.trans_lt hub)))

/-- An address aligned to `MAX_NEW_ALIGNMENT` passes the assertions for every size. -/
lemma allocRawAligned_of_dvd (h : cfg.maxNewAlignment.value.toNat ∣ p.toNat) :
    allocRawAligned cfg size p = true := by
  rw [allocRawAligned]
  split
  case isTrue =>
    rw [beq_iff_eq]
    apply BitVec.eq_of_toNat_eq
    rw [BitVec.toNat_umod, Nat.mod_eq_zero_of_dvd h]
    rfl
  case isFalse hlt =>
    have hhalf := cfg.maxNewAlignment.le_half
    rw [BitVec.le_def] at hlt
    rw [beq_iff_eq, shift_shift_eq_iff]
    by_cases hsize : size = 0
    · rw [hsize]
      exact one_dvd _
    · obtain ⟨hlb, -⟩ := allocRawBits_bounds (toNat_pos hsize) (by omega)
      exact (dvd_of_le ⟨_, rfl⟩ cfg.maxNewAlignment.nat.2 (by rw [Alignment.coe_nat]; omega)).trans h

/-- The assertions of `alloc_raw` accept exactly the addresses at which every object may be placed that is
not over-aligned and fits in `size` bytes. -/
theorem allocRawAligned_iff (cfg : Config) (size p : SizeT) : allocRawAligned cfg size p = true ↔
    ∀ a : Alignment, a.value ≤ cfg.maxNewAlignment.value → a.value ≤ size →
      a.value.toNat ∣ p.toNat := by
  refine ⟨fun h a hmax hsize => allocRawAligned_dvd h hmax hsize, fun h => ?_⟩
  by_cases hlarge : cfg.maxNewAlignment.value ≤ size
  · have hdvd := h cfg.maxNewAlignment (BitVec.le_refl _) hlarge
    rw [allocRawAligned, if_pos hlarge, beq_iff_eq]
    exact BitVec.eq_of_toNat_eq (BitVec.toNat_umod.trans (Nat.mod_eq_zero_of_dvd hdvd))
  · rw [allocRawAligned, if_neg hlarge, beq_iff_eq, shift_shift_eq_iff]
    by_cases hzero : size = 0
    · rw [hzero]
      exact one_dvd _
    · -- the largest power of two up to `size` is an alignment
      have hhalf := cfg.maxNewAlignment.le_half
      rw [BitVec.le_def, not_le] at hlarge
      obtain ⟨hlb, -⟩ := allocRawBits_bounds (toNat_pos hzero) (by omega)
      have hword : (BitVec.ofNat 64 (2 ^ allocRawBits size 64 2 0)).toNat =
          2 ^ allocRawBits size 64 2 0 := toNat_ofNat_of_lt (by omega)
      let a : Alignment := ⟨BitVec.ofNat 64 (2 ^ allocRawBits size 64 2 0),
        isPowerOfTwo_iff.2 ⟨_, hword⟩⟩
      have hle : a.value ≤ size := BitVec.le_def.2 (hword.trans_le hlb)
      have hmax : a.value ≤ cfg.maxNewAlignment.value := by
        rw [BitVec.le_def] at hle ⊢
        omega
      have hdvd := h a hmax hle
      rwa [hword] at hdvd

end Saco.Layout
