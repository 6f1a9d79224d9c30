import Saco.Shared.Dispatcher
import Saco.Shared.SwitchDispatcher

/-!
# The two dispatchers

`include/saco/xsize_dispatcher.h` has a dispatcher that computes its bucket, and one that searches for it in
a table from which the last bucket has been taken out. `dispatchers_agree_iff` says for which sizes they do
the same, with and without assertions, and what they select then.
-/

namespace Saco.Shared
open Arith Layout

variable {cfg : Config} {intrinsic : Option Intrinsic} {buckets : List SizeT} {s n : SizeT} {p : Impl}

/-- A size above all buckets ends at the last bucket of the range. -/
lemma step_above (adm : p.Admissible) (hlast : buckets[p.LAST]? = some n)
    (habove : ∀ m ∈ buckets, m < s) : step buckets s p.FIRST p.LAST p.MIDDLE = .ok n := by
  induction acc_instantiates adm with
  | intro p _ ih =>
    by_cases hleaf : p.IsLeaf
    · obtain ⟨hfirst, hmiddle⟩ := hleaf
      rw [step, if_pos ⟨hfirst, hmiddle⟩, hfirst]
      exact entry_of_get hlast
    · obtain ⟨-, hlt, hle⟩ := adm.resolve_left hleaf
      have hindex : p.index = p.MIDDLE - 1 := if_neg hleaf
      obtain ⟨hlength, -⟩ := List.getElem?_eq_some_iff.1 hlast
      have hread : buckets[p.index]? = some buckets[p.index] := List.getElem?_eq_getElem (by omega)
      have hnot : ¬s ≤ buckets[p.index] := BitVec.not_le.2 (habove _ (List.getElem_mem _))
      rw [step_of_not_leaf adm hleaf hread, if_neg hnot]
      exact ih _ (.high hleaf) (Impl.admissible_ofRange hle) hlast

/-- The table that is searched has the buckets of the `switch`, except for the last one. -/
lemma caseLabel_eq_getElem : ∀ k < bucketCount, Switch.caseLabel k = sizeBuckets[k]? := by
  decide

/-- The bucket that is computed is the first one that is large enough. -/
lemma least_classIndex (hmax : s ≤ maxSize) :
    ∃ n, Switch.caseLabel (classIndex 2 3 s.toNat) = some n ∧
      Least sizeBuckets s (classIndex 2 3 s.toNat) n := by
  have hmax' : s.toNat ≤ Switch.cap 23 := BitVec.le_def.1 hmax
  have hindex : classIndex 2 3 s.toNat ≤ 23 := (Switch.gc_cap _ 23).2 hmax'
  have hlabel := Switch.caseLabel_of_le _ (hindex.trans (Nat.le_succ 23))
  obtain ⟨-, hcap⟩ := Switch.caseLabel_toNat hlabel
  refine ⟨_, hlabel, ?_, ?_, fun i hi m hm => ?_⟩
  · rw [← caseLabel_eq_getElem _ (Nat.lt_succ_of_le hindex), hlabel]
  · rw [BitVec.le_def, hcap]
    exact Switch.gc_cap.le_u_l s.toNat
  · rw [← caseLabel_eq_getElem i (Nat.lt_succ_of_lt (hi.trans_le hindex))] at hm
    rw [BitVec.lt_def, (Switch.caseLabel_toNat hm).2]
    exact not_le.1 fun hle => hi.not_ge ((Switch.gc_cap _ i).2 hle)

/-- The search and the computation end at the same bucket. -/
lemma step_eq_caseLabel (hmax : s ≤ maxSize) :
    ∃ n, step sizeBuckets s 0 (bucketCount - 1) 16 = .ok n ∧
      Switch.caseLabel (classIndex 2 3 s.toNat) = some n ∧
      Least sizeBuckets s (classIndex 2 3 s.toNat) n := by
  obtain ⟨n, hlabel, least⟩ := least_classIndex hmax
  obtain ⟨k, m, -, -, hstep, least'⟩ := (bracket_dispatch hmax).step_least (by decide)
  obtain ⟨-, rfl⟩ := least.unique least'
  exact ⟨m, hstep, hlabel, least⟩

/-! ## Where the assertions pass -/

/-- Sizes that pass the assertions are searched for. -/
lemma dispatch_of_asserts (hpos : cfg.ndebug = true ∨ 0 < s) (hmax : cfg.ndebug = true ∨ s ≤ maxSize) :
    dispatch cfg s = step sizeBuckets s 0 (bucketCount - 1) 16 := by
  rw [dispatch, sacoAssert_ok (hpos.imp_right decide_eq_true), sacoAssert_ok (hmax.imp_right decide_eq_true)]
  rfl

/-- Sizes that pass the assertions of the switch select their label. -/
lemma switchDispatch_some (hpos : cfg.ndebug = true ∨ 0 < s)
    (hmax : cfg.ndebug = true ∨ s ≤ Switch.maxSize) (hle : s.toNat ≤ 2 ^ 32)
    (hlabel : Switch.caseLabel (classIndex 2 3 s.toNat) = some n) :
    Switch.dispatch cfg intrinsic s = .ok n := by
  obtain ⟨k, hk, hindex⟩ := Switch.exists_computeBucket cfg intrinsic hle
  rw [Switch.dispatch, sacoAssert_ok (hpos.imp_right decide_eq_true),
    sacoAssert_ok (hmax.imp_right decide_eq_true), hk]
  simp only [bind, Except.bind, hindex, hlabel, pure, Except.pure]

/-- Without assertions the default branch is reached. -/
lemma switchDispatch_none (hndebug : cfg.ndebug = true) (hle : s.toNat ≤ 2 ^ 32)
    (hlabel : Switch.caseLabel (classIndex 2 3 s.toNat) = none) :
    Switch.dispatch cfg intrinsic s = .error (.assertion "std::abort()") := by
  obtain ⟨k, hk, hindex⟩ := Switch.exists_computeBucket cfg intrinsic hle
  rw [Switch.dispatch, sacoAssert_ok (.inl hndebug), sacoAssert_ok (.inl hndebug), hk]
  simp only [bind, Except.bind, hindex, hlabel, sacoAssert_ok (.inl hndebug)]
  rfl

/-- What is larger than another word is not zero. -/
lemma pos_of_lt {m : SizeT} (h : m < s) : 0 < s :=
  BitVec.lt_def.2 (Nat.lt_of_le_of_lt (Nat.zero_le _) (BitVec.lt_def.1 h))

/-- Both return the first bucket that is large enough. -/
lemma dispatch_eq_of_asserts (intrinsic : Option Intrinsic) (hpos : cfg.ndebug = true ∨ 0 < s)
    (hmax : s ≤ maxSize) :
    ∃ n, dispatch cfg s = .ok n ∧ Switch.dispatch cfg intrinsic s = .ok n ∧
      Switch.caseLabel (classIndex 2 3 s.toNat) = some n ∧
      Least sizeBuckets s (classIndex 2 3 s.toNat) n := by
  obtain ⟨n, hstep, hlabel, least⟩ := step_eq_caseLabel hmax
  have hmax' : s.toNat ≤ 1792 := BitVec.le_def.1 hmax
  have hswitch : s ≤ Switch.maxSize := BitVec.le_trans hmax (by decide)
  refine ⟨n, ?_, ?_, hlabel, least⟩
  · rw [dispatch_of_asserts hpos (.inr hmax)]
    exact hstep
  · exact switchDispatch_some hpos (.inr hswitch) (by omega) hlabel

/-- Above the maximum, no bucket is large enough. -/
lemma buckets_lt (h : maxSize < s) : ∀ m ∈ sizeBuckets, m < s := by
  intro m hm
  obtain ⟨i, hi⟩ := List.mem_iff_getElem?.1 hm
  obtain ⟨hlength, -⟩ := List.getElem?_eq_some_iff.1 hi
  exact lt_of_sorted (by decide) (Nat.le_pred_of_lt hlength) hi rfl h

/-- Without assertions a size that is too large is cut down to the last bucket. -/
lemma dispatch_above (hndebug : cfg.ndebug = true) (h : maxSize < s) : dispatch cfg s = .ok maxSize := by
  have adm : Impl.Admissible ⟨0, bucketCount - 1, 16⟩ := .inr ⟨by decide, by decide, by decide⟩
  rw [dispatch_of_asserts (.inl hndebug) (.inl hndebug)]
  exact step_above adm rfl (buckets_lt h)

/-- For such a size the `switch` has one more bucket, and no other. -/
lemma switchDispatch_above (intrinsic : Option Intrinsic)
    (hasserts : cfg.ndebug = true ∨ s ≤ Switch.maxSize) (h : maxSize < s)
    (hle : s.toNat ≤ 2 ^ 32) :
    Switch.dispatch cfg intrinsic s = .ok Switch.maxSize ∨
      Switch.dispatch cfg intrinsic s = .error (.assertion "std::abort()") := by
  have hlt : 1792 < s.toNat := BitVec.lt_def.1 h
  have hindex : 23 < classIndex 2 3 s.toNat := not_le.1 fun hle => hlt.not_ge ((Switch.gc_cap _ 23).1 hle)
  by_cases hmax : s ≤ Switch.maxSize
  · have hindex' : classIndex 2 3 s.toNat ≤ 24 := (Switch.gc_cap _ 24).2 (BitVec.le_def.1 hmax)
    have hlabel : Switch.caseLabel (classIndex 2 3 s.toNat) = some Switch.maxSize := by
      rw [show classIndex 2 3 s.toNat = 24 from le_antisymm hindex' hindex]
      rfl
    exact .inl (switchDispatch_some (.inr (pos_of_lt h)) hasserts hle hlabel)
  · have hindex' : 24 < classIndex 2 3 s.toNat :=
      not_le.1 fun hle => hmax (BitVec.le_def.2 ((Switch.gc_cap _ 24).1 hle))
    exact .inr (switchDispatch_none (hasserts.resolve_right hmax) hle (Switch.caseLabel_of_lt hindex'))

/-! ## Where they fail -/

/-- An assertion that is compiled in and fails. -/
lemma sacoAssert_error {expr : String} {holds : Bool} (hndebug : cfg.ndebug = false)
    (h : holds = false) : sacoAssert cfg expr holds = .error (.assertion expr) := by
  rw [sacoAssert, hndebug, h]
  rfl

/-- Zero is asserted away by both. -/
lemma dispatch_zero (intrinsic : Option Intrinsic) (hndebug : cfg.ndebug = false) (hzero : ¬0 < s) :
    dispatch cfg s = Switch.dispatch cfg intrinsic s := by
  rw [dispatch, Switch.dispatch, sacoAssert_error hndebug (decide_eq_false hzero)]
  rfl

/-- Above the maximum the nested dispatcher asserts. -/
lemma dispatch_asserts (hndebug : cfg.ndebug = false) (h : maxSize < s) :
    dispatch cfg s = .error (.assertion "s <= MAX_SIZE") := by
  have hpos : 0 < s := pos_of_lt h
  rw [dispatch, sacoAssert_ok (.inr (decide_eq_true hpos)),
    sacoAssert_error hndebug (decide_eq_false (BitVec.not_le.2 h))]
  rfl

/-- Above its own maximum the switch asserts. -/
lemma switchDispatch_asserts (hndebug : cfg.ndebug = false) (h : Switch.maxSize < s) :
    Switch.dispatch cfg intrinsic s = .error (.assertion "s <= MAX_SIZE") := by
  have hpos : 0 < s := pos_of_lt h
  rw [Switch.dispatch, sacoAssert_ok (.inr (decide_eq_true hpos)),
    sacoAssert_error hndebug (decide_eq_false (BitVec.not_le.2 h))]
  rfl

/-! ## The results -/

/-- The dispatchers do the same for the sizes that the table has a bucket for, and for those that both of
them assert away. -/
lemma dispatch_eq_iff (cfg : Config) (intrinsic : Option Intrinsic) (s : SizeT)
    (hle : s.toNat ≤ 2 ^ 32) :
    dispatch cfg s = Switch.dispatch cfg intrinsic s ↔
      s ≤ maxSize ∨ cfg.ndebug = false ∧ Switch.maxSize < s := by
  by_cases hmax : s ≤ maxSize
  · refine iff_of_true ?_ (.inl hmax)
    by_cases hpos : cfg.ndebug = true ∨ 0 < s
    · obtain ⟨n, hdispatch, hswitch, -⟩ := dispatch_eq_of_asserts intrinsic hpos hmax
      rw [hdispatch, hswitch]
    · obtain ⟨hdebug, hzero⟩ := not_or.1 hpos
      exact dispatch_zero intrinsic (Bool.eq_false_of_not_eq_true hdebug) hzero
  · have habove : maxSize < s := BitVec.not_le.1 hmax
    rw [or_iff_right hmax]
    cases hndebug : cfg.ndebug with
    | true =>
      refine iff_of_false ?_ nofun
      rw [dispatch_above hndebug habove]
      rcases switchDispatch_above intrinsic (.inl hndebug) habove hle with h | h
      all_goals
        rw [h]
        decide
    | false =>
      rw [dispatch_asserts hndebug habove, and_iff_right rfl]
      by_cases hswitch : Switch.maxSize < s
      · exact iff_of_true (switchDispatch_asserts hndebug hswitch).symm hswitch
      · refine iff_of_false ?_ hswitch
        rcases switchDispatch_above intrinsic (.inr (BitVec.not_lt.1 hswitch)) habove hle
          with h | h
        all_goals
          rw [h]
          decide

/-- Where both have a bucket it is the least one that is large enough. Above 32 bytes it exceeds the size by
at most a quarter. -/
lemma dispatch_tight (cfg : Config) (intrinsic : Option Intrinsic) (s : SizeT) (hpos : 0 < s)
    (hmax : s ≤ maxSize) :
    ∃ n, dispatch cfg s = .ok n ∧ Switch.dispatch cfg intrinsic s = .ok n ∧ s ≤ n ∧
      (∀ m ∈ sizeBuckets, s ≤ m → n ≤ m) ∧ n.toNat ≤ max 32 (5 * (s.toNat - 1) / 4) := by
  obtain ⟨n, hdispatch, hswitch, hlabel, least⟩ := dispatch_eq_of_asserts intrinsic (.inr hpos) hmax
  obtain ⟨-, hcap⟩ := Switch.caseLabel_toNat hlabel
  refine ⟨n, hdispatch, hswitch, least.le, fun m hm hs => ?_, ?_⟩
  · obtain ⟨i, hi⟩ := List.mem_iff_getElem?.1 hm
    have hge : classIndex 2 3 s.toNat ≤ i :=
      not_lt.1 fun hlt => absurd hs (BitVec.not_le.2 (least.lt i hlt m hi))
    obtain ⟨hlength, -⟩ := List.getElem?_eq_some_iff.1 hi
    rw [← caseLabel_eq_getElem i hlength] at hi
    rw [BitVec.le_def, hcap, (Switch.caseLabel_toNat hi).2]
    exact Switch.gc_cap.monotone_u hge
  · rw [hcap]
    by_cases h : 32 < s.toNat
    · have htight := Switch.cap_classIndex_le h
      omega
    · have hzero : classIndex 2 3 s.toNat ≤ 0 := (Switch.gc_cap _ 0).2 (not_lt.1 h)
      exact (Switch.gc_cap.monotone_u hzero).trans (le_max_left _ _)

/-- The two dispatchers do the same exactly for the sizes that the table has a bucket for and for those that
both of them assert away, and then they select the least bucket. -/
theorem dispatchers_agree_iff (cfg : Config) (intrinsic : Option Intrinsic) (s : SizeT)
    (hle : s.toNat ≤ 2 ^ 32) :
    (dispatch cfg s = Switch.dispatch cfg intrinsic s ↔
      s ≤ maxSize ∨ cfg.ndebug = false ∧ Switch.maxSize < s) ∧
    (0 < s → s ≤ maxSize → ∃ n, dispatch cfg s = .ok n ∧ Switch.dispatch cfg intrinsic s = .ok n ∧
      s ≤ n ∧ (∀ m ∈ sizeBuckets, s ≤ m → n ≤ m) ∧ n.toNat ≤ max 32 (5 * (s.toNat - 1) / 4)) :=
  ⟨dispatch_eq_iff cfg intrinsic s hle, dispatch_tight cfg intrinsic s⟩

/-- A size that only the `switch` has a bucket for, and one that neither of them has. -/
theorem dispatchers_agree_iff_5000 :
    dispatch debug16 1800 ≠ Switch.dispatch debug16 none 1800 ∧
      dispatch debug16.release 5000 ≠ Switch.dispatch debug16.release none 5000 ∧
      dispatch debug16 5000 = Switch.dispatch debug16 none 5000 := by
  obtain ⟨h1800, -⟩ := dispatchers_agree_iff debug16 none 1800 (by decide)
  obtain ⟨hrelease, -⟩ := dispatchers_agree_iff debug16.release none 5000 (by decide)
  obtain ⟨h5000, -⟩ := dispatchers_agree_iff debug16 none 5000 (by decide)
  exact ⟨fun h => absurd (h1800.1 h) (by decide), fun h => absurd (hrelease.1 h) (by decide),
    h5000.2 (by decide)⟩

end Saco.Shared
