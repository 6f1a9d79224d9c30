import Saco.Layout.Platform

/-!
# The size dispatcher

`size_dispatcher_nested_if` of `include/saco/xsize_dispatcher.h`: a decision tree over a table of bucket
sizes that the compiler unrolls from templates. A `static_assert` that fails, or a table index that is
out of range, ends `step` with an error, whether or not assertions are compiled out.

`Instantiates` and `Calls` are the two ways to walk the tree: what the compiler instantiates, and what a
call with a given size runs through.

`step_binary_search`: on a strictly ascending table every admissible range selects the least bucket that
is large enough.
-/

namespace Saco.Shared
open Layout
open Relation (ReflTransGen)

/-- `SIZE_BUCKETS`. -/
def sizeBuckets : List SizeT :=
  [32, 40, 48, 56, 64, 80, 96, 112, 128, 160, 192, 224, 256, 320, 384, 448, 512, 640, 768, 896, 1024,
    1280, 1536, 1792]

/-- `BUCKET_COUNT`. -/
def bucketCount : ℕ := sizeBuckets.length

/-- `MAX_SIZE`. -/
def maxSize : SizeT := sizeBuckets.getD (bucketCount - 1) 0

/-- `SIZE_BUCKETS[i]` in a constant expression. -/
def entry (buckets : List SizeT) (i : ℕ) : Except Abort SizeT :=
  match buckets[i]? with
  | some n => .ok n
  | none => .error (.assertion "array index")

/-- `impl<Fn, FIRST, LAST, MIDDLE>::step`. The result is the argument that `Fn` is instantiated with. -/
def step (buckets : List SizeT) (s : SizeT) (first last middle : ℕ) : Except Abort SizeT :=
  if first = last ∧ middle = first then
    entry buckets first
  else if _h : first < last ∧ first < middle ∧ middle ≤ last then
    match entry buckets (middle - 1) with
    | .error e => .error e
    | .ok n =>
      if s ≤ n then
        step buckets s first (middle - 1) ((first + (middle - 1) + 1) / 2)
      else
        step buckets s middle last ((middle + last + 1) / 2)
  else
    .error (.assertion "static_assert")
termination_by last - first

/-- `dispatch`, with the root split at 16. -/
def dispatch (cfg : Config) (s : SizeT) : Except Abort SizeT := do
  sacoAssert cfg "s > 0" (0 < s)
  sacoAssert cfg "s <= MAX_SIZE" (s ≤ maxSize)
  step sizeBuckets s 0 (bucketCount - 1) 16

/-! ## The instantiations -/

/-- An instantiation `impl<Fn, FIRST, LAST, MIDDLE>`. The arguments index the table; that they are of type
`int` makes no difference for tables that can be written down. -/
structure Impl where
  FIRST : ℕ
  LAST : ℕ
  MIDDLE : ℕ

namespace Impl

/-- `impl<Fn, FIRST, LAST>`, with the default argument for `MIDDLE`. -/
def ofRange (FIRST LAST : ℕ) : Impl := ⟨FIRST, LAST, (FIRST + LAST + 1) / 2⟩

/-- The specialisation `impl<Fn, FIRST, FIRST, FIRST>` is selected. -/
def IsLeaf (p : Impl) : Prop := p.FIRST = p.LAST ∧ p.MIDDLE = p.FIRST

instance (p : Impl) : Decidable p.IsLeaf := inferInstanceAs (Decidable (_ ∧ _))

/-- The static assertions of the primary template. -/
structure StaticAsserts (p : Impl) : Prop where
  first_lt_last : p.FIRST < p.LAST
  first_lt_middle : p.FIRST < p.MIDDLE
  middle_le_last : p.MIDDLE ≤ p.LAST

/-- An instantiation that the compiler accepts. -/
def Admissible (p : Impl) : Prop := p.IsLeaf ∨ p.StaticAsserts

/-- The entry of the table that `step` reads. -/
def index (p : Impl) : ℕ := if p.IsLeaf then p.FIRST else p.MIDDLE - 1

end Impl

/-- The primary template instantiates itself for both halves of its range. -/
inductive Instantiates : Impl → Impl → Prop where
  | low {p} : ¬p.IsLeaf → Instantiates p (.ofRange p.FIRST (p.MIDDLE - 1))
  | high {p} : ¬p.IsLeaf → Instantiates p (.ofRange p.MIDDLE p.LAST)

variable {buckets : List SizeT} {s : SizeT} {p q : Impl}

/-- The call in the branch that `step(s)` takes. -/
inductive Calls (buckets : List SizeT) (s : SizeT) : Impl → Impl → Prop where
  | low {p n} : ¬p.IsLeaf → buckets[p.index]? = some n → s ≤ n →
      Calls buckets s p (.ofRange p.FIRST (p.MIDDLE - 1))
  | high {p n} : ¬p.IsLeaf → buckets[p.index]? = some n → ¬s ≤ n →
      Calls buckets s p (.ofRange p.MIDDLE p.LAST)

/-- Only what has been instantiated is called. -/
lemma Calls.instantiates (call : Calls buckets s p q) : Instantiates p q := by
  cases call with
  | low hleaf => exact .low hleaf
  | high hleaf => exact .high hleaf

/-- With the default split, a range of one entry selects the specialisation and a longer range passes
the assertions. -/
lemma Impl.admissible_ofRange {FIRST LAST : ℕ} (h : FIRST ≤ LAST) :
    (ofRange FIRST LAST).Admissible := by
  cases Nat.lt_or_eq_of_le h with
  | inl hlt =>
    refine .inr ⟨hlt, ?_, ?_⟩
    · show FIRST < (FIRST + LAST + 1) / 2
      omega
    · show (FIRST + LAST + 1) / 2 ≤ LAST
      omega
  | inr heq =>
    refine .inl ⟨heq, ?_⟩
    show (FIRST + LAST + 1) / 2 = FIRST
    omega

/-- The index is in the range. -/
lemma Impl.Admissible.index_bounds (adm : p.Admissible) : p.FIRST ≤ p.index ∧ p.index ≤ p.LAST := by
  rw [index]
  split
  case isTrue hleaf => exact ⟨le_rfl, hleaf.1.le⟩
  case isFalse hleaf =>
    obtain ⟨-, hlt, hle⟩ := adm.resolve_left hleaf
    omega

/-- One instantiation leads to a shorter range. -/
lemma Instantiates.shrinks (adm : p.Admissible) (inst : Instantiates p q) :
    q.Admissible ∧ (p.FIRST ≤ q.FIRST ∧ q.LAST ≤ p.LAST) ∧ q.LAST - q.FIRST < p.LAST - p.FIRST := by
  cases inst with
  | low hleaf =>
    obtain ⟨-, hlt, hle⟩ := adm.resolve_left hleaf
    refine ⟨Impl.admissible_ofRange (by omega), ⟨le_rfl, ?_⟩, ?_⟩
    · show p.MIDDLE - 1 ≤ p.LAST
      omega
    · show p.MIDDLE - 1 - p.FIRST < p.LAST - p.FIRST
      omega
  | high hleaf =>
    obtain ⟨-, hlt, hle⟩ := adm.resolve_left hleaf
    refine ⟨Impl.admissible_ofRange hle, ⟨hlt.le, le_rfl⟩, ?_⟩
    show p.LAST - p.MIDDLE < p.LAST - p.FIRST
    omega

/-- All instantiations are accepted and stay in the range of the first. -/
lemma instantiates_run (adm : p.Admissible) (run : ReflTransGen Instantiates p q) :
    q.Admissible ∧ p.FIRST ≤ q.FIRST ∧ q.LAST ≤ p.LAST := by
  induction run with
  | refl => exact ⟨adm, le_rfl, le_rfl⟩
  | tail _ inst ih =>
    obtain ⟨hadm, hfirst, hlast⟩ := ih
    obtain ⟨hadm', ⟨hfirst', hlast'⟩, -⟩ := inst.shrinks hadm
    exact ⟨hadm', hfirst.trans hfirst', hlast'.trans hlast⟩

/-- The compiler runs out of instantiations. -/
lemma acc_instantiates (adm : p.Admissible) : Acc (fun r q => Instantiates q r) p := by
  induction hsize : p.LAST - p.FIRST using Nat.strong_induction_on generalizing p with
  | h size ih =>
    constructor
    intro q inst
    obtain ⟨hadm, -, hlt⟩ := inst.shrinks adm
    exact ih _ (hsize ▸ hlt) hadm rfl

/-! ## The search -/

/-- The bucket `k` holds `n`, and it is the first one in the table that is at least `s`. -/
structure Least (buckets : List SizeT) (s : SizeT) (k : ℕ) (n : SizeT) : Prop where
  get : buckets[k]? = some n
  le : s ≤ n
  lt : ∀ i < k, ∀ m, buckets[i]? = some m → m < s

/-- There is one least bucket. -/
lemma Least.unique {k l : ℕ} {n m : SizeT} (least : Least buckets s k n) (least' : Least buckets s l m) :
    l = k ∧ m = n := by
  have hkl : k = l := by
    rcases Nat.lt_trichotomy k l with hlt | heq | hgt
    · exact absurd least.le (BitVec.not_le.2 (least'.lt k hlt n least.get))
    · exact heq
    · exact absurd least'.le (BitVec.not_le.2 (least.lt l hgt m least'.get))
  subst hkl
  exact ⟨rfl, Option.some.inj (least'.get.symm.trans least.get)⟩

/-- The least bucket that holds `s` lies in the range of `p`. -/
structure Bracket (buckets : List SizeT) (s : SizeT) (p : Impl) : Prop where
  admissible : p.Admissible
  high : ∃ n, buckets[p.LAST]? = some n ∧ s ≤ n
  low : ∀ i < p.FIRST, ∀ m, buckets[i]? = some m → m < s

/-- All buckets up to one that is too small are too small. -/
lemma lt_of_sorted {i j : ℕ} {m n : SizeT} (hsorted : buckets.Pairwise (· < ·)) (hij : i ≤ j)
    (hi : buckets[i]? = some m) (hj : buckets[j]? = some n) (hlt : n < s) : m < s := by
  obtain ⟨hi', rfl⟩ := List.getElem?_eq_some_iff.1 hi
  obtain ⟨hj', rfl⟩ := List.getElem?_eq_some_iff.1 hj
  cases Nat.lt_or_eq_of_le hij with
  | inl hlt' => exact BitVec.lt_trans (List.pairwise_iff_getElem.1 hsorted _ _ hi' hj' hlt') hlt
  | inr heq =>
    subst heq
    exact hlt

/-- The branch that is taken keeps the least bucket in its range. -/
lemma Bracket.calls (hsorted : buckets.Pairwise (· < ·)) (br : Bracket buckets s p)
    (hleaf : ¬p.IsLeaf) : ∃ q, Calls buckets s p q ∧ Bracket buckets s q := by
  obtain ⟨-, hlt, hle⟩ := br.admissible.resolve_left hleaf
  obtain ⟨b, hb, hsb⟩ := br.high
  have hindex : p.index = p.MIDDLE - 1 := if_neg hleaf
  obtain ⟨n, hn⟩ : ∃ n, buckets[p.index]? = some n := by
    obtain ⟨hlast, -⟩ := List.getElem?_eq_some_iff.1 hb
    exact ⟨_, List.getElem?_eq_getElem (by omega)⟩
  by_cases hs : s ≤ n
  · refine ⟨_, .low hleaf hn hs, Impl.admissible_ofRange (by omega), ⟨n, ?_, hs⟩, br.low⟩
    rwa [hindex] at hn
  · refine ⟨_, .high hleaf hn hs, Impl.admissible_ofRange hle, ⟨b, hb, hsb⟩, ?_⟩
    intro i hi m hm
    have hi' : i < p.MIDDLE := hi
    exact lt_of_sorted hsorted (by omega) hm hn (BitVec.not_le.1 hs)

/-- The search ends at the specialisation for one bucket. -/
lemma Bracket.run (hsorted : buckets.Pairwise (· < ·)) (br : Bracket buckets s p) :
    ∃ k, ReflTransGen (Calls buckets s) p ⟨k, k, k⟩ ∧ Bracket buckets s ⟨k, k, k⟩ := by
  induction acc_instantiates br.admissible with
  | intro p _ ih =>
    by_cases hleaf : p.IsLeaf
    · obtain ⟨FIRST, LAST, MIDDLE⟩ := p
      obtain ⟨rfl, rfl⟩ : FIRST = LAST ∧ MIDDLE = FIRST := hleaf
      exact ⟨_, .refl, br⟩
    · obtain ⟨q, call, br'⟩ := br.calls hsorted hleaf
      obtain ⟨k, run, hk⟩ := ih q call.instantiates br'
      exact ⟨k, .head call run, hk⟩

/-- An index in the table reads its entry. -/
lemma entry_of_get {i : ℕ} {n : SizeT} (h : buckets[i]? = some n) : entry buckets i = .ok n := by
  rw [entry, h]

/-- The only entry of the table that an instantiation reads itself is that of its index. -/
lemma step_reads_index (adm : p.Admissible) :
    step buckets s p.FIRST p.LAST p.MIDDLE = entry buckets p.index >>= fun n =>
      if p.IsLeaf then .ok n
      else if s ≤ n then step buckets s p.FIRST (p.MIDDLE - 1) ((p.FIRST + (p.MIDDLE - 1) + 1) / 2)
      else step buckets s p.MIDDLE p.LAST ((p.MIDDLE + p.LAST + 1) / 2) := by
  rw [step, Impl.index]
  by_cases hleaf : p.IsLeaf
  · have hrange : p.FIRST = p.LAST ∧ p.MIDDLE = p.FIRST := hleaf
    rw [if_pos hrange, if_pos hleaf]
    cases entry buckets p.FIRST with
    | error e => rfl
    | ok n => exact (if_pos hleaf).symm
  · have hrange : ¬(p.FIRST = p.LAST ∧ p.MIDDLE = p.FIRST) := hleaf
    obtain ⟨hlt, hlt', hle⟩ := adm.resolve_left hleaf
    rw [if_neg hrange, if_neg hleaf, dif_pos ⟨hlt, hlt', hle⟩]
    cases entry buckets (p.MIDDLE - 1) with
    | error e => rfl
    | ok n => exact (if_neg hleaf).symm

/-- Below the root of a subtree, the entry decides which half is searched. -/
lemma step_of_not_leaf {n : SizeT} (adm : p.Admissible) (hleaf : ¬p.IsLeaf)
    (hread : buckets[p.index]? = some n) :
    step buckets s p.FIRST p.LAST p.MIDDLE =
      if s ≤ n then step buckets s p.FIRST (p.MIDDLE - 1) ((p.FIRST + (p.MIDDLE - 1) + 1) / 2)
      else step buckets s p.MIDDLE p.LAST ((p.MIDDLE + p.LAST + 1) / 2) := by
  rw [step_reads_index adm, entry_of_get hread]
  exact if_neg hleaf

/-- `step` returns what the call in the branch returns. -/
lemma Calls.step_eq (adm : p.Admissible) (call : Calls buckets s p q) :
    step buckets s p.FIRST p.LAST p.MIDDLE = step buckets s q.FIRST q.LAST q.MIDDLE := by
  cases call with
  | low hleaf hread hs => exact (step_of_not_leaf adm hleaf hread).trans (if_pos hs)
  | high hleaf hread hs => exact (step_of_not_leaf adm hleaf hread).trans (if_neg hs)

/-- A call runs through instantiations only. -/
lemma calls_run (run : ReflTransGen (Calls buckets s) p q) : ReflTransGen Instantiates p q :=
  ReflTransGen.mono (fun _ _ => Calls.instantiates) _ _ run

/-- `step` returns what the last call of a run returns. -/
lemma step_run (adm : p.Admissible) (run : ReflTransGen (Calls buckets s) p q) :
    step buckets s p.FIRST p.LAST p.MIDDLE = step buckets s q.FIRST q.LAST q.MIDDLE := by
  induction run with
  | refl => rfl
  | tail run call ih => exact ih.trans (call.step_eq (instantiates_run adm (calls_run run)).1)

/-- `step` finds the least bucket. -/
lemma Bracket.step_least (hsorted : buckets.Pairwise (· < ·)) (br : Bracket buckets s p) :
    ∃ k n, (p.FIRST ≤ k ∧ k ≤ p.LAST) ∧ ReflTransGen (Calls buckets s) p ⟨k, k, k⟩ ∧
      step buckets s p.FIRST p.LAST p.MIDDLE = .ok n ∧ Least buckets s k n := by
  obtain ⟨k, run, -, ⟨n, hn, hs⟩, hlow⟩ := br.run hsorted
  refine ⟨k, n, (instantiates_run br.admissible (calls_run run)).2, run, ?_, hn, hs, hlow⟩
  rw [step_run br.admissible run, step, if_pos ⟨rfl, rfl⟩, entry_of_get hn]

/-- On a strictly ascending table `step` is a binary search, for every range and every split that the
assertions accept. -/
theorem step_binary_search (hsorted : buckets.Pairwise (· < ·)) (hadm : p.IsLeaf ∨ p.StaticAsserts)
    (hlast : p.LAST < buckets.length) (hhigh : s ≤ buckets[p.LAST])
    (hlow : p.FIRST = 0 ∨ ∃ m, buckets[p.FIRST - 1]? = some m ∧ m < s) :
    Acc (fun r q => Instantiates q r) p ∧
      (∀ q, ReflTransGen Instantiates p q →
        (q.IsLeaf ∨ q.StaticAsserts) ∧ p.FIRST ≤ q.index ∧ q.index ≤ p.LAST) ∧
      (∀ q, ReflTransGen (Calls buckets s) p q → ReflTransGen Instantiates p q ∧
        step buckets s p.FIRST p.LAST p.MIDDLE = step buckets s q.FIRST q.LAST q.MIDDLE) ∧
      ∃ k n, (p.FIRST ≤ k ∧ k ≤ p.LAST) ∧ ReflTransGen (Calls buckets s) p ⟨k, k, k⟩ ∧
        step buckets s p.FIRST p.LAST p.MIDDLE = .ok n ∧ Least buckets s k n ∧
        ∀ l m, Least buckets s l m → l = k ∧ m = n := by
  have br : Bracket buckets s p := by
    refine ⟨hadm, ⟨_, List.getElem?_eq_getElem hlast, hhigh⟩, ?_⟩
    intro i hi m hm
    cases hlow with
    | inl hzero => omega
    | inr hprev =>
      obtain ⟨n, hn, hlt⟩ := hprev
      exact lt_of_sorted hsorted (by omega) hm hn hlt
  refine ⟨acc_instantiates hadm, ?_, fun q run => ⟨calls_run run, step_run hadm run⟩, ?_⟩
  · intro q run
    obtain ⟨hadm', hfirst, hlast'⟩ := instantiates_run hadm run
    obtain ⟨hle, hge⟩ := hadm'.index_bounds
    exact ⟨hadm', hfirst.trans hle, hge.trans hlast'⟩
  · obtain ⟨k, n, hk, run, hstep, least⟩ := br.step_least hsorted
    exact ⟨k, n, hk, run, hstep, least, fun l m => least.unique⟩

/-- A subtree that does not start at the first bucket and splits off a single one. -/
theorem step_binary_search_lopsided :
    ∃ k n, (4 ≤ k ∧ k ≤ 9) ∧ step sizeBuckets 70 4 9 5 = .ok n ∧ Least sizeBuckets 70 k n := by
  obtain ⟨-, -, -, k, n, hk, -, hstep, least, -⟩ := step_binary_search (s := 70) (p := ⟨4, 9, 5⟩)
    (show sizeBuckets.Pairwise (· < ·) by decide) (.inr ⟨by decide, by decide, by decide⟩) (by decide)
    (by decide) (.inr ⟨56, rfl, by decide⟩)
  exact ⟨k, n, hk, hstep, least⟩

/-- The root of the dispatcher. -/
lemma bracket_dispatch (hmax : s ≤ maxSize) : Bracket sizeBuckets s ⟨0, bucketCount - 1, 16⟩ where
  admissible := .inr ⟨by decide, by decide, by decide⟩
  high := ⟨maxSize, rfl, hmax⟩
  low := fun i hi => absurd hi (Nat.not_lt_zero i)

/-- For the sizes that pass its assertions the dispatcher selects a bucket that is large enough. -/
lemma exists_dispatch (cfg : Config) (hpos : 0 < s) (hmax : s ≤ maxSize) :
    ∃ n, dispatch cfg s = .ok n ∧ s ≤ n := by
  obtain ⟨k, n, -, -, hrun, least⟩ := (bracket_dispatch hmax).step_least (by decide)
  have hstep : step sizeBuckets s 0 (bucketCount - 1) 16 = .ok n := hrun
  refine ⟨n, ?_, least.le⟩
  rw [dispatch, sacoAssert_ok (.inr (decide_eq_true hpos)), sacoAssert_ok (.inr (decide_eq_true hmax))]
  exact hstep

end Saco.Shared
