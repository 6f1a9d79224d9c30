import Mathlib.Logic.Function.Basic
import Saco.Build.Builder
import Saco.Samples.OffsetPtr

/-!
# The objects of the tests

`foo` and `bar` of `test/test_general.cpp`, with their constructors and destructors, `builder<foo>`, and
the test `general-1` for any number of bars. A `foo` holds a pointer to an array of bars and an offset
pointer to one bar more, all in one block.

`general1_eq`: what the test does, for every number of bars. Up to 4095 bars it passes, or fails a
requirement if there are none, and leaves no object and no memory behind. With more the offset pointer is
out of reach, and then the block is freed, but the bars have not been destroyed.
-/

namespace Saco.Samples
open Arith Build Exec Layout OffsetPtr

/-- `std::int16_t`. -/
def int16 : OffsetType := ⟨16, by decide, by decide⟩

/-! ## The types -/

/-- A `bar` takes space. -/
lemma bar_sizeof_ne_zero : (8 : SizeT) ≠ 0 := by decide

/-- Characters need no alignment. -/
lemma bar_alignof : isPowerOfTwo (1 : SizeT) = true := by decide

/-- The size of a `bar` is a multiple of its alignment. -/
lemma bar_sizeof_mod : (8 : SizeT) % 1 = 0 := by decide

/-- A `foo` takes space. -/
lemma foo_sizeof_ne_zero : (32 : SizeT) ≠ 0 := by decide

/-- A `foo` is aligned like its pointer. -/
lemma foo_alignof : isPowerOfTwo (8 : SizeT) = true := by decide

/-- The size of a `foo` is a multiple of its alignment. -/
lemma foo_sizeof_mod : (32 : SizeT) % 8 = 0 := by decide

/-- A destructor of the user is not trivial. -/
lemma destructor_not_trivial (_ : false = true) : false = false := rfl

/-- `bar`: eight characters, and a destructor. -/
def bar : CxxType where
  sizeof := 8
  alignof := ⟨1, bar_alignof⟩
  hasVirtualDestructor := false
  isTriviallyDestructible := false
  sizeof_ne_zero := bar_sizeof_ne_zero
  sizeof_mod_alignof := bar_sizeof_mod
  virtual_not_trivial := destructor_not_trivial

/-- `foo`, where pointers and `std::size_t` take eight bytes. -/
def foo : CxxType where
  sizeof := 32
  alignof := ⟨8, foo_alignof⟩
  hasVirtualDestructor := false
  isTriviallyDestructible := false
  sizeof_ne_zero := foo_sizeof_ne_zero
  sizeof_mod_alignof := foo_sizeof_mod
  virtual_not_trivial := destructor_not_trivial

/-- Where the member `bar2` of a `foo` is. -/
def offsetofBar2 : SizeT := 26

/-- The members of a `foo`. -/
structure Foo where
  s0 : Char
  bars : SizeT
  barCount : SizeT
  s1 : Char
  bar2 : BitVec int16.width

/-- The `signature` that the constructor of `bar` writes. -/
def signature : List Char := ['^', 'b', 'a', 'r', 'B', 'A', 'R', '$']

/-- The counters, and the members of the objects at their addresses. -/
structure Store where
  fooInstanceCount : BitVec 32
  barInstanceCount : BitVec 32
  foos : SizeT → Option Foo
  bars : SizeT → Option (List Char)

/-- Before the test. -/
def Store.init : Store where
  fooInstanceCount := 0
  barInstanceCount := 0
  foos := fun _ => none
  bars := fun _ => none

/-! ## Constructors and destructors -/

/-- `bar::bar`. -/
def Store.enterBar (st : Store) (p : SizeT) : Store :=
  { st with
    barInstanceCount := st.barInstanceCount + 1
    bars := Function.update st.bars p (some signature) }

/-- `bar::~bar`. -/
def Store.exitBar (st : Store) (p : SizeT) : Store :=
  { st with
    barInstanceCount := st.barInstanceCount - 1
    bars := Function.update st.bars p none }

/-- The body of `foo::foo`, with the members that have been initialised. -/
def Store.addFoo (st : Store) (p : SizeT) (f : Foo) : Store :=
  { st with
    fooInstanceCount := st.fooInstanceCount + 1
    foos := Function.update st.foos p (some f) }

/-- `foo::foo`. The counter is increased after the members have been initialised. -/
def Store.enterFoo (st : Store) (p bars barCount bar2 : SizeT) : Except Abort Store := do
  let bar2 ← encode int16 (p + offsetofBar2) bar2
  return st.addFoo p ⟨'0', bars, barCount, '1', bar2⟩

/-- The body of `foo::~foo` up to its loop. The members are needed afterwards. -/
def Store.exitFoo (st : Store) (p : SizeT) : Except Abort (Foo × Store) :=
  match st.foos p with
  | some f => return (f, { st with
      fooInstanceCount := st.fooInstanceCount - 1
      foos := Function.update st.foos p none })
  | none => throw (.assertion "not a foo")

/-- `bar::~bar`, in a log. -/
def destroyBar (p : SizeT) : Program Abort Event Store Unit := do
  apply fun st => return ((), st.exitBar p)
  emit (.destroy p)

/-- `foo::~foo`. The last member is destroyed after the body. -/
def destroyFoo (p : SizeT) : Program Abort Event Store Unit := do
  let f ← apply fun st => st.exitFoo p
  emit (.destroy p)
  forM (elements bar f.barCount f.bars) destroyBar
  -- the destructor of `bar2`
  if f.bar2 ≠ 0 then
    destroyBar (decode (p + offsetofBar2) f.bar2)

/-! ## Builders -/

section

variable {C : Type}

/-- `::new (memory) bar()`. -/
def newBar (depth : ℕ) (memory : SizeT) : Code C Store Unit := do
  apply fun s => return ((), { s with args := s.args.enterBar memory })
  emit (.construct depth memory)

/-- `::new (memory) foo{bars, bar_count, bar2}`. -/
def newFoo (memory bars barCount bar2 : SizeT) : Code C Store Unit := do
  apply fun s => do
    let args ← s.args.enterFoo memory bars barCount bar2
    return ((), { s with args })
  emit (.construct 0 memory)

variable [Context C]

/-- `builder<bar>::build`. -/
def buildBar (depth : ℕ) (memory : SizeT) : Code C Store SizeT := do
  if Context.isConstructContext C then
    newBar depth memory
    return memory
  else
    return 0

/-- `builder<foo>::build`. -/
def buildFoo (env : Env) (barCount memory : SizeT) : Code C Store SizeT := do
  let bars ← placeArray env bar barCount (buildBar 1)
  let bar2 ← place env bar (buildBar 1)
  if Context.isConstructContext C then
    newFoo memory bars barCount bar2
    return memory
  else
    return 0

end

/-- `builder<foo>`. -/
def fooBuilder (env : Env) (barCount : SizeT) : Builder Store where
  build := buildFoo env barCount

/-! ## The test -/

/-- What is checked and what is required while the `foo` lives. -/
def Store.checks (st : Store) (f barCount : SizeT) : Except Abort Bool :=
  match st.foos f with
  | none => throw (.assertion "not a foo")
  | some foo => do
    let before := st.fooInstanceCount == 1 && st.barInstanceCount == barCount.setWidth 32 + 1 &&
      foo.s0 == '0' && foo.s1 == '1'
    require "f->bars != nullptr" (foo.bars != 0)
    require "f->bar_count == 3" (foo.barCount == barCount)
    return before && (elements bar barCount foo.bars).all (fun b => st.bars b == some signature) &&
      st.bars (decode (f + offsetofBar2) foo.bar2) == some signature

/-- `general-1` with `bar_count` for 3. -/
def general1 (env : Env) (barCount : SizeT) : Program Abort Event Store Bool := do
  let f ← buildUniqueOf env foo (fooBuilder env barCount) destroyFoo
  let inside ← unwinding Abort.unwinds (do destroyFoo f; freeRaw f)
    (apply fun st => (st.checks f barCount).map (·, st))
  destroyFoo f
  freeRaw f
  let outside ← apply fun st =>
    return (st.fooInstanceCount == 0 && st.barInstanceCount == 0, st)
  return inside && outside

/-! ## The store -/

/-- Bars that are built are counted and signed. -/
lemma foldl_enterBar (as : List SizeT) (st : Store) : as.foldl Store.enterBar st =
    { st with
      barInstanceCount := st.barInstanceCount + BitVec.ofNat 32 as.length
      bars := fun p => if p ∈ as then some signature else st.bars p } := by
  induction as generalizing st with
  | nil => simp
  | cons a as ih =>
    rw [List.foldl_cons, ih, Store.enterBar, List.length_cons, BitVec.add_assoc, Nat.add_comm,
      BitVec.ofNat_add]
    congr 1
    funext p
    by_cases hp : p = a
    · simp [hp]
    · simp [hp]

/-- Bars that are destroyed are counted off. -/
lemma foldl_exitBar (as : List SizeT) (st : Store) : as.foldl Store.exitBar st =
    { st with
      barInstanceCount := st.barInstanceCount - BitVec.ofNat 32 as.length
      bars := fun p => if p ∈ as then none else st.bars p } := by
  induction as generalizing st with
  | nil => simp
  | cons a as ih =>
    rw [List.foldl_cons, ih, Store.exitBar, List.length_cons, Nat.add_comm, BitVec.ofNat_add]
    congr 1
    · bv_omega
    · funext p
      by_cases hp : p = a
      · simp [hp]
      · simp [hp]

/-- Bars that are destroyed after they were built leave nothing behind. -/
lemma foldl_exitBar_enterBar (as : List SizeT) :
    as.foldl Store.exitBar (as.foldl Store.enterBar .init) = .init := by
  rw [foldl_exitBar, foldl_enterBar]
  simp only [Store.init, BitVec.add_sub_cancel, Store.mk.injEq, true_and]
  funext p
  by_cases hp : p ∈ as
  · rw [if_pos hp]
  · rw [if_neg hp, if_neg hp]

/-! ## Runs of the passes -/

variable {env : Env} {n x e : SizeT} {clock : ℕ} {log : List Event} {st : Store}

/-- The request for the array, unless it is empty. -/
def arrayRequests (n : SizeT) : List Event :=
  if n = 0 then [] else [.request (TypedRequest.array bar n).request]

/-- No bar is over-aligned. -/
lemma bar_alignof_le : bar.alignof.value ≤ env.cfg.maxNewAlignment.value :=
  BitVec.le_def.2 env.cfg.maxNewAlignment.toNat_pos

/-- The measure pass over the array of bars. -/
lemma measure_placeArray {mctx : MeasureContext} :
    placeArray env bar n (buildBar 1) (⟨clock, log, ⟨mctx, st⟩⟩ : World Event (Scope _ Store)) =
      .ok 0 ⟨clock, log ++ arrayRequests n,
        ⟨{ mctx with mOffset := mctx.mOffset + bar.sizeof * n }, st⟩⟩ := by
  rw [placeArray, arrayRequests]
  by_cases hn : n = 0
  · have hsame : ({ mctx with mOffset := mctx.mOffset + bar.sizeof * n } : MeasureContext) = mctx := by
      simp [hn]
    rw [if_pos hn, if_pos hn, hsame, List.append_nil]
    rfl
  · rw [if_neg hn, if_neg hn]
    exact bind_run (measure_space_run bar_alignof_le (one_dvd _))

/-- The measure pass over the last bar. -/
lemma measure_place {mctx : MeasureContext} :
    (place env bar (buildBar 1) : Code MeasureContext Store SizeT) ⟨clock, log, ⟨mctx, st⟩⟩ =
      .ok 0 ⟨clock, log ++ [.request (TypedRequest.object bar).request],
        ⟨{ mctx with mOffset := mctx.mOffset + bar.sizeof }, st⟩⟩ :=
  bind_run (measure_space_run bar_alignof_le (one_dvd _))

/-- What the measure pass logs. -/
def requests (n : SizeT) : List Event :=
  .request (TypedRequest.object foo).request :: arrayRequests n ++
    [.request (TypedRequest.object bar).request]

/-- The size of the block. -/
def fooSize (n : SizeT) : SizeT := foo.sizeof + bar.sizeof * n + bar.sizeof

variable (n clock log st) in
/-- The measure pass over a `foo`. -/
lemma measureOf_foo (hmax : foo.alignof.value ≤ env.cfg.maxNewAlignment.value) :
    measureOf env foo (fooBuilder env n) ⟨clock, log, st⟩ =
      .ok (fooSize n) ⟨clock, log ++ requests n, st⟩ := by
  have hbuild : (buildFoo env n 0 : Code MeasureContext Store SizeT) ⟨clock,
      log ++ [.request (TypedRequest.object foo).request],
        ⟨⟨foo.sizeof, env.cfg.maxNewAlignment.value, 0⟩, st⟩⟩ =
          .ok 0 ⟨clock, log ++ requests n, ⟨⟨fooSize n, env.cfg.maxNewAlignment.value, 0⟩, st⟩⟩ := by
    refine (bind_run measure_placeArray).trans ((bind_run measure_place).trans ?_)
    rw [List.append_assoc, List.append_assoc]
    rfl
  have hplace : (place env foo (fooBuilder env n).build : Code MeasureContext Store SizeT)
      ⟨clock, log, ⟨.init env.cfg, st⟩⟩ =
        .ok 0 ⟨clock, log ++ requests n, ⟨⟨fooSize n, env.cfg.maxNewAlignment.value, 0⟩, st⟩⟩ :=
    (bind_run (measure_space_run (t := .object foo) hmax (dvd_zero _))).trans hbuild
  have hsize : MeasureContext.requiredSize ⟨fooSize n, env.cfg.maxNewAlignment.value, 0⟩ = fooSize n :=
    BitVec.add_zero _
  refine (bind_run (inContext_run hplace)).trans ?_
  change EStateM.Result.ok (MeasureContext.requiredSize _) _ = _
  rw [hsize]

/-! ## The construct pass -/

/-- The loop over the elements of the array. -/
lemma enterBars_run {ctx : ConstructContext} (as : List SizeT) :
    (forM as fun a => do let _ ← buildBar 1 a : Code ConstructContext Store Unit)
        ⟨clock, log, ⟨ctx, st⟩⟩ =
      .ok () ⟨clock, log ++ as.map (.construct 1), ⟨ctx, as.foldl Store.enterBar st⟩⟩ := by
  induction as generalizing log st with
  | nil =>
    rw [List.map_nil, List.append_nil]
    rfl
  | cons a as ih =>
    have hone : (do let _ ← buildBar 1 a : Code ConstructContext Store Unit) ⟨clock, log, ⟨ctx, st⟩⟩ =
        .ok () ⟨clock, log ++ [.construct 1 a], ⟨ctx, st.enterBar a⟩⟩ := rfl
    rw [List.forM_cons]
    refine (bind_run hone).trans (ih.trans ?_)
    rw [List.append_assoc]
    rfl

/-- The construct pass over the array of bars. -/
lemma construct_placeArray (hfit : x + bar.sizeof * n ≤ e) :
    (placeArray env bar n (buildBar 1) : Code ConstructContext Store SizeT) ⟨clock, log, ⟨⟨x, e⟩, st⟩⟩ =
      .ok (if n = 0 then 0 else x) ⟨clock,
        log ++ arrayRequests n ++ (elements bar n x).map (.construct 1),
        ⟨⟨x + bar.sizeof * n, e⟩, (elements bar n x).foldl Store.enterBar st⟩⟩ := by
  rw [placeArray, arrayRequests]
  by_cases hn : n = 0
  · have hsame : x + bar.sizeof * n = x := by
      simp [hn]
    have hnil : elements bar n x = [] := by
      rw [hn]
      rfl
    rw [if_pos hn, if_pos hn, if_pos hn, hsame, hnil, List.map_nil, List.append_nil, List.append_nil]
    rfl
  · rw [if_neg hn, if_neg hn, if_neg hn]
    refine (bind_run (construct_space_run (t := .array bar n) (one_dvd _) hfit)).trans ?_
    exact bind_run (enterBars_run _)

variable (env clock log st) in
/-- The construct pass over the last bar. -/
lemma construct_place (hfit : x + bar.sizeof ≤ e) :
    (place env bar (buildBar 1) : Code ConstructContext Store SizeT) ⟨clock, log, ⟨⟨x, e⟩, st⟩⟩ =
      .ok x ⟨clock, log ++ [.request (TypedRequest.object bar).request, .construct 1 x],
        ⟨⟨x + bar.sizeof, e⟩, st.enterBar x⟩⟩ := by
  refine (bind_run (construct_space_run (t := .object bar) (one_dvd _) hfit)).trans ?_
  have happend : log ++ [.request (TypedRequest.object bar).request, .construct 1 x] =
      log ++ [.request (TypedRequest.object bar).request] ++ [.construct 1 x] := by
    rw [List.append_assoc]
    rfl
  rw [happend]
  rfl

/-- Where `bar2` points to. -/
def bar2At (raw n : SizeT) : SizeT := raw + foo.sizeof + bar.sizeof * n

/-- The bars in a block, in the order in which they are built and destroyed. -/
def barsIn (raw n : SizeT) : List SizeT := elements bar n (raw + foo.sizeof) ++ [bar2At raw n]

/-- What the construct pass logs before the constructor of `foo`. -/
def barsBuilt (raw n : SizeT) : List Event :=
  .request (TypedRequest.object foo).request :: arrayRequests n ++
    (elements bar n (raw + foo.sizeof)).map (.construct 1) ++
      [.request (TypedRequest.object bar).request, .construct 1 (bar2At raw n)]

/-- The array is not larger than a `std::ptrdiff_t`, and the block lies in the address space. -/
structure InRange (raw n : SizeT) : Prop where
  count : n.toNat < 2 ^ 60
  fits : raw.toNat + (fooSize n).toNat < 2 ^ 64

section InRange

variable {raw : SizeT}

/-- The size does not wrap. -/
lemma toNat_fooSize (h : n.toNat < 2 ^ 60) : (fooSize n).toNat = 40 + 8 * n.toNat := by
  change (32 + 8 * n + 8 : SizeT).toNat = _
  bv_omega

/-- The `foo` fits the block. -/
lemma InRange.fits_foo (h : InRange raw n) : raw + foo.sizeof ≤ raw + fooSize n := by
  obtain ⟨hcount, hfits⟩ := h
  have hsize := toNat_fooSize hcount
  change raw + 32 ≤ raw + fooSize n
  bv_omega

/-- The array of bars fits the block behind the `foo`. -/
lemma InRange.fits_bars (h : InRange raw n) : raw + foo.sizeof + bar.sizeof * n ≤ raw + fooSize n := by
  obtain ⟨hcount, hfits⟩ := h
  have hsize := toNat_fooSize hcount
  change raw + 32 + 8 * n ≤ raw + fooSize n
  bv_omega

/-- The last bar ends with the block. -/
lemma bar2At_add : bar2At raw n + bar.sizeof = raw + fooSize n := by
  rw [bar2At, fooSize, BitVec.add_assoc, BitVec.add_assoc, BitVec.add_assoc]

/-- The address of the last bar. -/
lemma InRange.toNat_bar2At (h : InRange raw n) :
    (bar2At raw n).toNat = raw.toNat + 32 + 8 * n.toNat := by
  obtain ⟨hcount, hfits⟩ := h
  have hsize := toNat_fooSize hcount
  change (raw + 32 + 8 * n : SizeT).toNat = _
  bv_omega

/-- The address of the offset pointer. -/
lemma InRange.toNat_my (h : InRange raw n) : (raw + offsetofBar2).toNat = raw.toNat + 26 := by
  obtain ⟨hcount, hfits⟩ := h
  have hsize := toNat_fooSize hcount
  change (raw + 26 : SizeT).toNat = _
  bv_omega

/-- The offset pointer reaches over 4095 bars. -/
lemma InRange.reaches_iff (h : InRange raw n) :
    Signed int16.width (distance (raw + offsetofBar2) (bar2At raw n)).toInt ↔ n.toNat ≤ 4095 := by
  have hmy := h.toNat_my
  have hbar2 := h.toNat_bar2At
  have hne : bar2At raw n ≠ 0 := by
    intro hzero
    rw [hzero] at hbar2
    change 0 = _ at hbar2
    omega
  -- six bytes from the member to the end of `foo`, and then the array
  have hdistance : ((bar2At raw n).toNat : ℤ) - (raw + offsetofBar2).toNat = 6 + 8 * n.toNat := by
    omega
  have hcount := h.count
  rw [distance, if_neg hne, toInt_sub_of_signed (by decide), hdistance]
  · change -2 ^ 15 ≤ (6 + 8 * n.toNat : ℤ) ∧ (6 + 8 * n.toNat : ℤ) < 2 ^ 15 ↔ _
    omega
  · rw [hdistance]
    change -2 ^ 63 ≤ (6 + 8 * n.toNat : ℤ) ∧ (6 + 8 * n.toNat : ℤ) < 2 ^ 63
    omega

/-- Where the array of a `foo` is. -/
def barsAt (raw n : SizeT) : SizeT := if n = 0 then 0 else raw + foo.sizeof

variable (env) in
/-- The construct pass ends as the constructor of `foo` does. -/
lemma construct_children (h : InRange raw n) (hhead : foo.alignof.value.toNat ∣ raw.toNat)
    {r : EStateM.Result Abort (World Event (Scope ConstructContext Store)) SizeT}
    (hnew : (do newFoo raw (barsAt raw n) n (bar2At raw n); return raw : Code ConstructContext Store SizeT)
      ⟨clock, log ++ barsBuilt raw n, ⟨⟨raw + fooSize n, raw + fooSize n⟩,
        (barsIn raw n).foldl Store.enterBar st⟩⟩ = r) :
    (place env foo (fooBuilder env n).build : Code ConstructContext Store SizeT)
      ⟨clock, log, ⟨.init raw (fooSize n), st⟩⟩ = r := by
  have hfoo : (allocateSpace env.cfg (.object foo) : Code ConstructContext Store SizeT)
      ⟨clock, log, ⟨⟨raw, raw + fooSize n⟩, st⟩⟩ = _ := construct_space_run hhead h.fits_foo
  refine (bind_run hfoo).trans ((bind_run (construct_placeArray h.fits_bars)).trans ?_)
  have hfits : bar2At raw n + bar.sizeof ≤ raw + fooSize n := by
    rw [bar2At_add]
    exact BitVec.le_refl _
  have hbar2 := construct_place env clock
    (log ++ [.request (TypedRequest.object foo).request] ++ arrayRequests n ++
      (elements bar n (raw + foo.sizeof)).map (.construct 1))
    ((elements bar n (raw + foo.sizeof)).foldl Store.enterBar st) hfits
  refine (bind_run hbar2).trans (Eq.trans ?_ hnew)
  rw [bar2At_add, barsIn, List.foldl_append, barsBuilt]
  simp only [List.append_assoc, List.cons_append]
  rfl

/-- The `foo` that is built at `raw`. -/
def fooAt (raw n : SizeT) : Foo where
  s0 := '0'
  bars := barsAt raw n
  barCount := n
  s1 := '1'
  bar2 := (distance (raw + offsetofBar2) (bar2At raw n)).setWidth int16.width

/-- The constructor of `foo`, with the last bar in reach. -/
lemma newFoo_run {ctx : ConstructContext} (h : InRange raw n) (hreach : n.toNat ≤ 4095) :
    newFoo raw (barsAt raw n) n (bar2At raw n) ⟨clock, log, ⟨ctx, st⟩⟩ =
      .ok () ⟨clock, log ++ [.construct 0 raw], ⟨ctx, st.addFoo raw (fooAt raw n)⟩⟩ := by
  have henter : st.enterFoo raw (barsAt raw n) n (bar2At raw n) = .ok (st.addFoo raw (fooAt raw n)) := by
    rw [Store.enterFoo, encode_of_signed (h.reaches_iff.2 hreach)]
    rfl
  refine (bind_run (apply_run (a := ()) ?_)).trans emit_run
  rw [henter]
  rfl

/-- With more bars the constructor of `foo` throws. -/
lemma newFoo_run_error {ctx : ConstructContext} (h : InRange raw n) (hreach : ¬n.toNat ≤ 4095) :
    newFoo raw (barsAt raw n) n (bar2At raw n) ⟨clock, log, ⟨ctx, st⟩⟩ =
      .error .exception ⟨clock, log, ⟨ctx, st⟩⟩ := by
  have henter : st.enterFoo raw (barsAt raw n) n (bar2At raw n) = .error .exception := by
    rw [Store.enterFoo, encode_of_not_signed (mt h.reaches_iff.1 hreach)]
    rfl
  refine bind_run_error (apply_run_error ?_)
  rw [henter]
  rfl

variable (env clock log st) in
/-- The construct pass over a `foo`. -/
lemma constructOf_foo (h : InRange raw n) (hhead : foo.alignof.value.toNat ∣ raw.toNat)
    (hreach : n.toNat ≤ 4095) :
    constructOf env foo (fooBuilder env n) raw (fooSize n) ⟨clock, log, st⟩ =
      .ok raw ⟨clock, log ++ barsBuilt raw n ++ [.construct 0 raw],
        ((barsIn raw n).foldl Store.enterBar st).addFoo raw (fooAt raw n)⟩ :=
  bind_run (inContext_run (construct_children env h hhead (bind_run (newFoo_run h hreach))))

variable (env clock log st) in
/-- Out of reach, the constructor of `foo` throws after the bars were built. -/
lemma constructOf_foo_error (h : InRange raw n) (hhead : foo.alignof.value.toNat ∣ raw.toNat)
    (hreach : ¬n.toNat ≤ 4095) :
    constructOf env foo (fooBuilder env n) raw (fooSize n) ⟨clock, log, st⟩ =
      .error .exception ⟨clock, log ++ barsBuilt raw n, (barsIn raw n).foldl Store.enterBar st⟩ :=
  bind_run_error (inContext_run_error
    (construct_children env h hhead (bind_run_error (newFoo_run_error h hreach))))

/-! ## Destruction -/

variable (clock log st) in
/-- The loop in the destructor of `foo`. -/
lemma destroyBars_run (as : List SizeT) : forM as destroyBar ⟨clock, log, st⟩ =
    .ok () ⟨clock, log ++ as.map .destroy, as.foldl Store.exitBar st⟩ := by
  induction as generalizing log st with
  | nil =>
    rw [List.map_nil, List.append_nil]
    rfl
  | cons a as ih =>
    have hone : destroyBar a ⟨clock, log, st⟩ = .ok () ⟨clock, log ++ [.destroy a], st.exitBar a⟩ := rfl
    rw [List.forM_cons]
    refine (bind_run hone).trans ((ih _ _).trans ?_)
    rw [List.append_assoc]
    rfl

/-- The array is right behind the `foo`, if there is one. -/
lemma elements_barsAt : elements bar n (barsAt raw n) = elements bar n (raw + foo.sizeof) := by
  rw [barsAt]
  by_cases hn : n = 0
  · rw [hn]
    rfl
  · rw [if_neg hn]

/-- The offset pointer reads back the last bar. -/
lemma InRange.decode_bar2 (h : InRange raw n) (hreach : n.toNat ≤ 4095) :
    decode (raw + offsetofBar2) (fooAt raw n).bar2 = bar2At raw n := by
  have hmy := h.toNat_my
  have hbar2 := h.toNat_bar2At
  have hback := decode_distance (h.reaches_iff.2 hreach) 0#64
  rw [BitVec.add_zero, BitVec.add_zero, if_neg] at hback
  · exact hback
  · rw [not_or, ← BitVec.toNat_inj, ← BitVec.toNat_inj, hmy, hbar2]
    constructor
    · change _ ≠ 0
      omega
    · omega

/-- The destructor of `foo` finds what the constructor wrote. -/
lemma exitFoo_addFoo {f : Foo} (hst : st.foos raw = none) :
    (st.addFoo raw f).exitFoo raw = .ok (f, st) := by
  have hfoos : Function.update (Function.update st.foos raw (some f)) raw none = st.foos := by
    rw [Function.update_idem, ← hst]
    exact Function.update_eq_self raw st.foos
  have hfound : (st.addFoo raw f).foos raw = some f := by
    simp [Store.addFoo]
  rw [Store.exitFoo, hfound]
  simp only [Store.addFoo, hfoos, BitVec.add_sub_cancel]
  rfl

variable (clock log) in
/-- The destructor of `foo` destroys every bar once. -/
lemma destroyFoo_run (h : InRange raw n) (hreach : n.toNat ≤ 4095) (hst : st.foos raw = none) :
    destroyFoo raw ⟨clock, log, st.addFoo raw (fooAt raw n)⟩ =
      .ok () ⟨clock, log ++ .destroy raw :: (barsIn raw n).map .destroy,
        (barsIn raw n).foldl Store.exitBar st⟩ := by
  have hdecode := h.decode_bar2 hreach
  have hnonzero : (fooAt raw n).bar2 ≠ 0 := by
    intro hzero
    have hbar2 := h.toNat_bar2At
    rw [hzero, decode, if_pos rfl] at hdecode
    rw [← hdecode] at hbar2
    change 0 = _ at hbar2
    omega
  have hloop := destroyBars_run clock (log ++ [.destroy raw]) st (elements bar n (raw + foo.sizeof))
  rw [← elements_barsAt] at hloop
  refine (bind_run (apply_run (exitFoo_addFoo hst))).trans ((bind_run emit_run).trans ?_)
  refine (bind_run hloop).trans ?_
  rw [if_pos hnonzero, hdecode, elements_barsAt, barsIn, List.foldl_append, List.map_append]
  change EStateM.Result.ok () _ = _
  simp only [List.append_assoc, List.cons_append, List.nil_append]
  rfl

/-! ## The test -/

/-- One bar more than the array has. -/
lemma length_barsIn : (barsIn raw n).length = n.toNat + 1 := by
  rw [barsIn, List.length_append, length_elements]
  rfl

/-- The store while the bars live. -/
def barsStore (raw n : SizeT) : Store :=
  { Store.init with
    barInstanceCount := n.setWidth 32 + 1
    bars := fun p => if p ∈ barsIn raw n then some signature else none }

/-- The store after all the bars were built. -/
lemma foldl_barsIn : (barsIn raw n).foldl Store.enterBar .init = barsStore raw n := by
  have hcount : (0 : BitVec 32) + BitVec.ofNat 32 (barsIn raw n).length = n.setWidth 32 + 1 := by
    rw [length_barsIn, BitVec.ofNat_add, BitVec.ofNat_toNat]
    exact BitVec.zero_add _
  rw [foldl_enterBar, barsStore, ← hcount]
  rfl

/-- The array is null only if it is empty. -/
lemma InRange.barsAt_ne_zero (h : InRange raw n) : (barsAt raw n != 0) = (n != 0) := by
  rw [barsAt]
  by_cases hn : n = 0
  · rw [if_pos hn, hn]
  · have hne : raw + foo.sizeof ≠ 0 := by
      obtain ⟨hcount, hfits⟩ := h
      have hsize := toNat_fooSize hcount
      change raw + 32 ≠ 0
      bv_omega
    rw [if_neg hn, bne_iff_ne.2 hne, bne_iff_ne.2 hn]

/-- Everything is as the test expects it, but the array is null if it is empty. -/
lemma InRange.checks (h : InRange raw n) (hreach : n.toNat ≤ 4095) :
    ((barsStore raw n).addFoo raw (fooAt raw n)).checks raw n =
      if n = 0 then .error .exception else .ok true := by
  have hfound : ((barsStore raw n).addFoo raw (fooAt raw n)).foos raw = some (fooAt raw n) := by
    simp [Store.addFoo]
  have hsignature : ∀ b ∈ barsIn raw n, (barsStore raw n).bars b = some signature := by
    intro b hb
    exact if_pos hb
  have hall : (elements bar n (barsAt raw n)).all
      (fun b => (barsStore raw n).bars b == some signature) = true := by
    rw [elements_barsAt, List.all_eq_true]
    intro b hb
    rw [hsignature b (List.mem_append_left _ hb)]
    rfl
  have hlast : ((barsStore raw n).bars (decode (raw + offsetofBar2) (fooAt raw n).bar2) ==
      some signature) = true := by
    rw [h.decode_bar2 hreach, hsignature _ (List.mem_append_right _ (List.mem_singleton_self _))]
    rfl
  have hcount : ((barsStore raw n).barInstanceCount == n.setWidth 32 + 1) = true :=
    beq_self_eq_true _
  have hn : ((fooAt raw n).barCount == n) = true := beq_self_eq_true n
  -- only `f->bars != nullptr` is left open
  rw [Store.checks, hfound]
  change (require "f->bars != nullptr" (barsAt raw n != 0) >>= fun _ =>
    require "f->bar_count == 3" ((fooAt raw n).barCount == n) >>= fun _ =>
      .ok ((1 == (1 : BitVec 32)) && (barsStore raw n).barInstanceCount == n.setWidth 32 + 1 &&
        '0' == '0' && '1' == '1' &&
          (elements bar n (barsAt raw n)).all (fun b => (barsStore raw n).bars b == some signature) &&
            (barsStore raw n).bars (decode (raw + offsetofBar2) (fooAt raw n).bar2) ==
              some signature)) = _
  rw [hall, hlast, hcount, h.barsAt_ne_zero, require_ok hn]
  by_cases hzero : n = 0
  · rw [if_pos hzero, hzero]
    rfl
  · rw [if_neg hzero, require_ok (bne_iff_ne.2 hzero)]
    rfl

end InRange

/-- What is logged where the `foo` at `raw` is built and destroyed. -/
def builtAndDestroyed (raw n : SizeT) : List Event :=
  requests n ++ [.obtain raw (.raw (fooSize n))] ++ barsBuilt raw n ++
    [.construct 0 raw, .destroy raw] ++ (barsIn raw n).map .destroy ++ [.free raw]

/-- What `general-1` does with `n` bars. If there is memory, the block is that of `operatorNew`. -/
theorem general1_eq (env : Env) (n : SizeT) (clock : ℕ)
    (hmax : foo.alignof.value ≤ env.cfg.maxNewAlignment.value) (hn : n.toNat < 2 ^ 60)
    (supplies : env.Supplies (fooSize n)) :
    general1 env n ⟨clock, [], .init⟩ =
      if env.throws clock then
        .error .exception ⟨clock + 1, requests n, .init⟩
      else if n = 0 then
        .error .exception ⟨clock + 1, builtAndDestroyed (env.operatorNew clock) n, .init⟩
      else if n.toNat ≤ 4095 then
        .ok true ⟨clock + 1, builtAndDestroyed (env.operatorNew clock) n, .init⟩
      else
        .error .exception ⟨clock + 1,
          requests n ++ [.obtain (env.operatorNew clock) (.raw (fooSize n))] ++
            barsBuilt (env.operatorNew clock) n ++ [.free (env.operatorNew clock)],
          barsStore (env.operatorNew clock) n⟩ := by
  have hmeasure := measureOf_foo n clock [] .init hmax
  cases hthrows : env.throws clock with
  | true =>
    rw [if_pos rfl]
    exact bind_run_error (buildUniqueOf_run_error hmeasure hthrows)
  | false =>
    have hrange : InRange (env.operatorNew clock) n := ⟨hn, supplies.fits clock⟩
    have haligned := supplies.aligned clock
    have hsize : foo.alignof.value ≤ fooSize n := by
      rw [BitVec.le_def, toNat_fooSize hn]
      change 8 ≤ _
      omega
    have hhead : foo.alignof.value.toNat ∣ (env.operatorNew clock).toNat :=
      allocRawAligned_dvd haligned hmax hsize
    rw [if_neg Bool.false_ne_true]
    by_cases hreach : n.toNat ≤ 4095
    · have hconstruct := constructOf_foo env (clock + 1)
        ([] ++ requests n ++ [.obtain (env.operatorNew clock) (.raw (fooSize n))]) .init hrange hhead hreach
      rw [foldl_barsIn] at hconstruct
      have hbuild : buildUniqueOf env foo (fooBuilder env n) destroyFoo ⟨clock, [], .init⟩ = _ :=
        buildUniqueOf_run hmeasure hthrows haligned hconstruct
      have hinside := congrArg (Except.map (·, (barsStore (env.operatorNew clock) n).addFoo
        (env.operatorNew clock) (fooAt (env.operatorNew clock) n))) (hrange.checks hreach)
      have hdestroy := destroyFoo_run (clock + 1) ([] ++ requests n ++
        [.obtain (env.operatorNew clock) (.raw (fooSize n))] ++ barsBuilt (env.operatorNew clock) n ++
          [.construct 0 (env.operatorNew clock)])
        hrange hreach (rfl : (barsStore (env.operatorNew clock) n).foos (env.operatorNew clock) = none)
      -- the destructor of `foo` runs the destructors of all the bars
      have hempty : (barsIn (env.operatorNew clock) n).foldl Store.exitBar
          (barsStore (env.operatorNew clock) n) = .init := by
        rw [← foldl_barsIn]
        exact foldl_exitBar_enterBar _
      rw [hempty] at hdestroy
      have hlog : [] ++ requests n ++ [.obtain (env.operatorNew clock) (.raw (fooSize n))] ++
          barsBuilt (env.operatorNew clock) n ++ [.construct 0 (env.operatorNew clock)] ++
            .destroy (env.operatorNew clock) :: (barsIn (env.operatorNew clock) n).map .destroy ++
              [.free (env.operatorNew clock)] = builtAndDestroyed (env.operatorNew clock) n := by
        rw [builtAndDestroyed]
        simp only [List.nil_append, List.append_assoc, List.cons_append]
      rw [← hlog, if_pos hreach]
      refine (bind_run hbuild).trans ?_
      by_cases hzero : n = 0
      -- the exception of the requirement releases the object
      · rw [if_pos hzero] at hinside ⊢
        exact bind_run_error (unwinding_clean (apply_run_error hinside) rfl
          ((bind_run hdestroy).trans emit_run))
      · rw [if_neg hzero] at hinside ⊢
        refine (bind_run (unwinding_ok (apply_run hinside))).trans ?_
        exact (bind_run hdestroy).trans ((bind_run emit_run).trans (bind_run (apply_run rfl)))
    -- the block is freed, but no destructor runs for the bars that are in it
    · have hconstruct := constructOf_foo_error env (clock + 1)
        ([] ++ requests n ++ [.obtain (env.operatorNew clock) (.raw (fooSize n))]) .init hrange hhead hreach
      rw [foldl_barsIn] at hconstruct
      have hzero : n ≠ 0 := fun h => hreach (h ▸ Nat.zero_le _)
      rw [if_neg hzero, if_neg hreach]
      exact bind_run_error (buildUniqueOf_run_throw hmeasure hthrows haligned hconstruct)

/-- Three bars, as in the test. -/
theorem general1_eq_three : general1 (throwsAt 7) 3 ⟨0, [], .init⟩ =
    .ok true ⟨1, builtAndDestroyed 4096 3, .init⟩ := by
  have haligned : allocRawAligned debug16 (fooSize 3) 4096 = true := by decide
  have hfits : (4096 : SizeT).toNat + (fooSize 3).toNat < 2 ^ 64 := by decide
  exact general1_eq (throwsAt 7) 3 0 (by decide) (by decide) ⟨fun _ => haligned, fun _ => hfits⟩

end Saco.Samples
