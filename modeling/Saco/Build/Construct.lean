import Saco.Build.Depth
import Saco.Build.Passes
import Saco.Build.Placements
import Saco.Exec.Interrupts

/-!
# The construct pass puts objects where the plan says

`lays_run` connects the construct pass on machine words with `Plan.placements`: a run logs these steps, or
the first of them if an exception or the assertion `m_current <= m_end` ends it. It needs no bound on any
size. Where sums do not wrap, the assertion keeps the cursor in the block (`Guarded`).
-/

namespace Saco.Build
open Arith Bump Exec Layout

variable {A α β : Type} {env : Env}

/-- With assertions, and sums that do not wrap, the cursor has not left the block. -/
def Guarded (env : Env) (ctx : ConstructContext) (x : ℕ) (bs : List (Block powersOfTwo)) : Prop :=
  env.cfg.ndebug = false → x ≤ ctx.mEnd.toNat → finish x bs < 2 ^ 64 → finish x bs ≤ ctx.mEnd.toNat

/-- A run that takes the steps `f x` when the cursor stands at `x`. If it returns, it returns a value as
`value x` describes it; otherwise it has taken some of the steps. The assertion can only fail for space
that does not fit. -/
def Lays (env : Env) (value : ℕ → α → Prop) (f : ℕ → List Placement) :
    Spec Abort Event (Scope ConstructContext A) α :=
  fun s r es s' => ∀ x, s.ctx.mCurrent = BitVec.ofNat 64 x →
    match r with
    | .ok a => value x a ∧ es = (f x).map Placement.event ∧
        s'.ctx = { s.ctx with mCurrent := BitVec.ofNat 64 (finish x (blocksIn (f x))) } ∧
        Guarded env s.ctx x (blocksIn (f x))
    | .error .exception => ∃ done, done <+: f x ∧ es = done.map Placement.event ∧
        Guarded env s.ctx x (blocksIn done)
    | .error (.assertion _) => ∃ done t, done ++ [.space t] <+: f x ∧
        es = (done ++ [.space t]).map Placement.event ∧ Guarded env s.ctx x (blocksIn done) ∧
        env.cfg.ndebug = false ∧ s.ctx.mEnd.toNat < finish x (blocksIn (done ++ [.space t]))

section

variable {value : ℕ → α → Prop} {value' : ℕ → ℕ → β → Prop} {f : ℕ → List Placement}
  {x : ℕ} {ctx : ConstructContext} {bs bs' : List (Block powersOfTwo)}

/-- Nothing has been requested. -/
lemma Guarded.nil : Guarded env ctx x [] := fun _ hx _ => hx

/-- One part after the other. -/
lemma Guarded.append {ctx' : ConstructContext} (h : Guarded env ctx x bs)
    (h' : Guarded env ctx' (finish x bs) bs') (hend : ctx'.mEnd = ctx.mEnd) :
    Guarded env ctx x (bs ++ bs') := by
  intro hdebug hx hlt
  rw [finish_append] at hlt ⊢
  have hle := h hdebug hx ((le_finish _ _).trans_lt hlt)
  rw [← hend] at hle ⊢
  exact h' hdebug hle hlt

/-- Returning places nothing. -/
lemma Lays.pure {a : α} (h : ∀ x, value x a) :
    Meets (Pure.pure a : Code ConstructContext A α) (Lays env value fun _ => []) := by
  refine .pure fun s x hx => ⟨h x, rfl, ?_, Guarded.nil⟩
  change s.ctx = { s.ctx with mCurrent := BitVec.ofNat 64 x }
  rw [← hx]

/-- Steps after steps. What comes second may depend on where the cursor stood first. -/
lemma Lays.bind {y : Code ConstructContext A α} {g : α → Code ConstructContext A β}
    {f' : ℕ → ℕ → List Placement} (hy : Meets y (Lays env value f)) (hg : ∀ a, Appends (g a))
    (hgx : ∀ x a, value x a → Meets (g a) (Lays env (value' x) (f' x))) :
    Meets (y >>= g) (Lays env (fun x b => value' x (finish x (blocksIn (f x))) b)
      fun x => f x ++ f' x (finish x (blocksIn (f x)))) := by
  have hsecond : ∀ a, Meets (g a) fun s r es s' => ∀ x : {x // value x a},
      Lays env (value' x) (f' x) s r es s' := fun a => .all (hg a) fun x => hgx x a x.2
  refine .bind hy hsecond ?_ ?_
  · intro s e es s' h x hx
    have h := h x hx
    cases e with
    | exception =>
      obtain ⟨done, hdone, hes, hguard⟩ := h
      exact ⟨done, hdone.trans (List.prefix_append _ _), hes, hguard⟩
    | assertion expr =>
      obtain ⟨done, t, hdone, h⟩ := h
      exact ⟨done, t, hdone.trans (List.prefix_append _ _), h⟩
  · intro s a es s' r es' s'' h h' x hx
    obtain ⟨hvalue, rfl, hctx, hguard⟩ := h x hx
    have hend : s'.ctx.mEnd = s.ctx.mEnd := by rw [hctx]
    -- the second part starts where the first left the cursor
    have h' := h' ⟨x, hvalue⟩ (finish x (blocksIn (f x))) (by rw [hctx])
    cases r with
    | ok b =>
      obtain ⟨hvalue', rfl, hctx', hguard'⟩ := h'
      refine ⟨hvalue', List.map_append.symm, ?_, ?_⟩
      · rw [hctx', hctx, blocksIn_append, finish_append]
      · rw [blocksIn_append]
        exact hguard.append hguard' hend
    | error e =>
      cases e with
      | exception =>
        obtain ⟨done, hdone, rfl, hguard'⟩ := h'
        refine ⟨f x ++ done, (List.prefix_append_right_inj _).2 hdone, List.map_append.symm, ?_⟩
        rw [blocksIn_append]
        exact hguard.append hguard' hend
      | assertion expr =>
        obtain ⟨done, t, hdone, rfl, hguard', hdebug, hlt⟩ := h'
        refine ⟨f x ++ done, t, ?_, ?_, ?_, hdebug, ?_⟩
        · rw [List.append_assoc]
          exact (List.prefix_append_right_inj _).2 hdone
        · rw [List.append_assoc]
          exact List.map_append.symm
        · rw [blocksIn_append]
          exact hguard.append hguard' hend
        · rw [List.append_assoc, blocksIn_append, finish_append, ← hend]
          exact hlt

/-- The steps of a run whose value does not matter. -/
abbrev Steps (env : Env) (f : ℕ → List Placement) : Spec Abort Event (Scope ConstructContext A) α :=
  Lays env (fun _ _ => True) f

/-- Returning places nothing. -/
lemma Steps.pure {a : α} :
    Meets (Pure.pure a : Code ConstructContext A α) (Steps env fun _ => []) :=
  Lays.pure fun _ => trivial

/-- One part after the other. The second one starts at the cursor of the first one. -/
lemma Steps.bind {y : Code ConstructContext A α} {g : α → Code ConstructContext A β}
    {f' : ℕ → List Placement} (hy : Meets y (Steps env f)) (hg : ∀ a, Meets (g a) (Steps env f')) :
    Meets (y >>= g) (Steps env fun x => f x ++ f' (finish x (blocksIn (f x)))) :=
  Lays.bind hy (fun a => (hg a).appends) fun _ a _ => hg a

/-- A step that puts nothing. -/
lemma Steps.seq {y : Code ConstructContext A α} {g : α → Code ConstructContext A β}
    (hy : Meets y (Steps env fun _ => [])) (hg : ∀ a, Meets (g a) (Steps env f)) :
    Meets (y >>= g) (Steps env f) :=
  Steps.bind hy hg

/-- Another value is returned. -/
lemma Steps.thenReturn {y : Code ConstructContext A α} {b : β} (hy : Meets y (Steps env f)) :
    Meets (do let _ ← y; return b) (Steps env f) := by
  have h := Steps.bind hy fun _ => Steps.pure (a := b)
  simpa only [List.append_nil] using h

end

variable {depth : ℕ} {T : CxxType} {f : ℕ → List Placement}

/-- User code places nothing. -/
lemma steps_mayThrow : Meets (mayThrow env : Code ConstructContext A Unit) (Steps env fun _ => []) := by
  have htick : Meets (tick env.throws .exception : Code ConstructContext A ℕ)
      fun s r es s' => es = [] ∧ s' = s ∧ ∀ e, r = .error e → e = .exception := by
    refine .tick (fun s t => ⟨rfl, rfl, nofun⟩) fun s t _ => ⟨rfl, rfl, fun e he => ?_⟩
    cases he
    rfl
  refine Steps.thenReturn (htick.mono fun s r es s' h x hx => ?_)
  obtain ⟨rfl, rfl, herror⟩ := h
  cases r with
  | ok t =>
    refine ⟨trivial, rfl, ?_, Guarded.nil⟩
    change s'.ctx = { s'.ctx with mCurrent := BitVec.ofNat 64 x }
    rw [← hx]
  | error e =>
    obtain rfl := herror e rfl
    exact ⟨[], List.nil_prefix, rfl, Guarded.nil⟩

/-- An object is built where its memory is. -/
lemma steps_emit {a : ℕ} :
    Meets (emit (.construct depth (BitVec.ofNat 64 a)) : Code ConstructContext A Unit)
      (Steps env fun _ => [.object ⟨depth, T, a⟩]) := by
  refine .emit fun s x hx => ⟨trivial, rfl, ?_, Guarded.nil⟩
  change s.ctx = { s.ctx with mCurrent := BitVec.ofNat 64 x }
  rw [← hx]

/-- Space is handed out at the aligned cursor, unless the assertion stops the run. -/
lemma lays_allocateSpace {t : TypedRequest} :
    Meets (allocateSpace env.cfg t : Code ConstructContext A SizeT)
      (Lays env (fun x a => a = BitVec.ofNat 64 (alignUp t.request.ALIGN.nat x))
        fun _ => [.space t]) := by
  refine meets_allocateSpace.mono fun s r es s' h x hx => ?_
  obtain ⟨rfl, hctx, -⟩ := h
  change ConstructContext.allocateSpace0 env.cfg t.request.ALIGN t.request.size s.ctx = _ at hctx
  rw [ConstructContext.allocateSpace0_eq t.denotes_block hx] at hctx
  by_cases hholds : env.cfg.ndebug = true ∨
      decide (BitVec.ofNat 64 (advance x t.block) ≤ s.ctx.mEnd) = true
  -- the assertion holds or is not compiled: the cursor moves, and may wrap
  · rw [sacoAssert_ok hholds] at hctx
    cases r with
    | error e => cases hctx
    | ok a =>
      obtain ⟨rfl, hs'⟩ := Prod.mk.inj (Except.ok.inj hctx)
      refine ⟨rfl, rfl, hs'.symm, fun hdebug _ hlt => ?_⟩
      have hlt : advance x t.block < 2 ^ 64 := hlt
      have hle := hholds.resolve_left (by rw [hdebug]; exact Bool.false_ne_true)
      rw [decide_eq_true_eq, BitVec.le_def, toNat_ofNat_of_lt hlt] at hle
      exact hle
  · obtain ⟨hdebug, hgt⟩ := not_or.1 hholds
    have hassert : sacoAssert env.cfg "m_current <= m_end"
        (decide (BitVec.ofNat 64 (advance x t.block) ≤ s.ctx.mEnd)) =
          .error (.assertion "m_current <= m_end") := by
      rw [sacoAssert, if_neg]
      rwa [Bool.or_eq_true]
    rw [hassert] at hctx
    cases r with
    | ok a => cases hctx
    | error e =>
      obtain rfl := Except.error.inj hctx
      refine ⟨[], t, List.prefix_rfl, rfl, Guarded.nil, by simpa using hdebug, ?_⟩
      rw [decide_eq_true_eq, BitVec.le_def, not_le, BitVec.toNat_ofNat] at hgt
      exact hgt.trans_le (Nat.mod_le _ _)

/-- A request takes its space. -/
lemma steps_allocateSpace {t : TypedRequest} :
    Meets (allocateSpace env.cfg t : Code ConstructContext A SizeT) (Steps env fun _ => [.space t]) := by
  refine lays_allocateSpace.mono fun s r es s' h x hx => ?_
  have h := h x hx
  cases r with
  | ok a => exact ⟨trivial, h.2⟩
  | error e =>
    cases e with
    | exception => exact h
    | assertion expr => exact h

/-- Code that runs in the space it asked for. -/
lemma steps_space {t : TypedRequest} {g : SizeT → Code ConstructContext A α}
    {f : ℕ → ℕ → List Placement} (hg : ∀ memory, Appends (g memory))
    (hgx : ∀ x, Meets (g (BitVec.ofNat 64 (alignUp t.request.ALIGN.nat x))) (Steps env (f x))) :
    Meets (allocateSpace env.cfg t >>= g)
      (Steps env fun x => .space t :: f x (advance x t.block)) := by
  have hgx : ∀ x memory, memory = BitVec.ofNat 64 (alignUp t.request.ALIGN.nat x) →
      Meets (g memory) (Steps env (f x)) := by
    intro x memory hmemory
    rw [hmemory]
    exact hgx x
  exact Lays.bind lays_allocateSpace hg hgx

/-! ## The templates -/

/-- A builder places its children, then its object. -/
lemma steps_build {children : Code ConstructContext A Unit} {a : ℕ}
    (hchildren : Meets children (Steps env f)) :
    Meets (build env depth children (BitVec.ofNat 64 a))
      (Steps env fun x => f x ++ [.object ⟨depth, T, a⟩]) :=
  Steps.bind hchildren fun _ => Steps.seq steps_mayThrow fun _ => Steps.thenReturn steps_emit

/-- A constructor completes an object. -/
lemma steps_defaultInit {a : ℕ} :
    Meets (defaultInit env depth (BitVec.ofNat 64 a) : Code ConstructContext A Unit)
      (Steps env fun _ => [.object ⟨depth, T, a⟩]) :=
  Steps.seq steps_mayThrow fun _ => steps_emit

/-- The elements of an array, with what their builders put behind it. -/
lemma steps_forM {bs : List (Block powersOfTwo)} {f : ℕ → ℕ → List Placement}
    {loop : SizeT → Code ConstructContext A Unit} {address : ℕ → SizeT}
    (hblocks : ∀ i x, blocksIn (f i x) = bs)
    (hloop : ∀ i, Meets (loop (address i)) (Steps env (f i))) (k n : ℕ) :
    Meets (forM ((List.range' k n).map address) loop)
      (Steps env fun x => (List.range' k n).flatMap fun i => f i ((finish · bs)^[i - k] x)) := by
  induction n generalizing k with
  | zero => exact Steps.pure
  | succ n ih =>
    have hrest := Steps.bind (hloop k) fun _ => ih (k + 1)
    have hsteps : (fun x => (List.range' k (n + 1)).flatMap fun i => f i ((finish · bs)^[i - k] x)) =
        fun x => f k x ++ (List.range' (k + 1) n).flatMap fun i =>
          f i ((finish · bs)^[i - (k + 1)] (finish x (blocksIn (f k x)))) := by
      funext x
      rw [List.range'_succ, List.flatMap_cons, Nat.sub_self, hblocks]
      refine congrArg (f k x ++ ·) (List.flatMap_congr fun i hi => ?_)
      have hle : k + 1 ≤ i := (List.mem_range'_1.1 hi).1
      -- seen from element `k + 1`, one iteration less has been made
      rw [show i - k = i - (k + 1) + 1 by omega, Function.iterate_succ_apply]
    rw [hsteps, List.range'_succ, List.map_cons, List.forM_cons]
    exact hrest

/-- The addresses of the elements of an array. -/
lemma elements_ofNat {count : SizeT} {a : ℕ} : elements T count (BitVec.ofNat 64 a) =
    (List.range' 0 count.toNat).map fun i => BitVec.ofNat 64 (a + T.sizeof.toNat * i) := by
  rw [elements, List.range_eq_range']
  refine List.map_congr_left fun i _ => ?_
  rw [BitVec.ofNat_add, BitVec.ofNat_mul, ← eq_ofNat T.sizeof]

/-- `place<T>` takes the space, then runs the builder. -/
lemma steps_place {builder : SizeT → Code ConstructContext A SizeT} {f : ℕ → ℕ → List Placement}
    (hg : ∀ memory, Appends (builder memory))
    (hbuilder : ∀ x, Meets (builder (BitVec.ofNat 64 (alignUp T.alignof.nat x))) (Steps env (f x))) :
    Meets (place env T builder)
      (Steps env fun x => .space (.object T) :: f x (advance x (TypedRequest.object T).block)) :=
  steps_space hg hbuilder

/-- `place_for_overwrite<T>` takes the space, then completes the object. -/
lemma steps_placeForOverwrite :
    Meets (placeForOverwrite env depth T : Code ConstructContext A SizeT)
      (Steps env fun x => [.space (.object T), .object ⟨depth, T, alignUp T.alignof.nat x⟩]) :=
  steps_space (f := fun x _ => [.object ⟨depth, T, alignUp T.alignof.nat x⟩])
    (fun _ => .bind (Meets.appends inner_defaultInit) fun _ => .pure)
    fun _ => Steps.thenReturn steps_defaultInit

/-- An array whose elements are built one by one, each with its own steps. -/
lemma steps_array {count : SizeT} {loop : SizeT → Code ConstructContext A Unit} {bs : List (Block powersOfTwo)}
    {f : ℕ → ℕ → List Placement} (hloop : ∀ a, Appends (loop a)) (hblocks : ∀ a x, blocksIn (f a x) = bs)
    (hf : ∀ a, Meets (loop (BitVec.ofNat 64 a)) (Steps env (f a))) :
    Meets (do
      let memory ← allocateSpace env.cfg (.array T count)
      forM (elements T count memory) loop
      return memory : Code ConstructContext A SizeT) (Steps env fun x => .space (.array T count) ::
        (List.range count.toNat).flatMap fun i => f (alignUp T.alignof.nat x + T.sizeof.toNat * i)
          ((finish · bs)^[i] (advance x (TypedRequest.array T count).block))) := by
  refine steps_space (f := fun x y => (List.range count.toNat).flatMap fun i =>
    f (alignUp T.alignof.nat x + T.sizeof.toNat * i) ((finish · bs)^[i] y)) (fun ts => ?_) fun x => ?_
  · exact .bind (.forM hloop _) fun _ => .pure
  · rw [elements_ofNat, List.range_eq_range']
    exact Steps.thenReturn (steps_forM (fun i => hblocks _)
      (fun i => hf (alignUp T.alignof.nat x + T.sizeof.toNat * i)) 0 count.toNat)

/-- `place<T[]>` takes the space, then runs the builder of each element. -/
lemma steps_placeArray {count : SizeT} (hcount : count ≠ 0)
    {builder : SizeT → Code ConstructContext A SizeT} {bs : List (Block powersOfTwo)}
    {f : ℕ → ℕ → List Placement} (hbuilder : ∀ a, Appends (builder a))
    (hblocks : ∀ a x, blocksIn (f a x) = bs)
    (hf : ∀ a, Meets (builder (BitVec.ofNat 64 a)) (Steps env (f a))) :
    Meets (placeArray env T count builder) (Steps env fun x => .space (.array T count) ::
      (List.range count.toNat).flatMap fun i => f (alignUp T.alignof.nat x + T.sizeof.toNat * i)
        ((finish · bs)^[i] (advance x (TypedRequest.array T count).block))) := by
  rw [placeArray, if_neg hcount]
  exact steps_array (fun a => .bind (hbuilder a) fun _ => .pure) hblocks
    fun a => Steps.thenReturn (hf a)

/-- `place_for_overwrite<T[]>` takes the space, then completes each element. -/
lemma steps_placeForOverwriteArray {count : SizeT} (hcount : count ≠ 0) :
    Meets (placeForOverwriteArray env depth T count : Code ConstructContext A SizeT)
      (Steps env fun x => .space (.array T count) :: (List.range count.toNat).map fun i =>
        .object ⟨depth, T, alignUp T.alignof.nat x + T.sizeof.toNat * i⟩) := by
  rw [placeForOverwriteArray, if_neg hcount]
  simp only [List.map_eq_flatMap]
  exact steps_array (f := fun a _ => [.object ⟨depth, T, a⟩])
    (fun a => Meets.appends inner_defaultInit) (fun _ _ => rfl) fun a => steps_defaultInit

mutual

/-- A run of a plan takes the steps of the plan. -/
lemma lays_run (depth : ℕ) : (plan : Plan) →
    Meets (plan.run env depth : Code ConstructContext A SizeT) (Steps env fun x => plan.placements depth x)
  | .place T children => by
    simp only [Plan.run, Plan.placements]
    have happends : ∀ memory, Appends
        (build env depth (runAll env (depth + 1) children) memory : Code ConstructContext A SizeT) :=
      fun _ => Meets.appends (inner_build (inner_runAll (depth + 1) children))
    exact steps_place (f := fun x y => placementsAll (depth + 1) y children ++
      [.object ⟨depth, T, alignUp T.alignof.nat x⟩]) happends
        fun x => steps_build (lays_runAll (depth + 1) children)
  | .placeForOverwrite T => by
    simp only [Plan.run, Plan.placements]
    exact steps_placeForOverwrite
  | .placeArray T count children => by
    simp only [Plan.run, Plan.placements]
    split
    case isTrue hcount =>
      rw [placeArray, if_pos hcount]
      exact Steps.pure
    case isFalse hcount =>
      have happends : ∀ memory, Appends
          (build env depth (runAll env (depth + 1) children) memory : Code ConstructContext A SizeT) :=
        fun _ => Meets.appends (inner_build (inner_runAll (depth + 1) children))
      refine steps_placeArray hcount
        (f := fun a y => placementsAll (depth + 1) y children ++ [.object ⟨depth, T, a⟩]) happends
        (fun a x => ?_) fun a => steps_build (lays_runAll (depth + 1) children)
      rw [blocksIn_append, blocksIn_placementsAll, blocksIn_object, blocksIn_nil, List.append_nil]
  | .placeForOverwriteArray T count => by
    simp only [Plan.run, Plan.placements]
    split
    case isTrue hcount =>
      rw [placeForOverwriteArray, if_pos hcount]
      exact Steps.pure
    case isFalse hcount => exact steps_placeForOverwriteArray hcount
  | .allocateSpace t => by
    simp only [Plan.run, Plan.placements]
    exact steps_allocateSpace

/-- One call after the other takes the steps of all. -/
lemma lays_runAll (depth : ℕ) : (plans : List Plan) →
    Meets (runAll env depth plans : Code ConstructContext A Unit)
      (Steps env fun x => placementsAll depth x plans)
  | [] => by
    simp only [runAll, placementsAll]
    exact Steps.pure
  | plan :: plans => by
    simp only [runAll, placementsAll]
    have hrun := Steps.bind (lays_run depth plan) fun _ => lays_runAll depth plans
    simp only [blocksIn_placements] at hrun
    exact Steps.seq steps_mayThrow fun _ => hrun

end

/-! ## Runs that were cut short -/

variable {plan : Plan} {x hi : ℕ} {done : List Placement}

/-- What has been done ends no later than the whole plan. -/
lemma finish_le_of_done (hdone : done <+: plan.placements depth x) :
    finish x (blocksIn done) ≤ finish x plan.blocks := by
  obtain ⟨rest, hrest⟩ := hdone
  rw [← blocksIn_placements depth x plan, ← hrest, blocksIn_append, finish_append]
  exact le_finish _ _

/-- The objects of the first steps end where the space ends that these asked for. -/
lemma packed_of_done (hdone : done <+: plan.placements depth x) (hhi : finish x (blocksIn done) ≤ hi) :
    Packed x hi ((objectsIn done).map Object.extent) := by
  obtain ⟨rest, hrest⟩ := hdone
  have hpacked := packed_placements depth x plan
  have hordered := ordered_placements depth x plan
  rw [← hrest] at hpacked hordered
  rw [extents_append] at hpacked
  have hbegins := hpacked.sublist (List.sublist_append_left _ _)
  refine ⟨hbegins.aligned, fun e he => ⟨(hbegins.within e he).1, ?_⟩, hbegins.apart⟩
  obtain ⟨o, ho, rfl⟩ := List.mem_map.1 he
  exact (hordered.of_append.stop_le o ho).trans hhi

/-- In a build with assertions, whatever a plan asks for and whatever ends its run: the objects that were
built are aligned, disjoint and in the block of the context, provided that the sums do not wrap. -/
theorem construct_guarded (env : Env) (hdebug : env.cfg.ndebug = false) (plan : Plan) (depth : ℕ)
    (w : World Event (Scope ConstructContext A))
    (hstart : w.vars.ctx.mCurrent.toNat ≤ w.vars.ctx.mEnd.toNat)
    (hsum : finish w.vars.ctx.mCurrent.toNat plan.blocks < 2 ^ 64) :
    ∃ taken, taken <+: plan.placements depth w.vars.ctx.mCurrent.toNat ∧
      (final (plan.run env depth w)).log = w.log ++ taken.map Placement.event ∧
      Packed w.vars.ctx.mCurrent.toNat w.vars.ctx.mEnd.toNat ((objectsIn taken).map Object.extent) := by
  obtain ⟨es, hlog, h⟩ := lays_run depth plan w
  have h := h _ (eq_ofNat w.vars.ctx.mCurrent)
  cases hrun : outcome (plan.run env depth w) with
  | ok a =>
    rw [hrun] at h
    obtain ⟨-, rfl, -, hguard⟩ := h
    have hblocks := finish_le_of_done (List.prefix_refl
      (plan.placements depth w.vars.ctx.mCurrent.toNat))
    refine ⟨_, List.prefix_rfl, hlog, packed_of_done List.prefix_rfl ?_⟩
    exact hguard hdebug hstart (hblocks.trans_lt hsum)
  | error e =>
    rw [hrun] at h
    cases e with
    | exception =>
      obtain ⟨done, hdone, rfl, hguard⟩ := h
      refine ⟨done, hdone, hlog, packed_of_done hdone ?_⟩
      exact hguard hdebug hstart ((finish_le_of_done hdone).trans_lt hsum)
    | assertion expr =>
      -- the space that did not fit was asked for, and nothing was built in it
      obtain ⟨done, t, hdone, rfl, hguard, -⟩ := h
      have hfirst := (List.prefix_append done [.space t]).trans hdone
      refine ⟨done ++ [.space t], hdone, hlog, ?_⟩
      rw [objectsIn_append, objectsIn_space, objectsIn_nil, List.append_nil]
      exact packed_of_done hfirst
        (hguard hdebug hstart ((finish_le_of_done hfirst).trans_lt hsum))

/-- The block that was measured for a nested array is too small, and the assertion stops the run. -/
theorem construct_guarded_nestedArray : ∃ taken, taken <+: nestedArray.placements 0 4096 ∧
    (final (nestedArray.run (.calm debug16) 0
      (⟨0, [], ⟨.init 4096 32, ()⟩⟩ : World Event (Scope ConstructContext Unit)))).log =
        taken.map Placement.event ∧
    Packed 4096 4128 ((objectsIn taken).map Object.extent) :=
  construct_guarded (.calm debug16) rfl nestedArray 0 ⟨0, [], ⟨.init 4096 32, ()⟩⟩ (by decide) (by decide)

end Saco.Build
