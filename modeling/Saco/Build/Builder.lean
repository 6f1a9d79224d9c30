import Saco.Build.Unique
import Saco.Layout.Align

/-!
# `build_unique` for any builder

A specialisation of `builder` is code that is instantiated with both contexts. Here it may do anything
to a store of its own, which it shares with the destructor. `buildUnique` of `Saco/Build/Unique.lean` is
the case of a builder that makes the calls of a plan (`buildUniqueOf_plan`).

Runs are evaluated: there is one equation for each call.
-/

namespace Saco.Build
open Exec Layout

variable {A C α β : Type}

/-- A specialisation of `builder` whose `build` has been given its arguments. -/
structure Builder (A : Type) where
  build {C : Type} [Context C] : (memory : SizeT) → Code C A SizeT

/-- Run code on a context of its own. What it does to the store remains done. -/
def inContext (ctx : C) (x : Code C A α) : Program Abort Event A (α × C) := fun w =>
  match x ⟨w.clock, w.log, ⟨ctx, w.vars⟩⟩ with
  | .ok a w' => .ok (a, w'.vars.ctx) ⟨w'.clock, w'.log, w'.vars.args⟩
  | .error e w' => .error e ⟨w'.clock, w'.log, w'.vars.args⟩

/-- The measure pass of `build_unique`. -/
def measureOf (env : Env) (T : CxxType) (builder : Builder A) : Program Abort Event A SizeT := do
  let (_, mctx) ← inContext (MeasureContext.init env.cfg) (place env T builder.build)
  return mctx.requiredSize

/-- The construct pass of `build_unique`. -/
def constructOf (env : Env) (T : CxxType) (builder : Builder A) (mem size : SizeT) :
    Program Abort Event A SizeT := do
  let (p, _) ← inContext (ConstructContext.init mem size) (place env T builder.build)
  return p

/-- `build_unique<T>`, for a `T` whose destructor is `destroy`. -/
def buildUniqueOf (env : Env) (T : CxxType) (builder : Builder A)
    (destroy : SizeT → Program Abort Event A Unit) : Program Abort Event A SizeT := do
  let requiredSize ← measureOf env T builder
  let rawMemory ← allocRaw env requiredSize
  let obj ← unwinding Abort.unwinds (freeRaw rawMemory)
    (constructOf env T builder rawMemory requiredSize)
  unwinding Abort.unwinds (do destroy obj; freeRaw obj)
    (check env.cfg "obj.get() == rmem" (obj == rawMemory))
  return obj

/-! ## Plans -/

/-- The builder that makes the calls of a plan. -/
def Builder.plan (env : Env) (children : List Plan) : Builder Unit where
  build := Build.build env 0 (runAll env 1 children)

/-- Without a store there is nothing to share. -/
lemma inContext_bind {ctx : C} {x : Code C Unit α} {f : α → C → β} :
    (do let (a, ctx') ← inContext ctx x; return f a ctx' : Program Abort Event Unit β) =
      (do let (a, s) ← withVars (⟨ctx, ()⟩ : Scope C Unit) x; return f a s.ctx) := by
  funext w
  change EStateM.bind (inContext ctx x) _ w = EStateM.bind (withVars ⟨ctx, ()⟩ x) _ w
  simp only [inContext, EStateM.bind, withVars]
  cases x ⟨w.clock, w.log, ⟨ctx, w.vars⟩⟩ with
  | ok a w' => rfl
  | error e w' => rfl

/-- The general `build_unique` does for a plan what `buildUnique` does. -/
theorem buildUniqueOf_plan (env : Env) (T : CxxType) (children : List Plan) :
    buildUniqueOf env T (.plan env children) (fun p => emit (.destroy p)) =
      buildUnique env T children := by
  have hmeasure : measureOf env T (.plan env children) = measure env T children :=
    inContext_bind (f := fun (_ : SizeT) mctx => MeasureContext.requiredSize mctx)
  have hconstruct : constructOf env T (.plan env children) = construct env T children := by
    funext mem size
    exact inContext_bind (f := fun p _ => p)
  rw [buildUniqueOf, hmeasure, hconstruct]
  rfl

/-! ## Runs -/

variable {env : Env} {T : CxxType} {builder : Builder A} {t : TypedRequest} {clock clock' : ℕ}
  {log log' : List Event} {st st' : A}

/-- A run in a context that returns. -/
lemma inContext_run {ctx ctx' : C} {x : Code C A α} {a : α}
    (h : x ⟨clock, log, ⟨ctx, st⟩⟩ = .ok a ⟨clock', log', ⟨ctx', st'⟩⟩) :
    inContext ctx x ⟨clock, log, st⟩ = .ok (a, ctx') ⟨clock', log', st'⟩ := by
  rw [inContext, h]

/-- A run in a context that fails. -/
lemma inContext_run_error {ctx ctx' : C} {x : Code C A α} {e : Abort}
    (h : x ⟨clock, log, ⟨ctx, st⟩⟩ = .error e ⟨clock', log', ⟨ctx', st'⟩⟩) :
    inContext ctx x ⟨clock, log, st⟩ = .error e ⟨clock', log', st'⟩ := by
  rw [inContext, h]

/-- A request that the context answers. -/
lemma allocateSpace_run [Context C] {ctx ctx' : C} {a : SizeT}
    (h : Context.allocateSpace0 env.cfg t.request.ALIGN t.request.size ctx = .ok (a, ctx')) :
    (allocateSpace env.cfg t : Code C A SizeT) ⟨clock, log, ⟨ctx, st⟩⟩ =
      .ok a ⟨clock, log ++ [.request t.request], ⟨ctx', st⟩⟩ := by
  have happly : Scope.allocateSpace env.cfg t (⟨ctx, st⟩ : Scope C A) = .ok (a, ⟨ctx', st⟩) := by
    rw [Scope.allocateSpace, h]
    rfl
  exact (bind_run emit_run).trans (apply_run happly)

/-- The measure pass moves the offset. The type is not over-aligned. -/
lemma measure_space_run {mctx : MeasureContext}
    (h : t.request.ALIGN.value ≤ env.cfg.maxNewAlignment.value)
    (hdvd : t.request.ALIGN.value.toNat ∣ mctx.mOffset.toNat) :
    (allocateSpace env.cfg t : Code MeasureContext A SizeT) ⟨clock, log, ⟨mctx, st⟩⟩ =
      .ok 0 ⟨clock, log ++ [.request t.request],
        ⟨{ mctx with mOffset := mctx.mOffset + t.request.size }, st⟩⟩ := by
  refine allocateSpace_run ?_
  change MeasureContext.allocateSpace0 env.cfg t.request.ALIGN t.request.size mctx = _
  rw [MeasureContext.allocateSpace0, if_pos h, alignAndAdd, align_of_dvd hdvd]
  rfl

/-- Space that fits is handed out. -/
lemma construct_space_run {x e : SizeT} (hdvd : t.request.ALIGN.value.toNat ∣ x.toNat)
    (hfit : x + t.request.size ≤ e) :
    (allocateSpace env.cfg t : Code ConstructContext A SizeT) ⟨clock, log, ⟨⟨x, e⟩, st⟩⟩ =
      .ok x ⟨clock, log ++ [.request t.request], ⟨⟨x + t.request.size, e⟩, st⟩⟩ := by
  refine allocateSpace_run ?_
  change ConstructContext.allocateSpace0 env.cfg t.request.ALIGN t.request.size ⟨x, e⟩ = _
  simp only [ConstructContext.allocateSpace0, alignAndAdd, align_of_dvd hdvd,
    sacoAssert_ok (.inr (decide_eq_true hfit))]
  rfl

section

variable {destroy : SizeT → Program Abort Event A Unit} {size : SizeT} {w : World Event A}

/-- An assertion that holds. -/
lemma check_run {cfg : Config} {expr : String} {holds : Bool} (h : holds = true) :
    check cfg expr holds w = .ok () w := by
  refine apply_run (s := w.vars) ?_
  rw [sacoAssert_ok (.inr h)]
  rfl

/-- There is memory. -/
lemma allocRaw_run (h : env.throws clock = false)
    (haligned : allocRawAligned env.cfg size (env.operatorNew clock) = true) :
    (allocRaw env size : Program Abort Event A SizeT) ⟨clock, log, st⟩ =
      .ok (env.operatorNew clock)
        ⟨clock + 1, log ++ [.obtain (env.operatorNew clock) (.raw size)], st⟩ := by
  have hnew : (operatorNew env (.raw size) : Program Abort Event A SizeT) ⟨clock, log, st⟩ =
      .ok (env.operatorNew clock)
        ⟨clock + 1, log ++ [.obtain (env.operatorNew clock) (.raw size)], st⟩ :=
    (bind_run (tick_run h)).trans (bind_run emit_run)
  exact (bind_run hnew).trans (bind_run (check_run haligned))

/-- There is none. -/
lemma allocRaw_run_error (h : env.throws clock = true) :
    (allocRaw env size : Program Abort Event A SizeT) ⟨clock, log, st⟩ =
      .error .exception ⟨clock + 1, log, st⟩ :=
  bind_run_error (bind_run_error (tick_run_error h))

/-- The construct pass has returned the address of its block. -/
lemma buildUniqueOf_run
    (hmeasure : measureOf env T builder ⟨clock, log, st⟩ = .ok size ⟨clock', log', st'⟩)
    (hnew : env.throws clock' = false)
    (haligned : allocRawAligned env.cfg size (env.operatorNew clock') = true)
    (hconstruct : constructOf env T builder (env.operatorNew clock') size
      ⟨clock' + 1, log' ++ [.obtain (env.operatorNew clock') (.raw size)], st'⟩ =
        .ok (env.operatorNew clock') w) :
    buildUniqueOf env T builder destroy ⟨clock, log, st⟩ = .ok (env.operatorNew clock') w := by
  refine (bind_run hmeasure).trans ((bind_run (allocRaw_run hnew haligned)).trans ?_)
  refine (bind_run (unwinding_ok hconstruct)).trans ?_
  exact bind_run (unwinding_ok (check_run (beq_self_eq_true _)))

/-- The construct pass has thrown, and the block is freed. -/
lemma buildUniqueOf_run_throw {clock'' : ℕ} {log'' : List Event} {st'' : A}
    (hmeasure : measureOf env T builder ⟨clock, log, st⟩ = .ok size ⟨clock', log', st'⟩)
    (hnew : env.throws clock' = false)
    (haligned : allocRawAligned env.cfg size (env.operatorNew clock') = true)
    (hconstruct : constructOf env T builder (env.operatorNew clock') size
      ⟨clock' + 1, log' ++ [.obtain (env.operatorNew clock') (.raw size)], st'⟩ =
        .error .exception ⟨clock'', log'', st''⟩) :
    buildUniqueOf env T builder destroy ⟨clock, log, st⟩ =
      .error .exception ⟨clock'', log'' ++ [.free (env.operatorNew clock')], st''⟩ := by
  refine (bind_run hmeasure).trans ((bind_run (allocRaw_run hnew haligned)).trans ?_)
  exact bind_run_error (unwinding_clean hconstruct rfl emit_run)

/-- There was no memory. -/
lemma buildUniqueOf_run_error
    (hmeasure : measureOf env T builder ⟨clock, log, st⟩ = .ok size ⟨clock', log', st'⟩)
    (hnew : env.throws clock' = true) :
    buildUniqueOf env T builder destroy ⟨clock, log, st⟩ = .error .exception ⟨clock' + 1, log', st'⟩ :=
  (bind_run hmeasure).trans (bind_run_error (allocRaw_run_error hnew))

end

end Saco.Build
