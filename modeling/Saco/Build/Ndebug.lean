import Saco.Build.Unique
import Saco.Exec.Refines

/-!
# Builds without assertions

What holds when no assertion fails holds of a build with `NDEBUG` as well: with the same environment it
does what the build with assertions does, as long as no assertion stops that one.
-/

namespace Saco.Build
open Exec Layout

/-- The same build with assertions. -/
def Env.asserting (env : Env) : Env where
  cfg := { env.cfg with ndebug := false }
  throws := env.throws
  operatorNew := env.operatorNew
  storage := env.storage
  storage_aligned := env.storage_aligned

/-- A failed assertion. -/
def Stops (e : Abort) : Prop := e.unwinds = false

/-- The same result, unless an assertion fails. -/
def Agrees {α : Type} (x y : Except Abort α) : Prop := (∃ e, x = .error e ∧ Stops e) ∨ y = x

variable {C A S α β : Type} {env : Env}

/-- The same result. -/
lemma Agrees.refl {x : Except Abort α} : Agrees x x := .inr rfl

/-- One result after the other. -/
lemma Agrees.bind {x y : Except Abort α} {f g : α → Except Abort β} (h : Agrees x y)
    (hf : ∀ a, Agrees (f a) (g a)) : Agrees (x >>= f) (y >>= g) := by
  rcases h with ⟨e, rfl, he⟩ | rfl
  · exact .inl ⟨e, rfl, he⟩
  · cases y with
    | ok a => exact hf a
    | error e => exact .inr rfl

/-- An assertion that is compiled out lets the run go on. -/
lemma agrees_sacoAssert {expr : String} {holds : Bool} :
    Agrees (sacoAssert env.asserting.cfg expr holds) (sacoAssert env.cfg expr holds) := by
  cases holds with
  | true =>
    rw [sacoAssert_ok (.inr rfl), sacoAssert_ok (.inr rfl)]
    exact .refl
  | false => exact .inl ⟨_, rfl, rfl⟩

/-- The measure pass answers alike. -/
lemma agrees_measure {ALIGN : Layout.Alignment} {size : SizeT} {ctx : MeasureContext} :
    Agrees (Context.allocateSpace0 env.asserting.cfg ALIGN size ctx)
      (Context.allocateSpace0 env.cfg ALIGN size ctx) := by
  change Agrees (MeasureContext.allocateSpace0 _ ALIGN size ctx)
    (MeasureContext.allocateSpace0 _ ALIGN size ctx)
  have hover : Agrees (ctx.allocateOverAligned env.asserting.cfg ALIGN size)
      (ctx.allocateOverAligned env.cfg ALIGN size) :=
    Agrees.bind agrees_sacoAssert fun _ => .refl
  have hmax : env.asserting.cfg.maxNewAlignment = env.cfg.maxNewAlignment := rfl
  rw [MeasureContext.allocateSpace0, MeasureContext.allocateSpace0, MeasureContext.allocateSpace1,
    MeasureContext.allocateSpace1, hmax]
  split
  case isTrue => exact .refl
  case isFalse =>
    split
    case isTrue => exact .refl
    case isFalse => exact Agrees.bind hover fun _ => .refl

/-- The construct pass answers alike. -/
lemma agrees_construct {ALIGN : Layout.Alignment} {size : SizeT} {ctx : ConstructContext} :
    Agrees (Context.allocateSpace0 env.asserting.cfg ALIGN size ctx)
      (Context.allocateSpace0 env.cfg ALIGN size ctx) :=
  Agrees.bind agrees_sacoAssert fun _ => .refl

/-! ## Placing -/

section

variable [Context C]

/-- A context whose requests only differ in the assertions. -/
def OnlyAsserts (C : Type) [Context C] (env : Env) : Prop :=
  ∀ ALIGN size (ctx : C), Agrees (Context.allocateSpace0 env.asserting.cfg ALIGN size ctx)
    (Context.allocateSpace0 env.cfg ALIGN size ctx)

variable {depth : ℕ} {T : CxxType}

/-- A request. -/
lemma refines_allocateSpace (hC : OnlyAsserts C env) {t : TypedRequest} :
    Refines Stops (allocateSpace env.asserting.cfg t : Code C A SizeT) (allocateSpace env.cfg t) :=
  .bind .refl fun _ => .apply fun s => Agrees.bind (hC _ _ s.ctx) fun _ => .refl

/-- A builder. -/
lemma refines_build {children children' : Code C A Unit} {memory : SizeT}
    (h : Refines Stops children children') :
    Refines Stops (build env.asserting depth children memory) (build env depth children' memory) :=
  .bind h fun _ => .refl

/-- `place<T>`. -/
lemma refines_place (hC : OnlyAsserts C env) {builder builder' : SizeT → Code C A SizeT}
    (h : ∀ memory, Refines Stops (builder memory) (builder' memory)) :
    Refines Stops (place env.asserting T builder) (place env T builder') :=
  .bind (refines_allocateSpace hC) h

/-- `place_for_overwrite<T>`. -/
lemma refines_placeForOverwrite (hC : OnlyAsserts C env) :
    Refines Stops (placeForOverwrite env.asserting depth T : Code C A SizeT)
      (placeForOverwrite env depth T) :=
  .bind (refines_allocateSpace hC) fun _ => .refl

/-- `place<T[]>`. -/
lemma refines_placeArray (hC : OnlyAsserts C env) {count : SizeT}
    {builder builder' : SizeT → Code C A SizeT}
    (h : ∀ memory, Refines Stops (builder memory) (builder' memory)) :
    Refines Stops (placeArray env.asserting T count builder) (placeArray env T count builder') := by
  rw [placeArray, placeArray]
  split
  case isTrue => exact .refl
  case isFalse =>
    refine .bind (refines_allocateSpace hC) fun _ => ?_
    split
    case isTrue => exact .bind (.forM (fun _ => .bind (h _) fun _ => .refl) _) fun _ => .refl
    case isFalse => exact .refl

/-- `place_for_overwrite<T[]>`. -/
lemma refines_placeForOverwriteArray (hC : OnlyAsserts C env) {count : SizeT} :
    Refines Stops (placeForOverwriteArray env.asserting depth T count : Code C A SizeT)
      (placeForOverwriteArray env depth T count) := by
  rw [placeForOverwriteArray, placeForOverwriteArray]
  split
  case isTrue => exact .refl
  case isFalse => exact .bind (refines_allocateSpace hC) fun _ => .refl

mutual

/-- A call of a plan. -/
lemma refines_run (hC : OnlyAsserts C env) (depth : ℕ) : (plan : Plan) →
    Refines Stops (plan.run env.asserting depth : Code C A SizeT) (plan.run env depth)
  | .place T children => by
    rw [Plan.run, Plan.run]
    exact refines_place hC fun _ => refines_build (refines_runAll hC (depth + 1) children)
  | .placeForOverwrite T => by
    rw [Plan.run, Plan.run]
    exact refines_placeForOverwrite hC
  | .placeArray T count children => by
    rw [Plan.run, Plan.run]
    exact refines_placeArray hC fun _ => refines_build (refines_runAll hC (depth + 1) children)
  | .placeForOverwriteArray T count => by
    rw [Plan.run, Plan.run]
    exact refines_placeForOverwriteArray hC
  | .allocateSpace t => by
    rw [Plan.run, Plan.run]
    exact refines_allocateSpace hC

/-- One call after the other. -/
lemma refines_runAll (hC : OnlyAsserts C env) (depth : ℕ) : (plans : List Plan) →
    Refines Stops (runAll env.asserting depth plans : Code C A Unit) (runAll env depth plans)
  | [] => by
    rw [runAll, runAll]
    exact .refl
  | plan :: plans => by
    rw [runAll, runAll]
    exact .bind .refl fun _ => .bind (refines_run hC depth plan) fun _ => refines_runAll hC depth plans

end

end

/-! ## `build_unique` -/

variable {T : CxxType} {children : List Plan}

/-- `SACO_ASSERT` outside of a context. -/
lemma refines_check {expr : String} {holds : Bool} :
    Refines Stops (check env.asserting.cfg expr holds : Program Abort Event S Unit)
      (check env.cfg expr holds) :=
  .apply fun _ => Agrees.bind agrees_sacoAssert fun _ => .refl

/-- The measure pass. -/
lemma refines_measure : Refines Stops (measure env.asserting T children : Program Abort Event S SizeT)
    (measure env T children) :=
  .bind (.withVars (refines_run (fun _ _ _ => agrees_measure) 0 (.place T children))) fun _ => .refl

/-- The construct pass. -/
lemma refines_construct {mem size : SizeT} :
    Refines Stops (construct env.asserting T children mem size : Program Abort Event S SizeT)
      (construct env T children mem size) :=
  .bind (.withVars (refines_run (fun _ _ _ => agrees_construct) 0 (.place T children))) fun _ => .refl

/-- A failed assertion does not unwind. -/
lemma refines_unwinding {x y : Program Abort Event S α} {cleanup : Program Abort Event S Unit}
    (h : Refines Stops x y) :
    Refines Stops (unwinding Abort.unwinds cleanup x) (unwinding Abort.unwinds cleanup y) :=
  .unwinding (fun _ he => he) h

/-- `build_unique` without assertions does what it does with them, as long as none fails. -/
lemma refines_buildUnique :
    Refines Stops (buildUnique env.asserting T children : Program Abort Event S SizeT)
      (buildUnique env T children) := by
  refine .bind refines_measure fun size => .bind ?_ fun raw => .bind ?_ fun obj =>
    .bind ?_ fun _ => .refl
  · exact .bind .refl fun p => .bind refines_check fun _ => .refl
  · exact refines_unwinding refines_construct
  · exact refines_unwinding refines_check

end Saco.Build
