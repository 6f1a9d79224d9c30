import Saco.Build.Unique
import Saco.Exec.Steps

/-!
# When an exception leaves a call

The library throws nothing of its own: an exception leaves a call just when a step of user code or of
`operator new` throws in it (`blames_run`, `blames_buildUnique`). What is left is a failed assertion, so a
call in which no assertion fails returns just when none of its steps throws (`Returns`).
-/

namespace Saco.Build
open Exec Layout

variable {C A S α β : Type} {env : Env} {T : CxxType} {depth : ℕ} {x : Program Abort Event S α}

/-- A program that throws just when one of the steps that it takes throws. -/
abbrev Relays (env : Env) (x : Program Abort Event S α) : Prop := Blames env.throws .exception x

/-- A run returns just when none of the steps that it takes throws. -/
def Returns (env : Env) (x : Program Abort Event S α) : Prop :=
  ∀ w, (∃ a, outcome (x w) = .ok a) ↔ ¬Fails env.throws w.clock (final (x w)).clock

/-- A run in which no assertion fails returns just when none of its steps throws. -/
lemma Relays.exists_ok {w : World Event S} (hx : Relays env x)
    (h : ∀ expr, outcome (x w) ≠ .error (.assertion expr)) :
    (∃ a, outcome (x w) = .ok a) ↔ ¬Fails env.throws w.clock (final (x w)).clock := by
  rw [← (hx w).2]
  cases hr : outcome (x w) with
  | ok a => exact iff_of_true ⟨a, rfl⟩ nofun
  | error e =>
    cases e with
    | exception => exact iff_of_false nofun fun hne => hne rfl
    | assertion expr => exact absurd hr (h expr)

/-- Without failed assertions, only a step that throws keeps a program from returning. -/
lemma Relays.returns (hx : Relays env x)
    (h : ∀ w expr, outcome (x w) ≠ .error (.assertion expr)) : Returns env x :=
  fun w => hx.exists_ok (h w)

/-! ## Parts that throw nothing -/

/-- A result that is not an exception. -/
def NoException (x : Except Abort α) : Prop := x ≠ .error .exception

/-- A value is no exception. -/
lemma noException_ok {a : α} : NoException (.ok a) := by
  intro h
  cases h

/-- A failed assertion is no exception. -/
lemma noException_assertion {expr : String} :
    NoException (.error (.assertion expr) : Except Abort α) := by
  intro h
  cases h

/-- One result after the other. -/
lemma NoException.bind {x : Except Abort α} {f : α → Except Abort β} (hx : NoException x)
    (hf : ∀ a, NoException (f a)) : NoException (x >>= f) := by
  cases x with
  | ok a => exact hf a
  | error e => exact fun h => hx (congrArg Except.error (Except.error.inj h))

/-- A function of a result. -/
lemma NoException.map {x : Except Abort α} {f : α → β} (hx : NoException x) : NoException (x.map f) :=
  .bind hx fun _ => noException_ok

/-- `SACO_ASSERT` throws nothing. -/
lemma noException_sacoAssert {cfg : Config} {expr : String} {holds : Bool} :
    NoException (sacoAssert cfg expr holds) := by
  rcases sacoAssert_cases cfg expr holds with ⟨hok, -⟩ | herror
  · rw [hok]
    exact noException_ok
  · rw [herror]
    exact noException_assertion

/-- A context that throws no exception. -/
def NeverThrows (C : Type) [Context C] : Prop :=
  ∀ cfg ALIGN size (ctx : C), NoException (Context.allocateSpace0 cfg ALIGN size ctx)

/-- The measure pass only asserts that the head is not over-aligned. -/
lemma neverThrows_measure : NeverThrows MeasureContext := by
  intro cfg ALIGN size ctx
  change NoException (MeasureContext.allocateSpace0 cfg ALIGN size ctx)
  have hover : NoException (ctx.allocateOverAligned cfg ALIGN size) :=
    .bind noException_sacoAssert fun _ => noException_ok
  rw [MeasureContext.allocateSpace0, MeasureContext.allocateSpace1]
  split
  case isTrue => exact noException_ok
  case isFalse =>
    split
    case isTrue => exact noException_ok
    case isFalse => exact .bind hover fun _ => noException_ok

/-- The construct pass only asserts that there is space. -/
lemma neverThrows_construct : NeverThrows ConstructContext :=
  fun _ _ _ _ => .bind noException_sacoAssert fun _ => noException_ok

/-- `SACO_ASSERT` takes no step. -/
lemma blames_check {cfg : Config} {expr : String} {holds : Bool} :
    Relays env (check cfg expr holds : Program Abort Event S Unit) :=
  .apply fun _ => NoException.bind noException_sacoAssert fun _ => noException_ok

/-! ## Placing -/

/-- User code throws when its step does. -/
lemma blames_mayThrow : Relays env (mayThrow env : Program Abort Event S Unit) :=
  .bind .tick fun _ => .pure

/-- A constructor throws when its step does. -/
lemma blames_defaultInit {memory : SizeT} :
    Relays env (defaultInit env depth memory : Program Abort Event S Unit) :=
  .bind blames_mayThrow fun _ => .emit

section

variable [Context C]

/-- `allocate_space` throws nothing. -/
lemma blames_allocateSpace (hC : NeverThrows C) {t : TypedRequest} :
    Relays env (allocateSpace env.cfg t : Code C A SizeT) :=
  .bind .emit fun _ => .apply fun s => NoException.bind (hC _ _ _ s.ctx) fun _ => noException_ok

/-- A builder throws when its children or its constructor do. -/
lemma blames_build {children : Code C A Unit} {memory : SizeT} (h : Relays env children) :
    Relays env (build env depth children memory) := by
  refine .bind h fun _ => .bind blames_mayThrow fun _ => ?_
  split
  case isTrue => exact .bind .emit fun _ => .pure
  case isFalse => exact .pure

/-- `place<T>` throws when the builder does. -/
lemma blames_place (hC : NeverThrows C) {builder : SizeT → Code C A SizeT}
    (h : ∀ memory, Relays env (builder memory)) : Relays env (place env T builder) :=
  .bind (blames_allocateSpace hC) h

/-- `place_for_overwrite<T>` throws when the constructor does. -/
lemma blames_placeForOverwrite (hC : NeverThrows C) :
    Relays env (placeForOverwrite env depth T : Code C A SizeT) := by
  refine .bind (blames_allocateSpace hC) fun memory => ?_
  split
  case isTrue => exact .bind blames_defaultInit fun _ => .pure
  case isFalse => exact .pure

/-- `place<T[]>` throws when the builder of an element does. -/
lemma blames_placeArray (hC : NeverThrows C) {count : SizeT} {builder : SizeT → Code C A SizeT}
    (h : ∀ memory, Relays env (builder memory)) : Relays env (placeArray env T count builder) := by
  rw [placeArray]
  split
  case isTrue => exact .pure
  case isFalse =>
    refine .bind (blames_allocateSpace hC) fun memory => ?_
    split
    case isTrue => exact .bind (.forM (fun _ => .bind (h _) fun _ => .pure) _) fun _ => .pure
    case isFalse => exact .pure

/-- `place_for_overwrite<T[]>` throws when the constructor of an element does. -/
lemma blames_placeForOverwriteArray (hC : NeverThrows C) {count : SizeT} :
    Relays env (placeForOverwriteArray env depth T count : Code C A SizeT) := by
  rw [placeForOverwriteArray]
  split
  case isTrue => exact .pure
  case isFalse =>
    refine .bind (blames_allocateSpace hC) fun memory => ?_
    split
    case isTrue => exact .bind (.forM (fun _ => blames_defaultInit) _) fun _ => .pure
    case isFalse => exact .pure

mutual

/-- A call of a plan throws just when one of the steps in it does. -/
lemma blames_run (hC : NeverThrows C) (depth : ℕ) : (plan : Plan) →
    Relays env (plan.run env depth : Code C A SizeT)
  | .place T children => by
    rw [Plan.run]
    exact blames_place hC fun _ => blames_build (blames_runAll hC (depth + 1) children)
  | .placeForOverwrite T => by
    rw [Plan.run]
    exact blames_placeForOverwrite hC
  | .placeArray T count children => by
    rw [Plan.run]
    exact blames_placeArray hC fun _ => blames_build (blames_runAll hC (depth + 1) children)
  | .placeForOverwriteArray T count => by
    rw [Plan.run]
    exact blames_placeForOverwriteArray hC
  | .allocateSpace t => by
    rw [Plan.run]
    exact blames_allocateSpace hC

/-- One call after the other throws just when one of the steps in them does. -/
lemma blames_runAll (hC : NeverThrows C) (depth : ℕ) : (plans : List Plan) →
    Relays env (runAll env depth plans : Code C A Unit)
  | [] => by
    rw [runAll]
    exact .pure
  | plan :: plans => by
    rw [runAll]
    refine .bind blames_mayThrow fun _ => ?_
    exact .bind (blames_run hC depth plan) fun _ => blames_runAll hC depth plans

end

end

/-! ## `build_unique` -/

variable {children : List Plan} {mem size : SizeT}

/-- A measure pass throws when a step of user code does. -/
lemma blames_measure : Relays env (measure env T children : Program Abort Event S SizeT) :=
  .bind (.withVars (blames_run neverThrows_measure 0 (.place T children))) fun _ => .pure

/-- A construct pass throws when a step of user code does. -/
lemma blames_construct : Relays env (construct env T children mem size : Program Abort Event S SizeT) :=
  .bind (.withVars (blames_run neverThrows_construct 0 (.place T children))) fun _ => .pure

/-- `operator new` throws when its step does. -/
lemma blames_operatorNew {purpose : Purpose} :
    Relays env (operatorNew env purpose : Program Abort Event S SizeT) :=
  .bind .tick fun _ => .bind .emit fun _ => .pure

/-- `saco_delete` takes no step that can fail. -/
lemma sacoDelete_run {p : SizeT} (w : World Event S) :
    ∃ w', sacoDelete p w = .ok () w' ∧ w'.clock = w.clock := ⟨_, rfl, rfl⟩

/-- `build_unique` throws just when a step of user code or of `operator new` does. -/
lemma blames_buildUnique : Relays env (buildUnique env T children : Program Abort Event S SizeT) := by
  refine .bind blames_measure fun size => .bind ?_ fun raw => .bind ?_ fun obj => .bind ?_ fun _ => .pure
  · exact .bind blames_operatorNew fun _ => .bind blames_check fun _ => .pure
  · exact .unwinding blames_construct fun _ => ⟨_, rfl, rfl⟩
  · exact .unwinding blames_check sacoDelete_run

end Saco.Build
