import Saco.Build.Depth
import Saco.Build.Unique
import Saco.Exec.Interrupts

/-!
# What exceptions do to a run

An exception cuts a run short and changes nothing else: `faults_truncate` says so of every plan in either
pass, for every choice of the steps that throw. The parts of `build_unique` that clean up after an
exception still do what they do when nothing throws, up to the exception.
-/

namespace Saco.Build
open Exec Layout

/-- The same environment, where no step throws. -/
def Env.faultless (env : Env) : Env where
  cfg := env.cfg
  throws _ := false
  operatorNew := env.operatorNew
  storage := env.storage
  storage_aligned := env.storage_aligned

/-- `x` is `y`, up to an exception. -/
abbrev CutShort {S α : Type} (x y : Program Abort Event S α) : Prop := Interrupts (· = .exception) x y

variable {A C S : Type} {env : Env} {T : CxxType} {depth : ℕ}

/-- User code that throws ends at its step. -/
lemma cutShort_mayThrow : CutShort (mayThrow env : Program Abort Event S Unit) (mayThrow env.faultless) :=
  .bind (.tick rfl fun _ => nofun) fun _ => .refl .pure

/-- A constructor that throws logs nothing. -/
lemma cutShort_defaultInit {memory : SizeT} :
    CutShort (defaultInit env depth memory : Program Abort Event S Unit)
      (defaultInit env.faultless depth memory) :=
  .bind cutShort_mayThrow fun _ => .refl fun w => List.prefix_append w.log _

section

variable [Context C]

/-- A request does not throw. -/
lemma cutShort_allocateSpace {t : TypedRequest} :
    CutShort (allocateSpace env.cfg t : Code C A SizeT) (allocateSpace env.faultless.cfg t) :=
  .refl meets_allocateSpace.appends

/-- A builder ends with its children or its constructor. -/
lemma cutShort_build {children children' : Code C A Unit} {memory : SizeT}
    (h : CutShort children children') :
    CutShort (build env depth children memory) (build env.faultless depth children' memory) := by
  refine .bind h fun _ => .bind cutShort_mayThrow fun _ => ?_
  split
  case isTrue => exact .refl (.bind (fun w => List.prefix_append w.log _) fun _ => .pure)
  case isFalse => exact .refl .pure

/-- `place<T>` ends with its builder. -/
lemma cutShort_place {builder builder' : SizeT → Code C A SizeT}
    (h : ∀ memory, CutShort (builder memory) (builder' memory)) :
    CutShort (place env T builder) (place env.faultless T builder') :=
  .bind cutShort_allocateSpace h

/-- `place_for_overwrite<T>` ends with the constructor. -/
lemma cutShort_placeForOverwrite :
    CutShort (placeForOverwrite env depth T : Code C A SizeT)
      (placeForOverwrite env.faultless depth T) := by
  refine .bind cutShort_allocateSpace fun memory => ?_
  split
  case isTrue => exact .bind cutShort_defaultInit fun _ => .refl .pure
  case isFalse => exact .refl .pure

/-- `place<T[]>` ends with the builder of an element. -/
lemma cutShort_placeArray {count : SizeT} {builder builder' : SizeT → Code C A SizeT}
    (h : ∀ memory, CutShort (builder memory) (builder' memory)) :
    CutShort (placeArray env T count builder) (placeArray env.faultless T count builder') := by
  rw [placeArray, placeArray]
  split
  case isTrue => exact .refl .pure
  case isFalse =>
    refine .bind cutShort_allocateSpace fun memory => ?_
    split
    case isTrue =>
      exact .bind (.forM (fun address => .bind (h address) fun _ => .refl .pure) _) fun _ => .refl .pure
    case isFalse => exact .refl .pure

/-- `place_for_overwrite<T[]>` ends with the constructor of an element. -/
lemma cutShort_placeForOverwriteArray {count : SizeT} :
    CutShort (placeForOverwriteArray env depth T count : Code C A SizeT)
      (placeForOverwriteArray env.faultless depth T count) := by
  rw [placeForOverwriteArray, placeForOverwriteArray]
  split
  case isTrue => exact .refl .pure
  case isFalse =>
    refine .bind cutShort_allocateSpace fun memory => ?_
    split
    case isTrue => exact .bind (.forM (fun _ => cutShort_defaultInit) _) fun _ => .refl .pure
    case isFalse => exact .refl .pure

mutual

/-- A call of a plan ends where it throws. -/
lemma cutShort_run (depth : ℕ) : (plan : Plan) →
    CutShort (plan.run env depth : Code C A SizeT) (plan.run env.faultless depth)
  | .place T children => by
    rw [Plan.run, Plan.run]
    exact cutShort_place fun _ => cutShort_build (cutShort_runAll (depth + 1) children)
  | .placeForOverwrite T => by
    rw [Plan.run, Plan.run]
    exact cutShort_placeForOverwrite
  | .placeArray T count children => by
    rw [Plan.run, Plan.run]
    exact cutShort_placeArray fun _ => cutShort_build (cutShort_runAll (depth + 1) children)
  | .placeForOverwriteArray T count => by
    rw [Plan.run, Plan.run]
    exact cutShort_placeForOverwriteArray
  | .allocateSpace t => by
    rw [Plan.run, Plan.run]
    exact cutShort_allocateSpace

/-- One call after the other ends where one of them throws. -/
lemma cutShort_runAll (depth : ℕ) : (plans : List Plan) →
    CutShort (runAll env depth plans : Code C A Unit) (runAll env.faultless depth plans)
  | [] => by
    rw [runAll, runAll]
    exact .refl .pure
  | plan :: plans => by
    rw [runAll, runAll]
    refine .bind cutShort_mayThrow fun _ => ?_
    exact .bind (cutShort_run depth plan) fun _ => cutShort_runAll depth plans

end

/-- Whatever throws while a plan is run, in the measure pass or in the construct pass: the run is the one
in which nothing throws, or it has logged the beginning of that run's log and ends in an exception. -/
theorem faults_truncate (env : Env) (depth : ℕ) (plan : Plan) (w : World Event (Scope C A)) :
    plan.run env depth w = plan.run env.faultless depth w ∨
      ∃ w', plan.run env depth w = .error .exception w' ∧ w.log <+: w'.log ∧
        w'.log <+: (final (plan.run env.faultless depth w)).log := by
  rcases (cutShort_run depth plan).cut w with heq | ⟨e, w', hrun, rfl, hlog, hbegins⟩
  · exact .inl heq
  · exact .inr ⟨w', hrun, hlog, hbegins⟩

end

/-! ## The parts of `build_unique` -/

variable {children : List Plan} {mem size : SizeT}

/-- A measure pass ends where it throws. -/
lemma cutShort_measure : CutShort (measure env T children : Program Abort Event S SizeT)
    (measure env.faultless T children) :=
  .bind (.withVars (cutShort_run 0 (.place T children))) fun _ => .refl .pure

end Saco.Build
