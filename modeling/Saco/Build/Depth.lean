import Saco.Build.Place

/-!
# What placing does

Placing objects issues requests and runs constructors, at the depth where the plan is run or below
(`inner_run`). It neither destroys an object nor obtains or frees memory, also when an exception leaves
it.
-/

namespace Saco.Build
open Exec Layout

variable {env : Env} {T : CxxType} {depth : ℕ}

/-- Requests, and in the construct pass constructors at a depth of at least `depth`. -/
def Event.Inner (construct : Bool) (depth : ℕ) : Event → Prop
  | .request _ => True
  | .construct depth' _ => construct = true ∧ depth ≤ depth'
  | _ => False

/-- What is inside of a depth is inside of a lesser one. -/
lemma Event.Inner.mono {construct : Bool} {depth' : ℕ} {e : Event} (h : e.Inner construct depth)
    (hle : depth' ≤ depth) : e.Inner construct depth' := by
  cases e with
  | request q => trivial
  | construct d a => exact ⟨h.1, hle.trans h.2⟩
  | destroy a => exact h
  | obtain a purpose => exact h
  | free a => exact h

/-- User code logs nothing. -/
lemma inner_mayThrow {S : Type} {construct : Bool} :
    Emits (Event.Inner construct depth) (mayThrow env : Program Abort Event S Unit) :=
  .bind .tick fun _ => .pure

/-- A constructor logs its own depth. -/
lemma inner_defaultInit {S : Type} {memory : SizeT} :
    Emits (Event.Inner true depth) (defaultInit env depth memory : Program Abort Event S Unit) :=
  .bind inner_mayThrow fun _ => .emit ⟨rfl, le_rfl⟩

variable {A C : Type} [Context C]

/-- What happens in a pass over a context. -/
abbrev OfPass (C : Type) [Context C] (depth : ℕ) : Event → Prop :=
  Event.Inner (Context.isConstructContext C) depth

/-- A request has no depth. -/
lemma inner_allocateSpace {cfg : Config} {t : TypedRequest} :
    Emits (OfPass C depth) (allocateSpace cfg t : Code C A SizeT) :=
  .bind (.emit trivial) fun _ => .apply

/-- A builder logs its own depth, and deeper ones for the children. -/
lemma inner_build {children : Code C A Unit} {memory : SizeT}
    (hchildren : Emits (OfPass C (depth + 1)) children) :
    Emits (OfPass C depth) (build env depth children memory) := by
  refine .bind (hchildren.mono fun e he => he.mono (Nat.le_succ _)) fun _ => ?_
  refine .bind inner_mayThrow fun _ => ?_
  split
  case isTrue h => exact .bind (.emit ⟨h, le_rfl⟩) fun _ => .pure
  case isFalse => exact .pure

/-- `place<T>` logs what the builder does. -/
lemma inner_place {builder : SizeT → Code C A SizeT}
    (hbuilder : ∀ memory, Emits (OfPass C depth) (builder memory)) :
    Emits (OfPass C depth) (place env T builder) :=
  .bind inner_allocateSpace hbuilder

/-- `place_for_overwrite<T>` logs its own depth. -/
lemma inner_placeForOverwrite :
    Emits (OfPass C depth) (placeForOverwrite env depth T : Code C A SizeT) := by
  refine .bind inner_allocateSpace fun _ => ?_
  split
  case isTrue h =>
    rw [OfPass, h]
    exact .bind inner_defaultInit fun _ => .pure
  case isFalse => exact .pure

/-- `place<T[]>` logs what the builder of the elements does. -/
lemma inner_placeArray {builder : SizeT → Code C A SizeT} {count : SizeT}
    (hbuilder : ∀ memory, Emits (OfPass C depth) (builder memory)) :
    Emits (OfPass C depth) (placeArray env T count builder) := by
  rw [placeArray]
  split
  · exact .pure
  · refine .bind inner_allocateSpace fun _ => ?_
    split
    · exact .bind (.forM (fun _ => .bind (hbuilder _) fun _ => .pure) _) fun _ => .pure
    · exact .pure

/-- `place_for_overwrite<T[]>` logs its own depth. -/
lemma inner_placeForOverwriteArray {count : SizeT} :
    Emits (OfPass C depth) (placeForOverwriteArray env depth T count : Code C A SizeT) := by
  rw [placeForOverwriteArray]
  split
  · exact .pure
  · refine .bind inner_allocateSpace fun _ => ?_
    split
    case isTrue h =>
      rw [OfPass, h]
      exact .bind (.forM (fun _ => inner_defaultInit) _) fun _ => .pure
    case isFalse => exact .pure

mutual

/-- A plan only places: it neither destroys an object nor obtains or frees memory. -/
lemma inner_run (depth : ℕ) : (plan : Plan) →
    Emits (OfPass C depth) (plan.run env depth : Code C A SizeT)
  | .place T children => by
    rw [Plan.run]
    exact inner_place fun _ => inner_build (inner_runAll (depth + 1) children)
  | .placeForOverwrite T => by
    rw [Plan.run]
    exact inner_placeForOverwrite
  | .placeArray T count children => by
    rw [Plan.run]
    exact inner_placeArray fun _ => inner_build (inner_runAll (depth + 1) children)
  | .placeForOverwriteArray T count => by
    rw [Plan.run]
    exact inner_placeForOverwriteArray
  | .allocateSpace t => by
    rw [Plan.run]
    exact inner_allocateSpace

/-- One call after the other logs nothing outside of their depth. -/
lemma inner_runAll (depth : ℕ) : (plans : List Plan) →
    Emits (OfPass C depth) (runAll env depth plans : Code C A Unit)
  | [] => by
    rw [runAll]
    exact .pure
  | plan :: plans => by
    rw [runAll]
    refine .bind inner_mayThrow fun _ => ?_
    exact .bind (inner_run depth plan) fun _ => inner_runAll depth plans

end

/-! ## Objects that are built in the construct pass -/

variable {S α β : Type} {memory : SizeT} {address : α → SizeT}

/-- A run that builds the object at the address of its result as its last step, unless it fails
before. -/
def Built (depth : ℕ) (address : α → SizeT) : Spec Abort Event S α :=
  fun _ r es _ =>
    match r with
    | .ok a => ∃ es', (∀ e ∈ es', e.Inner true (depth + 1)) ∧
      es = es' ++ [.construct depth (address a)]
    | .error _ => ∀ e ∈ es, e.Inner true (depth + 1)

/-- The object is complete, and its address is returned. -/
lemma Built.construct {a : α} :
    Meets (do emit (.construct depth (address a)); return a : Program Abort Event S α)
      (Built depth address) := by
  have hreturn : Meets (Pure.pure a : Program Abort Event S α) fun _ r es _ => r = .ok a ∧ es = [] :=
    .pure fun _ => ⟨rfl, rfl⟩
  refine .emitThen hreturn fun s r es s' h => ?_
  obtain ⟨rfl, rfl⟩ := h
  exact ⟨[], nofun, rfl⟩

/-- Deeper steps may come first. -/
lemma Built.after {x : Program Abort Event S β} {f : β → Program Abort Event S α}
    (hx : Emits (Event.Inner true (depth + 1)) x) (hf : ∀ b, Meets (f b) (Built depth address)) :
    Meets (x >>= f) (Built depth address) := by
  refine .bind hx hf (fun _ _ _ _ h => h) ?_
  intro s a es s' r es' s'' h h'
  cases r with
  | ok b =>
    obtain ⟨es'', hes'', rfl⟩ := h'
    refine ⟨es ++ es'', fun e he => ?_, (List.append_assoc ..).symm⟩
    exact (List.mem_append.1 he).elim (h e) (hes'' e)
  | error e => exact fun e he => (List.mem_append.1 he).elim (h e) (h' e)

/-- A constructor completes the object. -/
lemma built_defaultInit : Meets (defaultInit env depth memory : Program Abort Event S Unit)
    (Built depth fun _ => memory) :=
  Built.after inner_mayThrow fun _ => .emit fun _ => ⟨[], nofun, rfl⟩

/-- A builder completes its object last. -/
lemma built_build {address : SizeT → SizeT} {children : Code ConstructContext A Unit}
    (hchildren : Emits (Event.Inner true (depth + 1)) children) (haddress : address memory = memory) :
    Meets (build env depth children memory) (Built depth address) := by
  refine Built.after hchildren fun _ => Built.after inner_mayThrow fun _ => ?_
  have hconstruct : Meets (do emit (.construct depth (address memory)); return memory :
      Code ConstructContext A SizeT) (Built depth address) := Built.construct
  rwa [haddress] at hconstruct

/-- The construct pass over an object returns where the object is. -/
lemma built_run {children : List Plan} :
    Meets ((Plan.place T children).run env depth : Code ConstructContext A SizeT) (Built depth id) := by
  rw [Plan.run]
  exact Built.after inner_allocateSpace fun _ =>
    built_build (inner_runAll (depth + 1) children) rfl

end Saco.Build
