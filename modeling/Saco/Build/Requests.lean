import Saco.Build.Place

/-!
# The requests of the two passes

`Plan.requests` lists the requests that a plan issues in a pass. `answers_run` says that a run of the
plan issues exactly these, and that its context ends as if it had answered them one after the other, or
the first of them if the run ends early.

The context is a class parameter, so both passes are instances. The rules for `Answers` follow the
templates of `Saco/Build/Place.lean`, one rule for each.
-/

namespace Saco.Build
open Exec Layout

variable {C A α β : Type} [Context C] {cfg : Config} {env : Env} {qs qs' : List Request}

/-- The requests in a log. -/
def requestsIn (es : List Event) : List Request :=
  es.filterMap fun
    | .request q => some q
    | _ => none

/-- The requests of two logs. -/
lemma requestsIn_append {es es' : List Event} :
    requestsIn (es ++ es') = requestsIn es ++ requestsIn es' := List.filterMap_append

/-- A context answers requests in order. -/
def answerAll (cfg : Config) : List Request → C → Except Abort C
  | [], ctx => return ctx
  | q :: qs, ctx => do
    let (_, ctx) ← Context.allocateSpace0 cfg q.ALIGN q.size ctx
    answerAll cfg qs ctx

/-- The second part is answered by the context that the first one leaves. -/
lemma answerAll_append {ctx : C} :
    answerAll cfg (qs ++ qs') ctx = answerAll cfg qs ctx >>= answerAll cfg qs' := by
  induction qs generalizing ctx with
  | nil => rfl
  | cons q qs ih =>
    rw [List.cons_append, answerAll, answerAll]
    cases Context.allocateSpace0 cfg q.ALIGN q.size ctx with
    | error e => rfl
    | ok r => exact ih

mutual

/-- The requests that a plan issues in the measure pass or in the construct pass. -/
def Plan.requests (construct : Bool) : Plan → List Request
  | .place T children => (TypedRequest.object T).request :: requestsAll construct children
  | .placeForOverwrite T => [(TypedRequest.object T).request]
  | .placeArray T count children =>
    if count = 0 then
      []
    else
      (TypedRequest.array T count).request ::
        if construct then
          (List.replicate count.toNat (requestsAll construct children)).flatten
        else
          []
  | .placeForOverwriteArray T count =>
    if count = 0 then [] else [(TypedRequest.array T count).request]
  | .allocateSpace t => [t.request]

/-- The requests of one call after the other. -/
def requestsAll (construct : Bool) : List Plan → List Request
  | [] => []
  | plan :: plans => plan.requests construct ++ requestsAll construct plans

end

/-! ## Runs -/

/-- A run issues `qs` and leaves the context that has answered them. If something throws or the context
stops it, the context has answered the first of them. -/
def Answers (env : Env) (qs : List Request) : Spec Abort Event (Scope C A) α :=
  fun s r es s' =>
    match r with
    | .ok _ => answerAll env.cfg qs s.ctx = .ok s'.ctx ∧ requestsIn es = qs
    | .error e => (∃ done, done <+: qs ∧ answerAll env.cfg done s.ctx = .ok s'.ctx) ∧
        (e = .exception ∧ (∃ t, env.throws t = true) ∨ answerAll env.cfg qs s.ctx = .error e)

/-- Returning issues no request. -/
lemma Answers.pure {a : α} : Meets (Pure.pure a : Code C A α) (Answers env []) :=
  .pure fun _ => ⟨rfl, rfl⟩

/-- One part after the other. -/
lemma Answers.bind {x : Code C A α} {f : α → Code C A β} (hx : Meets x (Answers env qs))
    (hf : ∀ a, Meets (f a) (Answers env qs')) : Meets (x >>= f) (Answers env (qs ++ qs')) := by
  refine .bind hx hf ?_ ?_
  · intro s e es s' h
    obtain ⟨⟨done, hdone, hctx⟩, hwhy⟩ := h
    refine ⟨⟨done, hdone.trans (List.prefix_append _ _), hctx⟩, hwhy.imp_right fun h => ?_⟩
    rw [answerAll_append, h]
    rfl
  · intro s a es s' r es' s'' h h'
    obtain ⟨h, rfl⟩ : _ ∧ _ := h
    have hafter : ∀ done, answerAll env.cfg (requestsIn es ++ done) s.ctx =
        answerAll env.cfg done s'.ctx := by
      intro done
      rw [answerAll_append, h]
      rfl
    cases r with
    | error e =>
      -- the second part stopped, and the first one has answered all of its requests
      obtain ⟨⟨done, hdone, hctx⟩, hwhy⟩ := h'
      refine ⟨⟨requestsIn es ++ done, (List.prefix_append_right_inj _).2 hdone, ?_⟩, ?_⟩
      · exact (hafter done).trans hctx
      · exact hwhy.imp_right (hafter _).trans
    | ok b =>
      obtain ⟨h', rfl⟩ : _ ∧ _ := h'
      exact ⟨(hafter _).trans h', requestsIn_append⟩

/-- A step that issues nothing. -/
lemma Answers.seq {x : Code C A α} {f : α → Code C A β} (hx : Meets x (Answers env []))
    (hf : ∀ a, Meets (f a) (Answers env qs)) : Meets (x >>= f) (Answers env qs) :=
  Answers.bind hx hf

/-- Another value is returned. -/
lemma Answers.thenReturn {x : Code C A α} {b : β} (hx : Meets x (Answers env qs)) :
    Meets (do let _ ← x; return b) (Answers env qs) := by
  have h := Answers.bind hx fun _ => Answers.pure (a := b)
  rwa [List.append_nil] at h

/-- An event that is no request. -/
lemma Answers.emit {e : Event} (he : ∀ q, e ≠ .request q) :
    Meets (Exec.emit e : Code C A Unit) (Answers env []) := by
  refine .emit fun s => ⟨rfl, ?_⟩
  cases e with
  | request q => exact absurd rfl (he q)
  | _ => rfl

/-- A loop issues the requests of each round. -/
lemma Answers.forM {γ : Type} {f : γ → Code C A Unit} (hf : ∀ c, Meets (f c) (Answers env qs))
    (cs : List γ) :
    Meets (forM cs f) (Answers env (List.replicate cs.length qs).flatten) := by
  induction cs with
  | nil => exact Answers.pure
  | cons c cs ih =>
    rw [List.forM_cons, List.length_cons, List.replicate_succ, List.flatten_cons]
    exact Answers.bind (hf c) fun _ => ih

/-- User code issues no request. -/
lemma answers_mayThrow : Meets (mayThrow env : Code C A Unit) (Answers env []) :=
  Answers.thenReturn (.tick (fun _ _ => ⟨rfl, rfl⟩) fun _ t ht =>
    ⟨⟨[], List.prefix_rfl, rfl⟩, .inl ⟨rfl, t, ht⟩⟩)

/-- `allocate_space` issues one. -/
lemma answers_allocateSpace {t : TypedRequest} :
    Meets (allocateSpace env.cfg t : Code C A SizeT) (Answers env [t.request]) := by
  refine meets_allocateSpace.mono fun s r es s' h => ?_
  obtain ⟨rfl, hctx, -, hsame⟩ := h
  have hanswer : answerAll env.cfg [t.request] s.ctx = r.map fun _ => s'.ctx := by
    rw [answerAll, hctx]
    cases r <;> rfl
  cases r with
  | ok a => exact ⟨hanswer, rfl⟩
  | error e =>
    have hnone : answerAll env.cfg [] s.ctx = .ok s'.ctx := by
      rw [hsame e rfl]
      rfl
    exact ⟨⟨[], List.nil_prefix, hnone⟩, .inr hanswer⟩

variable {builder : SizeT → Code C A SizeT} {T : CxxType}

/-- A builder issues those of its children. -/
lemma answers_build {depth : ℕ} {children : Code C A Unit} {memory : SizeT}
    (hchildren : Meets children (Answers env qs)) :
    Meets (build env depth children memory) (Answers env qs) := by
  rw [build]
  have hrest : Meets (do
      mayThrow env
      if Context.isConstructContext C then
        emit (.construct depth memory)
        return memory
      else
        return 0 : Code C A SizeT) (Answers env []) := by
    refine Answers.seq answers_mayThrow fun _ => ?_
    split
    · exact Answers.seq (Answers.emit nofun) fun _ => Answers.pure
    · exact Answers.pure
  simpa using Answers.bind hchildren fun _ => hrest

/-- `place<T>` asks for the object, then runs the builder. -/
lemma answers_place (hbuilder : ∀ memory, Meets (builder memory) (Answers env qs)) :
    Meets (place env T builder) (Answers env ((TypedRequest.object T).request :: qs)) :=
  Answers.bind answers_allocateSpace hbuilder

/-- A constructor issues no request. -/
lemma answers_defaultInit {depth : ℕ} {memory : SizeT} :
    Meets (defaultInit env depth memory : Code C A Unit) (Answers env []) :=
  Answers.seq answers_mayThrow fun _ => Answers.emit nofun

/-- `place_for_overwrite<T>` asks for the object. -/
lemma answers_placeForOverwrite {depth : ℕ} :
    Meets (placeForOverwrite env depth T : Code C A SizeT)
      (Answers env [(TypedRequest.object T).request]) := by
  refine Answers.bind answers_allocateSpace fun memory => ?_
  split
  · exact Answers.seq answers_defaultInit fun _ => Answers.pure
  · exact Answers.pure

/-- `place<T[]>` asks for the array, then runs the builders in the construct pass only. -/
lemma answers_placeArray {count : SizeT}
    (hbuilder : ∀ memory, Meets (builder memory) (Answers env qs)) :
    Meets (placeArray env T count builder) (Answers env
      (if count = 0 then [] else
        (TypedRequest.array T count).request ::
          if Context.isConstructContext C then (List.replicate count.toNat qs).flatten else [])) := by
  rw [placeArray]
  split
  case isTrue => exact Answers.pure
  case isFalse =>
    refine Answers.bind answers_allocateSpace fun memory => ?_
    cases Context.isConstructContext C with
    | true =>
      have hloop := Answers.forM (fun address => Answers.thenReturn (b := ()) (hbuilder address))
        (elements T count memory)
      rw [length_elements] at hloop
      exact Answers.thenReturn hloop
    | false => exact Answers.pure

/-- `place_for_overwrite<T[]>` asks for the array. -/
lemma answers_placeForOverwriteArray {depth : ℕ} {count : SizeT} :
    Meets (placeForOverwriteArray env depth T count : Code C A SizeT) (Answers env
      (if count = 0 then [] else [(TypedRequest.array T count).request])) := by
  rw [placeForOverwriteArray]
  split
  case isTrue => exact Answers.pure
  case isFalse =>
    refine Answers.bind answers_allocateSpace fun memory => ?_
    split
    · have hloop : Meets (forM (elements T count memory) (defaultInit env depth) : Code C A Unit)
          (Answers env (List.replicate (elements T count memory).length []).flatten) :=
        Answers.forM (fun _ => answers_defaultInit) _
      rw [List.flatten_replicate_nil] at hloop
      exact Answers.thenReturn hloop
    · exact Answers.pure

mutual

/-- A run of a plan issues the requests of the plan. -/
lemma answers_run (depth : ℕ) : (plan : Plan) →
    Meets (plan.run env depth : Code C A SizeT)
      (Answers env (plan.requests (Context.isConstructContext C)))
  | .place T children => by
    rw [Plan.run, Plan.requests]
    exact answers_place fun memory => answers_build (answers_runAll (depth + 1) children)
  | .placeForOverwrite T => by
    rw [Plan.run, Plan.requests]
    exact answers_placeForOverwrite
  | .placeArray T count children => by
    rw [Plan.run, Plan.requests]
    exact answers_placeArray fun memory => answers_build (answers_runAll (depth + 1) children)
  | .placeForOverwriteArray T count => by
    rw [Plan.run, Plan.requests]
    exact answers_placeForOverwriteArray
  | .allocateSpace t => by
    rw [Plan.run, Plan.requests]
    exact answers_allocateSpace

/-- One call after the other answers the requests of all. -/
lemma answers_runAll (depth : ℕ) : (plans : List Plan) →
    Meets (runAll env depth plans : Code C A Unit)
      (Answers env (requestsAll (Context.isConstructContext C) plans))
  | [] => by
    rw [runAll, requestsAll]
    exact Answers.pure
  | plan :: plans => by
    rw [runAll, requestsAll]
    refine Answers.seq answers_mayThrow fun _ => ?_
    exact Answers.bind (answers_run depth plan) fun _ => answers_runAll depth plans

end

end Saco.Build
