import Mathlib.Data.List.Basic
import Mathlib.Data.Nat.Notation

/-!
# Programs that keep a log

A program reads and writes its local variables, may fail, and logs what it does to the rest of the
world. Steps that can fail are numbered by a clock, so that a predicate on the clock says which of them
do. `unwinding` runs a cleanup when a program fails; `withVars` runs a program on variables of its own.

`Meets x Q` says that every run of `x` satisfies `Q`, which relates the variables before the run, the
outcome, the events that the run logged, and the variables after the run. There is one rule for each way
to build a program.
-/

namespace Exec

variable {ε E S S' α β : Type}

/-- The time, what has been logged, and the variables of a program. -/
structure World (E S : Type) where
  clock : ℕ
  log : List E
  vars : S

/-- A program that may fail. -/
abbrev Program (ε E S α : Type) := EStateM ε (World E S) α

/-- Log an event. -/
def emit (e : E) : Program ε E S Unit :=
  modify fun w => { w with log := w.log ++ [e] }

/-- A step that may fail. It returns the time. -/
def tick (fails : ℕ → Bool) (err : ε) : Program ε E S ℕ := fun w =>
  let w' := { w with clock := w.clock + 1 }
  if fails w.clock then .error err w' else .ok w.clock w'

/-- Apply a function that may fail to the variables. -/
def apply (g : S → Except ε (α × S)) : Program ε E S α := fun w =>
  match g w.vars with
  | .ok (a, vars) => .ok a { w with vars }
  | .error e => .error e w

/-- Run `cleanup` when `x` fails with an error that unwinds, and fail again. -/
def unwinding (unwinds : ε → Bool) (cleanup : Program ε E S Unit) (x : Program ε E S α) :
    Program ε E S α := fun w =>
  match x w with
  | .ok a w' => .ok a w'
  | .error e w' =>
    if unwinds e then
      match cleanup w' with
      | .ok _ w'' => .error e w''
      | .error e' w'' => .error e' w''
    else
      .error e w'

/-- Run `x` on variables of its own. -/
def withVars (vars : S') (x : Program ε E S' α) : Program ε E S (α × S') := fun w =>
  match x { w with vars } with
  | .ok a w' => .ok (a, w'.vars) { w' with vars := w.vars }
  | .error e w' => .error e { w' with vars := w.vars }

section Unwinding

variable {unwinds : ε → Bool} {cleanup : Program ε E S Unit} {x : Program ε E S α}
  {w w' w'' : World E S} {e : ε}

/-- A program that returns is not cleaned up after. -/
lemma unwinding_ok {a : α} (h : x w = .ok a w') : unwinding unwinds cleanup x w = .ok a w' := by
  simp only [unwinding, h]

/-- Errors that do not unwind skip the cleanup. -/
lemma unwinding_abort (h : x w = .error e w') (he : unwinds e = false) :
    unwinding unwinds cleanup x w = .error e w' := by
  simp only [unwinding, h, he, Bool.false_eq_true, if_false]

/-- The error goes on after the cleanup. -/
lemma unwinding_clean (h : x w = .error e w') (he : unwinds e = true)
    (hc : cleanup w' = .ok () w'') : unwinding unwinds cleanup x w = .error e w'' := by
  simp only [unwinding, h, he, if_true, hc]

end Unwinding

/-! ## What a run shows -/

/-- What a run returns. -/
def outcome {σ : Type} : EStateM.Result ε σ α → Except ε α
  | .ok a _ => .ok a
  | .error e _ => .error e

/-- What a run leaves. -/
def final {σ : Type} : EStateM.Result ε σ α → σ
  | .ok _ w => w
  | .error _ w => w

/-- A relation between the variables before a run, its outcome, its events and the variables after. -/
abbrev Spec (ε E S α : Type) := S → Except ε α → List E → S → Prop

/-- Every run of `x` satisfies `Q`. -/
def Meets (x : Program ε E S α) (Q : Spec ε E S α) : Prop :=
  ∀ w, ∃ es, (final (x w)).log = w.log ++ es ∧ Q w.vars (outcome (x w)) es (final (x w)).vars

variable {x : Program ε E S α} {f : α → Program ε E S β} {P Q : Spec ε E S α} {w w' : World E S}

/-- What the specification says about a run that returned. -/
lemma Meets.ok {a : α} (hx : Meets x Q) (h : x w = .ok a w') :
    ∃ es, w'.log = w.log ++ es ∧ Q w.vars (.ok a) es w'.vars := by
  have hw := hx w
  rwa [h] at hw

/-- What it says about a run that failed. -/
lemma Meets.error {e : ε} (hx : Meets x Q) (h : x w = .error e w') :
    ∃ es, w'.log = w.log ++ es ∧ Q w.vars (.error e) es w'.vars := by
  have hw := hx w
  rwa [h] at hw

/-- A specification may be weakened. -/
lemma Meets.mono (hx : Meets x P) (h : ∀ s r es s', P s r es s' → Q s r es s') : Meets x Q := by
  intro w
  obtain ⟨es, hes, hP⟩ := hx w
  exact ⟨es, hes, h _ _ _ _ hP⟩

/-- A sequence that completed completed both parts. -/
lemma bind_ok {b : β} (h : (x >>= f) w = .ok b w') :
    ∃ a w₁, x w = .ok a w₁ ∧ f a w₁ = .ok b w' := by
  change EStateM.bind x f w = .ok b w' at h
  cases hx : x w with
  | ok a w₁ =>
    simp only [EStateM.bind, hx] at h
    exact ⟨a, w₁, rfl, h⟩
  | error e w₁ =>
    simp only [EStateM.bind, hx] at h
    cases h

/-! ## Single runs -/

section Run

variable {clock : ℕ} {log : List E} {s s' : S} {a : α} {e : ε}

/-- The second program starts where the first one ended. -/
lemma bind_run (h : x w = .ok a w') : (x >>= f) w = f a w' := by
  change EStateM.bind x f w = f a w'
  rw [EStateM.bind, h]

/-- An error ends the sequence. -/
lemma bind_run_error (h : x w = .error e w') : (x >>= f) w = .error e w' := by
  change EStateM.bind x f w = .error e w'
  rw [EStateM.bind, h]

/-- An event goes to the end of the log. -/
lemma emit_run {event : E} : (Exec.emit event : Program ε E S Unit) ⟨clock, log, s⟩ =
    .ok () ⟨clock, log ++ [event], s⟩ := rfl

/-- A function of the variables that succeeds. -/
lemma apply_run {g : S → Except ε (α × S)} (h : g s = .ok (a, s')) :
    Exec.apply g (⟨clock, log, s⟩ : World E S) = .ok a ⟨clock, log, s'⟩ := by
  simp only [Exec.apply, h]

/-- A function of the variables that fails leaves them as they were. -/
lemma apply_run_error {g : S → Except ε (α × S)} (h : g s = .error e) :
    Exec.apply g (⟨clock, log, s⟩ : World E S) = .error e ⟨clock, log, s⟩ := by
  simp only [Exec.apply, h]

/-- A step that does not fail. -/
lemma tick_run {fails : ℕ → Bool} (h : fails clock = false) :
    (Exec.tick fails e : Program ε E S ℕ) ⟨clock, log, s⟩ = .ok clock ⟨clock + 1, log, s⟩ := by
  simp only [Exec.tick, h, Bool.false_eq_true, if_false]

/-- A step that fails. -/
lemma tick_run_error {fails : ℕ → Bool} (h : fails clock = true) :
    (Exec.tick fails e : Program ε E S ℕ) ⟨clock, log, s⟩ = .error e ⟨clock + 1, log, s⟩ := by
  simp only [Exec.tick, h, if_true]

end Run

/-! ## Rules -/

/-- Returning. -/
lemma Meets.pure {a : α} (h : ∀ s, Q s (.ok a) [] s) : Meets (Pure.pure a) Q :=
  fun w => ⟨[], (List.append_nil _).symm, h w.vars⟩

/-- A sequence of two programs: the first one fails, or the second one runs where it stopped. -/
lemma Meets.bind {R : α → Spec ε E S β} {T : Spec ε E S β} (hx : Meets x P)
    (hf : ∀ a, Meets (f a) (R a))
    (herror : ∀ s e es s', P s (.error e) es s' → T s (.error e) es s')
    (hok : ∀ s a es s' r es' s'', P s (.ok a) es s' → R a s' r es' s'' → T s r (es ++ es') s'') :
    Meets (x >>= f) T := by
  intro w
  change ∃ es, (final (EStateM.bind x f w)).log = _ ∧ T _ (outcome (EStateM.bind x f w)) _
    (final (EStateM.bind x f w)).vars
  obtain ⟨es, hes, hP⟩ := hx w
  cases hw : x w with
  | error e w₁ =>
    rw [hw] at hes hP
    simp only [EStateM.bind, hw]
    exact ⟨es, hes, herror _ _ _ _ hP⟩
  | ok a w₁ =>
    rw [hw] at hes hP
    simp only [EStateM.bind, hw]
    obtain ⟨es', hes', hR⟩ := hf a w₁
    have hlog : (final (f a w₁)).log = w.log ++ (es ++ es') := by
      rw [hes', ← List.append_assoc, ← hes]
      rfl
    exact ⟨es ++ es', hlog, hok _ _ _ _ _ _ _ hP hR⟩

/-- Logging one event. -/
lemma Meets.emit {e : E} {Q : Spec ε E S Unit} (h : ∀ s, Q s (.ok ()) [e] s) :
    Meets (Exec.emit e) Q :=
  fun w => ⟨[e], rfl, h w.vars⟩

/-- An event, and then `y`. -/
lemma Meets.emitThen {e : E} {y : Program ε E S β} {R T : Spec ε E S β} (hy : Meets y R)
    (h : ∀ s r es s', R s r es s' → T s r (e :: es) s') : Meets (do Exec.emit e; y) T := by
  have hemit : Meets (Exec.emit e : Program ε E S Unit)
      fun s r es s' => r = .ok () ∧ es = [e] ∧ s' = s := .emit fun _ => ⟨rfl, rfl, rfl⟩
  refine .bind hemit (fun _ => hy) ?_ ?_
  · intro s err es s' herror
    cases herror.1
  · intro s a es s' r es' s'' hfirst hR
    obtain ⟨-, rfl, rfl⟩ := hfirst
    exact h s' r es' s'' hR

/-- A function of the variables. -/
lemma Meets.apply {g : S → Except ε (α × S)} (hok : ∀ s a s', g s = .ok (a, s') → Q s (.ok a) [] s')
    (herror : ∀ s e, g s = .error e → Q s (.error e) [] s) : Meets (Exec.apply g) Q := by
  intro w
  refine ⟨[], ?_⟩
  rw [Exec.apply]
  cases hg : g w.vars with
  | ok r => exact ⟨(List.append_nil _).symm, hok _ _ _ hg⟩
  | error e => exact ⟨(List.append_nil _).symm, herror _ _ hg⟩

/-- A tick logs nothing; it only fails when the clock says so. -/
lemma Meets.tick {fails : ℕ → Bool} {err : ε} {Q : Spec ε E S ℕ} (hok : ∀ s t, Q s (.ok t) [] s)
    (herror : ∀ s t, fails t = true → Q s (.error err) [] s) : Meets (Exec.tick fails err) Q := by
  intro w
  refine ⟨[], ?_⟩
  rw [Exec.tick]
  split
  case isTrue h => exact ⟨(List.append_nil _).symm, herror _ _ h⟩
  case isFalse => exact ⟨(List.append_nil _).symm, hok _ _⟩

/-- A cleanup that does not fail runs after the errors that unwind. -/
lemma Meets.unwinding {unwinds : ε → Bool} {cleanup : Program ε E S Unit} {C : Spec ε E S Unit}
    {T : Spec ε E S α} (hx : Meets x P) (hc : Meets cleanup C)
    (hok : ∀ s a es s', P s (.ok a) es s' → T s (.ok a) es s')
    (habort : ∀ s e es s', unwinds e = false → P s (.error e) es s' → T s (.error e) es s')
    (hclean : ∀ s e es s' es' s'', unwinds e = true → P s (.error e) es s' →
      C s' (.ok ()) es' s'' → T s (.error e) (es ++ es') s'')
    (hfail : ∀ s e es s', ¬C s (.error e) es s') : Meets (Exec.unwinding unwinds cleanup x) T := by
  intro w
  obtain ⟨es, hes, hP⟩ := hx w
  cases hw : x w with
  | ok a w₁ =>
    rw [hw] at hes hP
    rw [unwinding_ok hw]
    exact ⟨es, hes, hok _ _ _ _ hP⟩
  | error e w₁ =>
    rw [hw] at hes hP
    cases he : unwinds e with
    | false =>
      rw [unwinding_abort hw he]
      exact ⟨es, hes, habort _ _ _ _ he hP⟩
    | true =>
      obtain ⟨es', hes', hC⟩ := hc w₁
      cases hcw : cleanup w₁ with
      | error e' w₂ =>
        rw [hcw] at hC
        exact absurd hC (hfail _ _ _ _)
      | ok u w₂ =>
        rw [hcw] at hes' hC
        rw [unwinding_clean hw he hcw]
        refine ⟨es ++ es', ?_, hclean _ _ _ _ _ _ he hP hC⟩
        rw [← List.append_assoc, ← hes]
        exact hes'

/-- The variables of the surrounding program are not touched. -/
lemma Meets.withVars {vars : S'} {y : Program ε E S' α} {P : Spec ε E S' α}
    {T : Spec ε E S (α × S')} (hy : Meets y P)
    (hok : ∀ s a es s', P vars (.ok a) es s' → T s (.ok (a, s')) es s)
    (herror : ∀ s e es s', P vars (.error e) es s' → T s (.error e) es s) :
    Meets (Exec.withVars vars y) T := by
  intro w
  obtain ⟨es, hes, hP⟩ := hy { w with vars }
  rw [Exec.withVars]
  cases hw : y { w with vars } with
  | ok a w₁ =>
    rw [hw] at hes hP
    exact ⟨es, hes, hok _ _ _ _ hP⟩
  | error e w₁ =>
    rw [hw] at hes hP
    exact ⟨es, hes, herror _ _ _ _ hP⟩

/-- A loop over a list. -/
lemma Meets.forM {γ : Type} {f : γ → Program ε E S Unit} {R : γ → Spec ε E S Unit}
    {T : List γ → Spec ε E S Unit} (hf : ∀ c, Meets (f c) (R c)) (hnil : ∀ s, T [] s (.ok ()) [] s)
    (herror : ∀ c cs s e es s', R c s (.error e) es s' → T (c :: cs) s (.error e) es s')
    (hcons : ∀ c cs s es s' r es' s'', R c s (.ok ()) es s' → T cs s' r es' s'' →
      T (c :: cs) s r (es ++ es') s'') (cs : List γ) : Meets (forM cs f) (T cs) := by
  induction cs with
  | nil => exact .pure hnil
  | cons c cs ih =>
    rw [List.forM_cons]
    exact .bind (hf c) (fun _ => ih) (fun _ _ _ _ => herror _ _ _ _ _ _)
      fun _ _ _ _ _ _ _ => hcons _ _ _ _ _ _ _ _

/-- Logging one event after the other. -/
lemma Meets.emitAll (es : List E) : Meets (ForM.forM es Exec.emit : Program ε E S Unit)
    fun _ r es' _ => r = .ok () ∧ es' = es := by
  induction es with
  | nil => exact .pure fun _ => ⟨rfl, rfl⟩
  | cons e es ih =>
    rw [List.forM_cons]
    exact .emitThen ih fun _ _ _ _ h => ⟨h.1, congrArg (e :: ·) h.2⟩

/-! ## Programs that only log certain events -/

/-- Every event that `x` logs satisfies `p`. -/
def Emits (p : E → Prop) (x : Program ε E S α) : Prop :=
  Meets x fun _ _ es _ => ∀ e ∈ es, p e

section Emits

variable {p q : E → Prop}

/-- A property of all events may be weakened. -/
lemma Emits.mono (hx : Emits p x) (h : ∀ e, p e → q e) : Emits q x :=
  Meets.mono hx fun _ _ _ _ hes e he => h e (hes e he)

/-- Returning logs nothing. -/
lemma Emits.pure {a : α} : Emits p (Pure.pure a : Program ε E S α) :=
  Meets.pure fun _ => nofun

/-- One program after the other. -/
lemma Emits.bind (hx : Emits p x) (hf : ∀ a, Emits p (f a)) : Emits p (x >>= f) := by
  refine Meets.bind hx hf (fun _ _ _ _ h => h) fun _ _ _ _ _ _ _ h h' e he => ?_
  cases List.mem_append.1 he with
  | inl he => exact h e he
  | inr he => exact h' e he

/-- A single event. -/
lemma Emits.emit {e : E} (he : p e) : Emits p (Exec.emit e : Program ε E S Unit) :=
  Meets.emit fun _ _ h => List.mem_singleton.1 h ▸ he

/-- A step logs nothing. -/
lemma Emits.tick {fails : ℕ → Bool} {err : ε} :
    Emits p (Exec.tick fails err : Program ε E S ℕ) :=
  Meets.tick (fun _ _ => nofun) fun _ _ _ => nofun

/-- A function of the variables logs nothing. -/
lemma Emits.apply {g : S → Except ε (α × S)} : Emits p (Exec.apply g : Program ε E S α) :=
  Meets.apply (fun _ _ _ _ => nofun) fun _ _ _ => nofun

/-- Variables of its own make no difference to the events. -/
lemma Emits.withVars {vars : S'} {y : Program ε E S' α} (hy : Emits p y) :
    Emits p (Exec.withVars vars y : Program ε E S (α × S')) :=
  Meets.withVars hy (fun _ _ _ _ h => h) fun _ _ _ _ h => h

/-- A loop. -/
lemma Emits.forM {γ : Type} {f : γ → Program ε E S Unit} (hf : ∀ c, Emits p (f c)) (cs : List γ) :
    Emits p (forM cs f) := by
  induction cs with
  | nil => exact Emits.pure
  | cons c cs ih =>
    rw [List.forM_cons]
    exact Emits.bind (hf c) fun _ => ih

end Emits

end Exec
