import Saco.Exec.Program

/-!
# Programs that are stopped on the way

`Interrupts stops x y`: the program `x` does what `y` does, except that an error may stop it on the way.
What it has logged by then is where the log of `y` begins. The rules follow the ways to build a program
that does not clean up.
-/

namespace Exec

variable {ε E S S' α β : Type} {stops : ε → Prop} {x y : Program ε E S α}

/-! ## Logs only grow -/

/-- A program leaves what it finds in the log. -/
def Appends (x : Program ε E S α) : Prop := ∀ w, w.log <+: (final (x w)).log

/-- A program with a specification only appends to the log. -/
lemma Meets.appends {Q : Spec ε E S α} (hx : Meets x Q) : Appends x := by
  intro w
  obtain ⟨es, hes, -⟩ := hx w
  exact ⟨es, hes.symm⟩

/-- Returning logs nothing. -/
lemma Appends.pure {a : α} : Appends (Pure.pure a : Program ε E S α) := fun _ => List.prefix_rfl

/-- One program after the other. -/
lemma Appends.bind {f : α → Program ε E S β} (hx : Appends x) (hf : ∀ a, Appends (f a)) :
    Appends (x >>= f) := by
  intro w
  change w.log <+: (final (EStateM.bind x f w)).log
  have hw := hx w
  cases hxw : x w with
  | ok a w' =>
    rw [hxw] at hw
    simp only [EStateM.bind, hxw]
    exact hw.trans (hf a w')
  | error e w' =>
    rw [hxw] at hw
    simp only [EStateM.bind, hxw]
    exact hw

/-- Variables of its own make no difference to the log. -/
lemma Appends.withVars {vars : S'} {x : Program ε E S' α} (hx : Appends x) :
    Appends (Exec.withVars vars x : Program ε E S (α × S')) := by
  intro w
  rw [Exec.withVars]
  have hw := hx { w with vars }
  cases hxw : x { w with vars } with
  | ok a w' =>
    rw [hxw] at hw
    exact hw
  | error e w' =>
    rw [hxw] at hw
    exact hw

/-- A cleanup appends, too. -/
lemma Appends.unwinding {unwinds : ε → Bool} {cleanup : Program ε E S Unit} (hx : Appends x)
    (hc : Appends cleanup) : Appends (Exec.unwinding unwinds cleanup x) := by
  intro w
  have hw := hx w
  cases hxw : x w with
  | ok a w' =>
    rw [hxw] at hw
    rw [unwinding_ok hxw]
    exact hw
  | error e w' =>
    rw [hxw] at hw
    have hw' := hw.trans (hc w')
    cases he : unwinds e with
    | false =>
      rw [unwinding_abort hxw he]
      exact hw
    | true =>
      simp only [Exec.unwinding, hxw, he, if_true]
      cases hcw : cleanup w' with
      | ok u w'' =>
        rw [hcw] at hw'
        exact hw'
      | error e' w'' =>
        rw [hcw] at hw'
        exact hw'

/-- A loop. -/
lemma Appends.forM {γ : Type} {f : γ → Program ε E S Unit} (hf : ∀ c, Appends (f c)) (cs : List γ) :
    Appends (forM cs f) := by
  induction cs with
  | nil => exact .pure
  | cons c cs ih =>
    rw [List.forM_cons]
    exact .bind (hf c) fun _ => ih

/-- What holds of every run for each index holds for all indices at once, since a run logs the same
events whatever is said about it. -/
lemma Meets.all {ι : Sort*} {Q : ι → Spec ε E S α} (happends : Appends x) (h : ∀ i, Meets x (Q i)) :
    Meets x fun s r es s' => ∀ i, Q i s r es s' := by
  intro w
  obtain ⟨es, hes⟩ := happends w
  refine ⟨es, hes.symm, fun i => ?_⟩
  obtain ⟨es', hes', hQ⟩ := h i w
  rw [← hes, List.append_cancel_left_eq] at hes'
  rwa [hes']

/-- Two specifications speak about the same events. -/
lemma Meets.and {P Q : Spec ε E S α} (hP : Meets x P) (hQ : Meets x Q) :
    Meets x fun s r es s' => P s r es s' ∧ Q s r es s' := by
  intro w
  obtain ⟨es, hes, h⟩ := hP w
  obtain ⟨es', hes', h'⟩ := hQ w
  obtain rfl : es = es' := by rwa [hes, List.append_cancel_left_eq] at hes'
  exact ⟨es, hes, h, h'⟩

/-! ## Interruptions -/

/-- `x` does what `y` does, or it is stopped with a log that `y` goes on to extend. -/
structure Interrupts (stops : ε → Prop) (x y : Program ε E S α) : Prop where
  appends : Appends y
  cut : ∀ w, x w = y w ∨ ∃ e w', x w = .error e w' ∧ stops e ∧
    w.log <+: w'.log ∧ w'.log <+: (final (y w)).log

/-- A program that nothing stops. -/
lemma Interrupts.refl (hx : Appends x) : Interrupts stops x x := ⟨hx, fun _ => .inl rfl⟩

/-- What an interrupted program has done is the beginning of what the other one does. -/
lemma Interrupts.meets {Q : Spec ε E S α} (h : Interrupts stops x y) (hy : Meets y Q) :
    Meets x fun s r es s' => Q s r es s' ∨
      ∃ e r' es' s'', r = .error e ∧ stops e ∧ Q s r' es' s'' ∧ es <+: es' := by
  intro w
  obtain ⟨es, hes, hQ⟩ := hy w
  rcases h.cut w with heq | ⟨e, w', hxw, he, ⟨es', hlog⟩, hbegins⟩
  · rw [heq]
    exact ⟨es, hes, .inl hQ⟩
  · rw [hxw]
    refine ⟨es', hlog.symm, .inr ⟨e, _, es, _, rfl, he, hQ, ?_⟩⟩
    rw [hes, ← hlog] at hbegins
    exact (List.prefix_append_right_inj _).1 hbegins

/-- A sequence is interrupted in its first part, or in its second part. -/
lemma Interrupts.bind {f g : α → Program ε E S β} (h : Interrupts stops x y)
    (hf : ∀ a, Interrupts stops (f a) (g a)) : Interrupts stops (x >>= f) (y >>= g) := by
  refine ⟨h.appends.bind fun a => (hf a).appends, fun w => ?_⟩
  change EStateM.bind x f w = EStateM.bind y g w ∨ ∃ e w', EStateM.bind x f w = .error e w' ∧ stops e ∧
    w.log <+: w'.log ∧ w'.log <+: (final (EStateM.bind y g w)).log
  have hw := h.appends w
  rcases h.cut w with heq | ⟨e, w', hxw, he, hlog, hbegins⟩
  · cases hyw : y w with
    | error e w' =>
      rw [hyw] at heq
      simp only [EStateM.bind, heq, hyw]
      exact .inl trivial
    | ok a w' =>
      rw [hyw] at heq hw
      simp only [EStateM.bind, heq, hyw]
      rcases (hf a).cut w' with heq' | ⟨e, w'', hfw, he, hlog', hbegins'⟩
      · exact .inl heq'
      · exact .inr ⟨e, w'', hfw, he, hw.trans hlog', hbegins'⟩
  · refine .inr ⟨e, w', ?_, he, hlog, ?_⟩
    · simp only [EStateM.bind, hxw]
    · cases hyw : y w with
      | error e' w'' =>
        rw [hyw] at hbegins
        simp only [EStateM.bind, hyw]
        exact hbegins
      | ok a w'' =>
        rw [hyw] at hbegins
        simp only [EStateM.bind, hyw]
        exact hbegins.trans ((hf a).appends w'')

/-- A step that fails more often. -/
lemma Interrupts.tick {fails fails' : ℕ → Bool} {err : ε} (hstop : stops err)
    (h : ∀ t, fails' t = true → fails t = true) :
    Interrupts stops (Exec.tick fails err : Program ε E S ℕ) (Exec.tick fails' err) := by
  have hlog : ∀ w : World E S, (final (Exec.tick fails' err w)).log = w.log := by
    intro w
    rw [Exec.tick]
    split
    · rfl
    · rfl
  refine ⟨fun w => (hlog w).symm ▸ List.prefix_rfl, fun w => ?_⟩
  cases hfails : fails w.clock with
  | true =>
    refine .inr ⟨err, { w with clock := w.clock + 1 }, if_pos hfails, hstop, List.prefix_rfl, ?_⟩
    exact (hlog w).symm ▸ List.prefix_rfl
  | false =>
    have hfails' : fails' w.clock = false := by
      rw [← Bool.not_eq_true]
      intro ht
      rw [h _ ht] at hfails
      cases hfails
    rw [Exec.tick, Exec.tick, hfails, hfails']
    exact .inl rfl

/-- Variables of its own make no difference. -/
lemma Interrupts.withVars {vars : S'} {x y : Program ε E S' α} (h : Interrupts stops x y) :
    Interrupts stops (Exec.withVars vars x : Program ε E S (α × S')) (Exec.withVars vars y) := by
  refine ⟨h.appends.withVars, fun w => ?_⟩
  rw [Exec.withVars, Exec.withVars]
  rcases h.cut { w with vars } with heq | ⟨e, w', hxw, he, hlog, hbegins⟩
  · rw [heq]
    exact .inl rfl
  · refine .inr ⟨e, { w' with vars := w.vars }, ?_, he, hlog, ?_⟩
    · rw [hxw]
    · cases hyw : y { w with vars } with
      | ok a w'' =>
        rw [hyw] at hbegins
        exact hbegins
      | error e' w'' =>
        rw [hyw] at hbegins
        exact hbegins

/-- A loop is interrupted in one of its rounds. -/
lemma Interrupts.forM {γ : Type} {f g : γ → Program ε E S Unit}
    (h : ∀ c, Interrupts stops (f c) (g c)) (cs : List γ) :
    Interrupts stops (forM cs f) (forM cs g) := by
  induction cs with
  | nil => exact .refl .pure
  | cons c cs ih =>
    rw [List.forM_cons, List.forM_cons]
    exact .bind (h c) fun _ => ih

end Exec
