import Saco.Exec.Program

/-!
# Which runs fail

The steps of a run that can fail are those that it takes between two times of the clock. `Blames` says
that a program fails with one certain error just when one of these steps fails: it does not fail without
a reason, and it does not go on after a failure. The rules follow the ways to build a program.
-/

namespace Exec

variable {ε E S S' α β : Type} {fails : ℕ → Bool} {err : ε} {x : Program ε E S α} {a b c : ℕ}

/-- A step fails at one of the times from `a` on and before `b`. -/
def Fails (fails : ℕ → Bool) (a b : ℕ) : Prop := ∃ t, a ≤ t ∧ t < b ∧ fails t = true

/-- No step is taken in no time. -/
lemma Fails.irrefl : ¬Fails fails a a := fun ⟨_, hle, hlt, _⟩ =>
  Nat.lt_irrefl a (Nat.lt_of_le_of_lt hle hlt)

/-- A span of time is split in two. -/
lemma fails_split (hab : a ≤ b) (hbc : b ≤ c) : Fails fails a c ↔ Fails fails a b ∨ Fails fails b c := by
  constructor
  · rintro ⟨t, hle, hlt, ht⟩
    cases Nat.lt_or_ge t b with
    | inl h => exact .inl ⟨t, hle, h, ht⟩
    | inr h => exact .inr ⟨t, h, hlt, ht⟩
  · rintro (⟨t, hle, hlt, ht⟩ | ⟨t, hle, hlt, ht⟩)
    · exact ⟨t, hle, Nat.lt_of_lt_of_le hlt hbc, ht⟩
    · exact ⟨t, Nat.le_trans hab hle, hlt, ht⟩

/-- Only one step is taken until the next time. -/
lemma fails_succ : Fails fails a (a + 1) ↔ fails a = true := by
  constructor
  · rintro ⟨t, hle, hlt, ht⟩
    obtain rfl : t = a := by omega
    exact ht
  · exact fun h => ⟨a, Nat.le_refl a, Nat.lt_succ_self a, h⟩

/-- The error of a run that has failed. -/
lemma outcome_error {σ : Type} {e : ε} {s : σ} :
    outcome (.error e s : EStateM.Result ε σ α) = .error err ↔ e = err :=
  ⟨Except.error.inj, congrArg Except.error⟩

/-- A run that returns has not failed. -/
lemma outcome_ok_ne {σ : Type} {r : α} {s : σ} :
    outcome (.ok r s : EStateM.Result ε σ α) ≠ .error err := by
  intro h
  cases h

/-- A run fails with `err` just when one of the steps that it takes fails. -/
def Blames (fails : ℕ → Bool) (err : ε) (x : Program ε E S α) : Prop :=
  ∀ w, w.clock ≤ (final (x w)).clock ∧
    (outcome (x w) = .error err ↔ Fails fails w.clock (final (x w)).clock)

/-- Without a failing step, a run ends in some other way. -/
lemma Blames.ne_error {w : World E S} (hx : Blames fails err x)
    (h : ¬Fails fails w.clock (final (x w)).clock) : outcome (x w) ≠ .error err :=
  mt (hx w).2.1 h

/-- A program that takes no step and does not fail with `err`. -/
lemma Blames.quiet (h : ∀ w, (final (x w)).clock = w.clock ∧ outcome (x w) ≠ .error err) :
    Blames fails err x := by
  intro w
  obtain ⟨hclock, hne⟩ := h w
  rw [hclock]
  exact ⟨Nat.le_refl _, iff_of_false hne Fails.irrefl⟩

/-- Returning takes no step. -/
lemma Blames.pure {a : α} : Blames fails err (Pure.pure a : Program ε E S α) :=
  .quiet fun _ => ⟨rfl, outcome_ok_ne⟩

/-- Logging takes no step. -/
lemma Blames.emit {e : E} : Blames fails err (Exec.emit e : Program ε E S Unit) :=
  .quiet fun _ => ⟨rfl, outcome_ok_ne⟩

/-- A function of the variables that fails in other ways only. -/
lemma Blames.apply {g : S → Except ε (α × S)} (h : ∀ s, g s ≠ .error err) :
    Blames fails err (Exec.apply g : Program ε E S α) := by
  refine .quiet fun w => ?_
  have hg := h w.vars
  rw [Exec.apply]
  cases hgw : g w.vars with
  | ok r => exact ⟨rfl, outcome_ok_ne⟩
  | error e =>
    rw [hgw] at hg
    exact ⟨rfl, fun he => hg (congrArg Except.error (Except.error.inj he))⟩

/-- One step. -/
lemma Blames.tick : Blames fails err (Exec.tick fails err : Program ε E S ℕ) := by
  intro w
  have hclock : (final (Exec.tick fails err w)).clock = w.clock + 1 := by
    rw [Exec.tick]
    split <;> rfl
  rw [hclock, fails_succ, Exec.tick]
  refine ⟨Nat.le_succ _, ?_⟩
  split
  case isTrue h => exact iff_of_true rfl h
  case isFalse h => exact iff_of_false outcome_ok_ne h

/-- A sequence takes the steps of both parts, and it does not begin the second part after a failure. -/
lemma Blames.bind {f : α → Program ε E S β} (hx : Blames fails err x)
    (hf : ∀ a, Blames fails err (f a)) : Blames fails err (x >>= f) := by
  intro w
  change w.clock ≤ (final (EStateM.bind x f w)).clock ∧ (outcome (EStateM.bind x f w) = .error err ↔
    Fails fails w.clock (final (EStateM.bind x f w)).clock)
  obtain ⟨hle, hiff⟩ := hx w
  cases hxw : x w with
  | error e w' =>
    rw [hxw] at hle hiff
    simp only [EStateM.bind, hxw]
    exact ⟨hle, outcome_error.trans (outcome_error.symm.trans hiff)⟩
  | ok a w' =>
    rw [hxw] at hle hiff
    simp only [EStateM.bind, hxw]
    obtain ⟨hle', hiff'⟩ := hf a w'
    have hfirst : ¬Fails fails w.clock w'.clock := mt hiff.2 outcome_ok_ne
    have hboth : Fails fails w.clock (final (f a w')).clock ↔
        Fails fails w'.clock (final (f a w')).clock :=
      (fails_split hle hle').trans (or_iff_right hfirst)
    exact ⟨Nat.le_trans hle hle', hiff'.trans hboth.symm⟩

/-- The clock is shared with programs on other variables. -/
lemma Blames.withVars {vars : S'} {y : Program ε E S' α} (hy : Blames fails err y) :
    Blames fails err (Exec.withVars vars y : Program ε E S (α × S')) := by
  intro w
  obtain ⟨hle, hiff⟩ := hy { w with vars }
  rw [Exec.withVars]
  cases hyw : y { w with vars } with
  | ok a w' =>
    rw [hyw] at hle hiff
    exact ⟨hle, iff_of_false outcome_ok_ne (mt hiff.2 outcome_ok_ne)⟩
  | error e w' =>
    rw [hyw] at hle hiff
    exact ⟨hle, outcome_error.trans (outcome_error.symm.trans hiff)⟩

/-- A cleanup that takes no step and does not fail. -/
lemma Blames.unwinding {unwinds : ε → Bool} {cleanup : Program ε E S Unit} (hx : Blames fails err x)
    (hc : ∀ w, ∃ w', cleanup w = .ok () w' ∧ w'.clock = w.clock) :
    Blames fails err (Exec.unwinding unwinds cleanup x) := by
  intro w
  obtain ⟨hle, hiff⟩ := hx w
  cases hxw : x w with
  | ok a w' =>
    rw [hxw] at hle hiff
    rw [unwinding_ok hxw]
    exact ⟨hle, hiff⟩
  | error e w' =>
    rw [hxw] at hle hiff
    cases he : unwinds e with
    | false =>
      rw [unwinding_abort hxw he]
      exact ⟨hle, hiff⟩
    | true =>
      obtain ⟨w'', hclean, hclock⟩ := hc w'
      rw [unwinding_clean hxw he hclean]
      change w.clock ≤ w''.clock ∧ (Except.error e = Except.error err ↔ Fails fails w.clock w''.clock)
      rw [hclock]
      exact ⟨hle, hiff⟩

/-- A loop takes the steps of its rounds. -/
lemma Blames.forM {γ : Type} {f : γ → Program ε E S Unit} (hf : ∀ c, Blames fails err (f c))
    (cs : List γ) : Blames fails err (forM cs f) := by
  induction cs with
  | nil => exact .pure
  | cons c cs ih =>
    rw [List.forM_cons]
    exact .bind (hf c) fun _ => ih

end Exec
