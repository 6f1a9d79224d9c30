import Saco.Exec.Program

/-!
# Programs that only differ when they are stopped

`Refines stops x y`: the program `y` does what `x` does, except that `x` may be stopped by an error
where `y` goes on. The rules follow the ways to build a program.
-/

namespace Exec

variable {ε E S S' α β : Type} {stops : ε → Prop} {x y : Program ε E S α}

/-- `y` does what `x` does, unless `x` is stopped. -/
def Refines (stops : ε → Prop) (x y : Program ε E S α) : Prop :=
  ∀ w, (∃ e w', x w = .error e w' ∧ stops e) ∨ y w = x w

/-- A program refines itself. -/
lemma Refines.refl : Refines stops x x := fun _ => .inr rfl

/-- A sequence is refined part by part. -/
lemma Refines.bind {f g : α → Program ε E S β} (h : Refines stops x y)
    (hf : ∀ a, Refines stops (f a) (g a)) : Refines stops (x >>= f) (y >>= g) := by
  intro w
  change (∃ e w', EStateM.bind x f w = .error e w' ∧ stops e) ∨ EStateM.bind y g w = EStateM.bind x f w
  rcases h w with ⟨e, w', hx, he⟩ | heq
  · simp only [EStateM.bind, hx]
    exact .inl ⟨e, w', rfl, he⟩
  · simp only [EStateM.bind, heq]
    cases x w with
    | ok a w' => exact hf a w'
    | error e w' => exact .inr rfl

/-- Functions of the variables that differ only where the first one stops. -/
lemma Refines.apply {g g' : S → Except ε (α × S)}
    (h : ∀ s, (∃ e, g s = .error e ∧ stops e) ∨ g' s = g s) :
    Refines stops (Exec.apply g : Program ε E S α) (Exec.apply g') := by
  intro w
  rw [Exec.apply, Exec.apply]
  rcases h w.vars with ⟨e, hg, he⟩ | heq
  · rw [hg]
    exact .inl ⟨e, w, rfl, he⟩
  · rw [heq]
    exact .inr rfl

/-- An error that stops a program does not unwind. -/
lemma Refines.unwinding {unwinds : ε → Bool} {cleanup : Program ε E S Unit}
    (hstop : ∀ e, stops e → unwinds e = false) (h : Refines stops x y) :
    Refines stops (Exec.unwinding unwinds cleanup x) (Exec.unwinding unwinds cleanup y) := by
  intro w
  rcases h w with ⟨e, w', hx, he⟩ | heq
  · exact .inl ⟨e, w', unwinding_abort hx (hstop e he), he⟩
  · rw [Exec.unwinding, Exec.unwinding, heq]
    exact .inr rfl

/-- Variables of its own make no difference. -/
lemma Refines.withVars {vars : S'} {x y : Program ε E S' α} (h : Refines stops x y) :
    Refines stops (Exec.withVars vars x : Program ε E S (α × S')) (Exec.withVars vars y) := by
  intro w
  rw [Exec.withVars, Exec.withVars]
  rcases h { w with vars } with ⟨e, w', hx, he⟩ | heq
  · rw [hx]
    exact .inl ⟨e, _, rfl, he⟩
  · rw [heq]
    exact .inr rfl

/-- A loop is refined round by round. -/
lemma Refines.forM {γ : Type} {f g : γ → Program ε E S Unit} (h : ∀ c, Refines stops (f c) (g c))
    (cs : List γ) : Refines stops (forM cs f) (forM cs g) := by
  induction cs with
  | nil => exact .refl
  | cons c cs ih =>
    rw [List.forM_cons, List.forM_cons]
    exact .bind (h c) fun _ => ih

end Exec
