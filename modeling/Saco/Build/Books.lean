import Saco.Build.Depth
import Saco.Build.Unique
import Saco.Exec.Ledger

/-!
# The books of `build_unique`

Which memory and which objects a run is responsible for. Every event is a move in two ledgers, one for
memory and one for the object at depth zero; `Books` gives the moves of a run. The parts of
`build_unique` have one lemma each, and `books_buildUnique` puts them together.
-/

namespace Saco.Build
open Exec Layout

variable {S : Type}

/-- What an event means for the memory that is held. -/
def Event.blockMove : Event → Option (Move SizeT)
  | .obtain a _ => some (.acquire a)
  | .free a => some (.release a)
  | _ => none

/-- What an event means for the life of the object at depth zero. -/
def Event.objectMove : Event → Option (Move SizeT)
  | .construct 0 a => some (.acquire a)
  | .destroy a => some (.release a)
  | _ => none

/-- The moves of a run, for memory and for the object. -/
def Books (blocks objects : List (Move SizeT)) (es : List Event) : Prop :=
  es.filterMap Event.blockMove = blocks ∧ es.filterMap Event.objectMove = objects

/-- One log after the other. -/
lemma Books.append {es es' : List Event} {bs bs' os os' : List (Move SizeT)} (h : Books bs os es)
    (h' : Books bs' os' es') : Books (bs ++ bs') (os ++ os') (es ++ es') := by
  refine ⟨?_, ?_⟩
  · rw [List.filterMap_append, h.1, h'.1]
  · rw [List.filterMap_append, h.2, h'.2]

/-- Requests and constructors of other objects are not in the books. -/
lemma books_nil {construct : Bool} {es : List Event}
    (h : ∀ e ∈ es, e.Inner construct 1) : Books [] [] es := by
  refine ⟨List.filterMap_eq_nil_iff.2 fun e he => ?_, List.filterMap_eq_nil_iff.2 fun e he => ?_⟩
  all_goals have hinner := h e he
  · cases e with
    | request q => rfl
    | construct d a => rfl
    | destroy a => rfl
    | obtain a purpose => exact hinner.elim
    | free a => exact hinner.elim
  · cases e with
    | request q => rfl
    | construct d a =>
      cases d with
      | zero => exact absurd hinner.2 (by omega)
      | succ d => rfl
    | destroy a => exact hinner.elim
    | obtain a purpose => rfl
    | free a => rfl

/-- What a run logs when it returns and when it throws. Nothing is said about a run that an assertion
ends. -/
def Enters {S α : Type} (ok : α → List Event → Prop) (thrown : List Event → Prop) :
    Spec Abort Event S α :=
  fun _ r es _ =>
    match r with
    | .ok a => ok a es
    | .error .exception => thrown es
    | .error (.assertion _) => True

section Enters

variable {α β : Type} {x : Program Abort Event S α} {f : α → Program Abort Event S β}
  {ok : α → List Event → Prop} {thrown thrown' : List Event → Prop}

/-- What holds of the events holds however the run ends. -/
lemma Enters.of_emits {p : List Event → Prop} (hx : Meets x fun _ _ es _ => p es) :
    Meets x (Enters (fun _ => p) p) := by
  refine Meets.mono hx fun s r es s' h => ?_
  cases r with
  | ok a => exact h
  | error e =>
    cases e with
    | assertion expr => trivial
    | exception => exact h

/-- Both entries may be weakened. -/
lemma Enters.mono {ok' : α → List Event → Prop} (hx : Meets x (Enters ok thrown))
    (hok : ∀ a es, ok a es → ok' a es) (hthrown : ∀ es, thrown es → thrown' es) :
    Meets x (Enters ok' thrown') := by
  refine Meets.mono hx fun s r es s' h => ?_
  cases r with
  | ok a => exact hok a es h
  | error e =>
    cases e with
    | assertion expr => trivial
    | exception => exact hthrown es h

/-- Returning. -/
lemma Enters.pure {a : α} {thrown : List Event → Prop} (h : ok a []) :
    Meets (Pure.pure a : Program Abort Event S α) (Enters ok thrown) :=
  .pure fun _ => h

/-- A single event. -/
lemma Enters.emit {e : Event} {ok : Unit → List Event → Prop} (h : ok () [e]) :
    Meets (Exec.emit e : Program Abort Event S Unit) (Enters ok thrown) :=
  .emit fun _ => h

/-- One program after the other, where the first or the second one may throw. -/
lemma Enters.bind {ok' : α → β → List Event → Prop} {thrown' : α → List Event → Prop}
    {ok'' : β → List Event → Prop} {thrown'' : List Event → Prop} (hx : Meets x (Enters ok thrown))
    (hf : ∀ a, Meets (f a) (Enters (ok' a) (thrown' a)))
    (hok : ∀ a es b es', ok a es → ok' a b es' → ok'' b (es ++ es'))
    (hfirst : ∀ es, thrown es → thrown'' es)
    (hsecond : ∀ a es es', ok a es → thrown' a es' → thrown'' (es ++ es')) :
    Meets (x >>= f) (Enters ok'' thrown'') := by
  refine .bind hx hf ?_ ?_
  · intro s e es s' h
    cases e with
    | assertion expr => trivial
    | exception => exact hfirst _ h
  · intro s a es s' r es' s'' h h'
    cases r with
    | ok b => exact hok _ _ _ _ h h'
    | error e =>
      cases e with
      | assertion expr => trivial
      | exception => exact hsecond _ _ _ h h'

/-- Another value is returned. -/
lemma Enters.thenReturn {g : α → β} {ok' : β → List Event → Prop} (hx : Meets x (Enters ok thrown))
    (h : ∀ a es, ok a es → ok' (g a) es) :
    Meets (do let a ← x; return g a) (Enters ok' thrown) := by
  have hreturn : ∀ a, Meets (Pure.pure (g a) : Program Abort Event S β)
      (Enters (fun b es => b = g a ∧ es = []) fun _ => False) :=
    fun a => Enters.pure ⟨rfl, rfl⟩
  refine Enters.bind hx hreturn ?_ (fun _ h => h) fun _ _ _ _ h => h.elim
  rintro a es b es' ha ⟨rfl, rfl⟩
  rw [List.append_nil]
  exact h a es ha

/-- A function of the variables. -/
lemma Enters.apply {g : S → Except Abort (α × S)} {thrown : List Event → Prop}
    (hok : ∀ s a s', g s = .ok (a, s') → ok a []) (hthrown : thrown []) :
    Meets (Exec.apply g : Program Abort Event S α) (Enters ok thrown) := by
  refine .apply hok fun s e _ => ?_
  cases e with
  | assertion expr => trivial
  | exception => exact hthrown

/-- An owner whose scope an exception leaves runs its destructor. -/
lemma Enters.unwinding {cleanup : Program Abort Event S Unit} {cleaned : List Event → Prop}
    (hx : Meets x (Enters ok thrown)) (hc : Meets cleanup fun _ r es _ => r = .ok () ∧ cleaned es)
    (hthrown : ∀ es es', thrown es → cleaned es' → thrown' (es ++ es')) :
    Meets (Exec.unwinding Abort.unwinds cleanup x) (Enters ok thrown') := by
  refine .unwinding hx hc (fun _ _ _ _ h => h) ?_ ?_ ?_
  · intro s e es s' he h
    cases e with
    | assertion expr => trivial
    | exception => cases he
  · intro s e es s' es' s'' he h hc
    cases e with
    | assertion expr => trivial
    | exception => exact hthrown _ _ h hc.2
  · rintro s e es s' ⟨h, -⟩
    cases h

end Enters

/-! ## What the parts of `build_unique` enter in the books -/

variable {env : Env} {T : CxxType} {children : List Plan} {p size : SizeT}

/-- The measure pass moves nothing. -/
lemma books_measure : Meets (measure env T children : Program Abort Event S SizeT)
    (Enters (fun _ => Books [] []) (Books [] [])) := by
  have hrun : Emits (Event.Inner false 0) (measure env T children : Program Abort Event S SizeT) :=
    Emits.bind (Emits.withVars (inner_run (C := MeasureContext) 0 (.place T children))) fun _ =>
      Emits.pure
  refine Enters.of_emits (Meets.mono hrun fun s r es s' h => ?_)
  have hquiet : ∀ e ∈ es, e.Inner false 1 := by
    intro e he
    have hinner := h e he
    cases e with
    | construct d a => exact absurd hinner.1 nofun
    | _ => exact hinner
  exact books_nil hquiet

/-- The construct pass completes the object, if it returns. -/
lemma books_construct : Meets (construct env T children p size : Program Abort Event S SizeT)
    (Enters (fun obj => Books [] [.acquire obj]) (Books [] [])) := by
  have hplace : Meets (withVars (⟨.init p size, ()⟩ : Scope ConstructContext Unit)
      ((Plan.place T children).run env 0) : Program Abort Event S (SizeT × Scope ConstructContext Unit))
      (Enters (fun r => Books [] [.acquire r.1]) (Books [] [])) := by
    refine .withVars built_run ?_ ?_
    · rintro s obj es s' ⟨es', hes', rfl⟩
      exact (books_nil hes').append ⟨rfl, rfl⟩
    · intro s e es s' h
      cases e with
      | assertion expr => trivial
      | exception => exact books_nil h
  exact Enters.thenReturn hplace fun _ _ h => h

/-- An assertion that holds, or is compiled out. -/
lemma enters_check {cfg : Config} {expr : String} {holds : Bool} :
    Meets (check cfg expr holds : Program Abort Event S Unit)
      (Enters (fun _ es => es = [] ∧ (cfg.ndebug = true ∨ holds = true)) fun _ => False) := by
  rcases sacoAssert_cases cfg expr holds with ⟨hok, hholds⟩ | herror
  · refine .apply (fun s a s' h => ⟨rfl, hholds⟩) fun s e h => ?_
    rw [hok] at h
    cases h
  · refine .apply (fun s a s' h => ?_) fun s e h => ?_
    all_goals
      rw [herror] at h
      cases h
    trivial

/-- `operator new` obtains a block, unless it throws. -/
lemma books_operatorNew {purpose : Purpose} : Meets (operatorNew env purpose : Program Abort Event S SizeT)
    (Enters (fun p => Books [.acquire p] []) (Books [] [])) := by
  have htick : Meets (tick env.throws .exception : Program Abort Event S ℕ)
      (Enters (fun _ => Books [] []) (Books [] [])) :=
    Enters.of_emits (.tick (fun _ _ => ⟨rfl, rfl⟩) fun _ _ _ => ⟨rfl, rfl⟩)
  have hemit : ∀ p, Meets (emit (.obtain p purpose) : Program Abort Event S Unit)
      (Enters (fun _ => Books [.acquire p] []) fun _ => False) :=
    fun p => Enters.emit ⟨rfl, rfl⟩
  have hobtain : ∀ p, Meets (do emit (.obtain p purpose); return p : Program Abort Event S SizeT)
      (Enters (fun p' es => p' = p ∧ Books [.acquire p] [] es) fun _ => False) :=
    fun p => Enters.thenReturn (hemit p) fun _ _ h => ⟨rfl, h⟩
  refine Enters.bind htick (fun time => hobtain _) ?_ (fun _ h => h) fun _ _ _ _ h => h.elim
  rintro time es _ es' h ⟨rfl, h'⟩
  exact h.append h'

/-- `alloc_raw` obtains a block, unless it throws. -/
lemma books_allocRaw : Meets (allocRaw env size : Program Abort Event S SizeT)
    (Enters (fun p => Books [.acquire p] []) (Books [] [])) := by
  have hchecked : ∀ p, Meets (do
      check env.cfg "alignment of operator new" (allocRawAligned env.cfg size p)
      return p : Program Abort Event S SizeT)
      (Enters (fun p' es => p' = p ∧ es = []) fun _ => False) :=
    fun p => Enters.thenReturn enters_check fun _ _ h => ⟨rfl, h.1⟩
  refine Enters.bind books_operatorNew hchecked ?_ (fun _ h => h) fun _ _ _ _ h => h.elim
  rintro p es _ _ h ⟨rfl, rfl⟩
  rwa [List.append_nil]

/-- `free_raw` gives the block back. -/
lemma books_freeRaw : Meets (freeRaw p : Program Abort Event S Unit)
    fun _ r es _ => r = .ok () ∧ Books [.release p] [] es :=
  .emit fun _ => ⟨rfl, rfl, rfl⟩

/-- `saco_delete` destroys the object and gives its block back. -/
lemma books_sacoDelete : Meets (sacoDelete p : Program Abort Event S Unit)
    fun _ r es _ => r = .ok () ∧ Books [.release p] [.release p] es := by
  refine .emitThen books_freeRaw fun s r es s' h => ?_
  have hdestroy : Books [] [.release p] [.destroy p] := ⟨rfl, rfl⟩
  exact ⟨h.1, hdestroy.append h.2⟩

/-- The last part of `build_unique`. The raw memory is freed if the construct pass throws, and nothing
throws while memory and object both have an owner. -/
lemma books_owned {raw : SizeT} : Meets (do
      let obj ← unwinding Abort.unwinds (freeRaw raw) (construct env T children raw size)
      unwinding Abort.unwinds (sacoDelete obj) (check env.cfg "obj.get() == rmem" (obj == raw))
      return obj : Program Abort Event S SizeT)
    (Enters (fun obj es => (env.cfg.ndebug = true ∨ obj = raw) ∧ Books [] [.acquire obj] es)
      (Books [.release raw] [])) := by
  have hconstruct : Meets (unwinding Abort.unwinds (freeRaw raw)
      (construct env T children raw size) : Program Abort Event S SizeT)
      (Enters (fun obj => Books [] [.acquire obj]) (Books [.release raw] [])) :=
    Enters.unwinding books_construct books_freeRaw fun _ _ h h' => h.append h'
  have hrelease : ∀ obj, Meets (do
      unwinding Abort.unwinds (sacoDelete obj) (check env.cfg "obj.get() == rmem" (obj == raw))
      return obj : Program Abort Event S SizeT)
      (Enters (fun obj' es => obj' = obj ∧ es = [] ∧ (env.cfg.ndebug = true ∨ obj = raw))
        fun _ => False) :=
    fun obj => Enters.thenReturn (Enters.unwinding enters_check books_sacoDelete fun _ _ h _ => h.elim)
      fun _ _ h => ⟨rfl, h.1, by simpa using h.2⟩
  refine Enters.bind hconstruct hrelease ?_ (fun _ h => h) fun _ _ _ _ h => h.elim
  rintro obj es _ _ h ⟨rfl, rfl, hraw⟩
  rw [List.append_nil]
  exact ⟨hraw, h⟩

/-- An object of `build_unique` is in the block that was obtained for it, if the assertions hold. If an
exception leaves the function a block that was obtained has been freed, and there is no object. -/
def OwnsUnique (cfg : Config) : Spec Abort Event S SizeT :=
  Enters (fun obj es => ∃ raw, (cfg.ndebug = true ∨ obj = raw) ∧ Books [.acquire raw] [.acquire obj] es)
    fun es => Books [] [] es ∨ ∃ p, Books [.acquire p, .release p] [] es

/-- What `build_unique` returns owns one object and one block. -/
lemma books_buildUnique : Meets (buildUnique env T children : Program Abort Event S SizeT)
    (OwnsUnique env.cfg) := by
  have hraw : ∀ size, Meets (do
      let raw ← allocRaw env size
      let obj ← unwinding Abort.unwinds (freeRaw raw) (construct env T children raw size)
      unwinding Abort.unwinds (sacoDelete obj) (check env.cfg "obj.get() == rmem" (obj == raw))
      return obj : Program Abort Event S SizeT) (OwnsUnique env.cfg) := by
    refine fun size => Enters.bind books_allocRaw (fun raw => books_owned) ?_ ?_ ?_
    · exact fun raw es obj es' h h' => ⟨raw, h'.1, h.append h'.2⟩
    · exact fun es h => .inl h
    · exact fun raw es es' h h' => .inr ⟨raw, h.append h'⟩
  refine Enters.bind books_measure hraw ?_ ?_ ?_
  · exact fun size es obj es' h ⟨raw, hobj, h'⟩ => ⟨raw, hobj, h.append h'⟩
  · exact fun es h => .inl h
  · exact fun size es es' h h' => h'.imp h.append fun ⟨p, h'⟩ => ⟨p, h.append h'⟩

end Saco.Build
