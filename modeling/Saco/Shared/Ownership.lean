import Saco.Build.Books
import Saco.Build.Elements
import Saco.Build.Ndebug
import Saco.Shared.BuildShared

/-!
# Ownership on every path

The books of `build_shared`, on the path that embeds the object and on the path that converts a
`unique_ptr`, and the result about both functions: `ownership_exact`. Whatever throws, in the measure
pass, in an allocation, in any constructor or builder of the plan or in the conversion, every block that
was obtained is freed once and an object that was complete is destroyed once. A run that returns frees
nothing; the last owner does. The builders of a plan construct their objects last, so the head is complete
only behind all that can throw in its builder.
-/

namespace Saco.Shared
open Build Exec Layout

variable {S : Type} {env : Env} {T : CxxType} {children : List Plan}

/-! ## The books of `build_shared` -/

/-- The factory obtains one block, unless it throws. -/
lemma books_sharedBufferFactory {OBJECT_SIZE : SizeT} :
    Meets (sharedBufferFactory env OBJECT_SIZE : Program Abort Event S SharedBuffer)
      (Enters (fun sp => Books [.acquire sp.block] []) (Books [] [])) := by
  exact Enters.thenReturn books_operatorNew fun _ _ h => h

/-- `shared_alloc_impl::alloc` obtains one block, unless it throws. -/
lemma books_alloc {size : SizeT} : Meets (alloc env size : Program Abort Event S SharedBuffer)
    (Enters (fun sp => Books [.acquire sp.block] []) (Books [] [])) := by
  have hdispatch : Meets (apply fun vars => (dispatch env.cfg size).map (·, vars) :
      Program Abort Event S SizeT) (Enters (fun _ => Books [] []) (Books [] [])) :=
    Enters.apply (fun _ _ _ _ => ⟨rfl, rfl⟩) ⟨rfl, rfl⟩
  exact Enters.bind hdispatch (fun _ => books_sharedBufferFactory) (fun _ _ _ _ h h' => h.append h')
    (fun _ h => h) fun _ _ _ h h' => h.append h'

/-- A conversion obtains a control block, or releases the object. -/
lemma books_convert {obj : SizeT} : Meets (convert env obj : Program Abort Event S Managed)
    (Enters (fun m es => ∃ control, m = .unique obj control ∧ Books [.acquire control] [] es)
      (Books [.release obj] [.release obj])) :=
  Enters.thenReturn (Enters.unwinding books_operatorNew books_sacoDelete fun _ _ h h' => h.append h')
    fun control _ h => ⟨control, rfl, h⟩

/-- What a run that threw has left. In the last case there was no memory for the conversion. -/
def Abandoned (cfg : Config) (es : List Event) : Prop :=
  Books [] [] es ∨ (∃ p, Books [.acquire p, .release p] [] es) ∨
    ∃ raw obj, (cfg.ndebug = true ∨ obj = raw) ∧
      Books [.acquire raw, .release obj] [.acquire obj, .release obj] es

/-- A log in front that moves nothing makes no difference. -/
lemma Abandoned.append {cfg : Config} {es es' : List Event} (h : Books [] [] es)
    (h' : Abandoned cfg es') : Abandoned cfg (es ++ es') := by
  rcases h' with h' | ⟨p, h'⟩ | ⟨raw, obj, hobj, h'⟩
  · exact .inl (h.append h')
  · exact .inr (.inl ⟨p, h.append h'⟩)
  · exact .inr (.inr ⟨raw, obj, hobj, h.append h'⟩)

/-- A pointer to an object of `build_unique`, and what has been logged. -/
def Converted (cfg : Config) (m : Managed) (es : List Event) : Prop :=
  ∃ raw obj control, m = .unique obj control ∧ (cfg.ndebug = true ∨ obj = raw) ∧
    Books [.acquire raw, .acquire control] [.acquire obj] es

/-- A log in front that moves nothing makes no difference. -/
lemma Converted.append {cfg : Config} {m : Managed} {es es' : List Event} (h : Books [] [] es)
    (h' : Converted cfg m es') : Converted cfg m (es ++ es') := by
  obtain ⟨raw, obj, control, rfl, hobj, h'⟩ := h'
  exact ⟨raw, obj, control, rfl, hobj, h.append h'⟩

/-- The path through `build_unique`. -/
lemma books_convertUnique : Meets (convertUnique env T children : Program Abort Event S Managed)
    (Enters (Converted env.cfg) (Abandoned env.cfg)) := by
  refine Enters.bind books_buildUnique (fun obj => books_convert) ?_ ?_ ?_
  · rintro obj es _ es' ⟨raw, hobj, h⟩ ⟨control, rfl, h'⟩
    exact ⟨raw, obj, control, rfl, hobj, h.append h'⟩
  · exact fun es h => h.imp_right .inl
  · rintro obj es es' ⟨raw, hobj, h⟩ h'
    exact .inr (.inr ⟨raw, obj, hobj, h.append h'⟩)

/-- A pointer to an object in a buffer, and what has been logged. -/
def Embedded (T : CxxType) (m : Managed) (es : List Event) : Prop :=
  ∃ sp object, m = .buffer sp (setDtorFn T.hasVirtualDestructor { sp.header with object }) ∧
    Books [.acquire sp.block] [.acquire object] es

/-- A log in front that moves nothing makes no difference. -/
lemma Embedded.append {m : Managed} {es es' : List Event} (h : Books [] [] es)
    (h' : Embedded T m es') : Embedded T m (es ++ es') := by
  obtain ⟨sp, object, rfl, h'⟩ := h'
  exact ⟨sp, object, rfl, h.append h'⟩

/-- A header without an object only frees its block. -/
lemma meets_dispose {sp : SharedBuffer} :
    Meets (forM (Managed.buffer sp sp.header).dispose emit : Program Abort Event S Unit)
      fun _ r es _ => r = .ok () ∧ Books [.release sp.block] [] es :=
  (Meets.emitAll _).mono fun _ _ _ _ h => ⟨h.1, h.2 ▸ ⟨rfl, rfl⟩⟩

/-- The destructor of the header has nothing to call until the object is complete. -/
lemma books_buildIn {size : SizeT} {sp : SharedBuffer} :
    Meets (buildIn env T children size sp : Program Abort Event S Managed)
      (Enters (fun m es => ∃ object,
        m = .buffer sp (setDtorFn T.hasVirtualDestructor { sp.header with object }) ∧
          Books [] [.acquire object] es) (Books [.release sp.block] [])) := by
  have hplace : Meets (unwinding Abort.unwinds (forM (Managed.buffer sp sp.header).dispose emit)
      (construct env T children sp.header.object size) : Program Abort Event S SizeT)
      (Enters (fun object => Books [] [.acquire object]) (Books [.release sp.block] [])) :=
    Enters.unwinding books_construct meets_dispose fun _ _ h h' => h.append h'
  have hset : ∀ header, Meets (do
      unwinding Abort.unwinds (forM (Managed.buffer sp header).dispose emit)
        (check env.cfg "sp->object == original_address" (header.object == sp.header.object))
      return .buffer sp header : Program Abort Event S Managed)
      (Enters (fun m es => m = .buffer sp header ∧ es = []) fun _ => False) :=
    fun header => Enters.thenReturn
      (Enters.unwinding enters_check (Meets.emitAll _) fun _ _ h _ => h.elim) fun _ _ h => ⟨rfl, h.1⟩
  refine Enters.bind hplace (fun object => hset _) ?_ (fun _ h => h) fun _ _ _ _ h => h.elim
  rintro object es _ _ h ⟨rfl, rfl⟩
  rw [List.append_nil]
  exact ⟨object, rfl, h⟩

/-- The path through a `shared_buffer`. -/
lemma books_embed {size : SizeT} :
    Meets (embed env T children size : Program Abort Event S Managed)
      (Enters (Embedded T) (Abandoned env.cfg)) := by
  refine Enters.bind books_alloc (fun sp => books_buildIn) ?_ ?_ ?_
  · rintro sp es m es' h ⟨object, rfl, h'⟩
    exact ⟨sp, object, rfl, h.append h'⟩
  · exact fun es h => .inl h
  · exact fun sp es es' h h' => .inr (.inl ⟨sp.block, h.append h'⟩)

/-- The books of `build_shared`, on either path. -/
lemma books_buildShared : Meets (buildShared env T children : Program Abort Event S Managed)
    (Enters (fun m es => Converted env.cfg m es ∨ Embedded T m es) (Abandoned env.cfg)) := by
  have hpath : ∀ size, Meets
      (if maxSize < size then convertUnique env T children else embed env T children size :
        Program Abort Event S Managed)
      (Enters (fun m es => Converted env.cfg m es ∨ Embedded T m es) (Abandoned env.cfg)) := by
    intro size
    split
    case isTrue => exact Enters.mono books_convertUnique (fun _ _ => .inl) fun _ h => h
    case isFalse => exact Enters.mono books_embed (fun _ _ => .inr) fun _ h => h
  rw [buildShared_eq]
  exact Enters.bind books_measure hpath (fun _ _ _ _ h => .imp (.append h) (.append h)) (fun _ => .inl)
    fun _ _ _ h => .append h

/-! ## Without assertions -/

/-- The dispatcher answers alike in a build without assertions. -/
lemma refines_dispatch {size : SizeT} :
    Agrees (dispatch env.asserting.cfg size) (dispatch env.cfg size) :=
  Agrees.bind agrees_sacoAssert fun _ => Agrees.bind agrees_sacoAssert fun _ => .refl

/-- The allocation of a buffer goes alike in a build without assertions. -/
lemma refines_alloc {size : SizeT} :
    Refines Stops (alloc env.asserting size : Program Abort Event S SharedBuffer)
      (alloc env size) := by
  refine .bind (.apply fun s => ?_) fun _ => .refl
  have hdispatch : Agrees (dispatch env.asserting.cfg size) (dispatch env.cfg size) :=
    refines_dispatch
  rcases hdispatch with ⟨e, h, he⟩ | h
  · rw [h]
    exact .inl ⟨e, rfl, he⟩
  · rw [h]
    exact .inr rfl

/-- The path through a `shared_buffer` goes alike in a build without assertions. -/
lemma refines_embed {size : SizeT} :
    Refines Stops (embed env.asserting T children size : Program Abort Event S Managed)
      (embed env T children size) :=
  .bind refines_alloc fun _ => .bind (refines_unwinding refines_construct) fun _ =>
    .bind (refines_unwinding refines_check) fun _ => .refl

/-- `build_shared` without assertions does what it does with them, as long as none fails. -/
lemma refines_buildShared :
    Refines Stops (buildShared env.asserting T children : Program Abort Event S Managed)
      (buildShared env T children) := by
  rw [buildShared_eq, buildShared_eq]
  refine .bind refines_measure fun size => ?_
  split
  case isTrue => exact .bind refines_buildUnique fun _ => .refl
  case isFalse => exact refines_embed

/-! ## The result -/

/-- A block at `p` is obtained. -/
def obtains (p : SizeT) : Event → Bool
  | .obtain a _ => a == p
  | _ => false

/-- Every block has been freed once, with the address that was obtained, and nothing else was freed. -/
def AllFreed (es : List Event) : Prop :=
  Settled Event.blockMove es ∧ ∀ p, es.count (.free p) = es.countP (obtains p)

/-- Every object at depth zero whose construction completed has been destroyed once, and nothing else
was destroyed. -/
def AllDestroyed (es : List Event) : Prop :=
  Settled Event.objectMove es ∧ ∀ p, es.count (.destroy p) = es.count (.construct 0 p)

/-- Nothing has been freed. -/
def NoneFreed (es : List Event) : Prop :=
  ∀ p, .free p ∉ es

section Settle

variable {bs os : List (Move SizeT)} {es : List Event}

/-- Books that settle their blocks have freed each one once. -/
lemma allFreed_of_settle (h : Books bs os es) (hs : settle bs [] = some []) : AllFreed es := by
  have settled : Settled Event.blockMove es := by
    rw [Settled, h.1, hs]
  refine ⟨settled, settled.countP obtains (fun p e => e == .free p) ?_ ?_⟩
  all_goals
    intro e a
    cases e <;> simp [Event.blockMove, obtains]

/-- Books that settle their objects have destroyed each one once. -/
lemma allDestroyed_of_settle (h : Books bs os es) (hs : settle os [] = some []) :
    AllDestroyed es := by
  have settled : Settled Event.objectMove es := by
    rw [Settled, h.2, hs]
  refine ⟨settled, settled.countP (fun p e => e == .construct 0 p) (fun p e => e == .destroy p) ?_ ?_⟩
  all_goals
    intro e a
    rcases e with _ | ⟨_ | _, _⟩ | _ | _ | _ <;> simp [Event.objectMove]

/-- Books without a release have freed nothing. -/
lemma noneFreed_of_books (h : Books bs os es) (hbs : ∀ p, .release p ∉ bs) : NoneFreed es := by
  intro p hp
  have hmem : .release p ∈ es.filterMap Event.blockMove := List.mem_filterMap.2 ⟨_, hp, rfl⟩
  rw [h.1] at hmem
  exact hbs p hmem

end Settle

/-- One move and its counterpart. -/
lemma settle_one (a : SizeT) : settle [.acquire a, .release a] [] = some [] := by
  simp [settle]

/-- Two moves and their counterparts. -/
lemma settle_two (a b : SizeT) :
    settle [.acquire a, .acquire b, .release a, .release b] [] = some [] := by
  by_cases h : b = a
  · subst h
    simp [settle]
  · simp [settle, h]

/-- The books of `build_unique` are exact: after an exception everything has been freed, and after a
return nothing has been, until `saco_delete` is run. -/
def ExactUnique (es : List Event) : Except Abort SizeT → Prop
  | .ok obj => NoneFreed es ∧ Meets (sacoDelete obj : Program Abort Event Unit Unit)
      fun _ r es' _ => r = .ok () ∧ AllFreed (es ++ es')
  | .error _ => AllFreed es ∧ AllDestroyed es

/-- The books of `build_shared` are exact, whatever is done with the handles of the result. -/
def ExactShared (es : List Event) : Except Abort Managed → Prop
  | .ok m => ∀ ops h, Handles.run m.dispose ops ⟨1, es⟩ = some h →
      (0 < h.useCount → NoneFreed h.log) ∧ (h.useCount = 0 → AllFreed h.log)
  | .error _ => AllFreed es ∧ AllDestroyed es

variable {es : List Event}

/-- What the books of `build_unique` say about a run without a failed assertion. -/
lemma exact_buildUnique {s s' : S} {r : Except Abort SizeT}
    (h : OwnsUnique env.asserting.cfg s r es s') (hr : ∀ expr, r ≠ .error (.assertion expr)) :
    ExactUnique es r := by
  cases r with
  | ok obj =>
    obtain ⟨raw, hobj, h⟩ := h
    obtain rfl : obj = raw := hobj.resolve_left Bool.false_ne_true
    refine ⟨noneFreed_of_books h (by simp), Meets.mono books_sacoDelete ?_⟩
    rintro _ r es' _ ⟨hr, h'⟩
    exact ⟨hr, allFreed_of_settle (h.append h') (settle_one obj)⟩
  | error e =>
    cases e with
    | assertion expr => exact absurd rfl (hr expr)
    | exception =>
      rcases h with h | ⟨p, h⟩
      · exact ⟨allFreed_of_settle h rfl, allDestroyed_of_settle h rfl⟩
      · exact ⟨allFreed_of_settle h (settle_one p), allDestroyed_of_settle h rfl⟩

/-- What was abandoned has been given back. -/
lemma exact_abandoned (h : Abandoned env.asserting.cfg es) : AllFreed es ∧ AllDestroyed es := by
  rcases h with h | ⟨p, h⟩ | ⟨raw, obj, hobj, h⟩
  · exact ⟨allFreed_of_settle h rfl, allDestroyed_of_settle h rfl⟩
  · exact ⟨allFreed_of_settle h (settle_one p), allDestroyed_of_settle h rfl⟩
  · obtain rfl : obj = raw := hobj.resolve_left Bool.false_ne_true
    exact ⟨allFreed_of_settle h (settle_one obj), allDestroyed_of_settle h (settle_one obj)⟩

/-- The last handle of an embedded object frees the buffer. -/
lemma books_dispose_embedded (sp : SharedBuffer) (object : SizeT) (virtual : Bool) :
    ∃ os, Books [.release sp.block] os
      (Managed.buffer sp (setDtorFn virtual { sp.header with object })).dispose := by
  cases virtual with
  | true => exact ⟨_, rfl, rfl⟩
  | false => exact ⟨_, rfl, rfl⟩

/-- What the books of `build_shared` say about a run without a failed assertion. -/
lemma exact_buildShared {s s' : S} {r : Except Abort Managed}
    (h : Enters (fun m es => Converted env.asserting.cfg m es ∨ Embedded T m es)
      (Abandoned env.asserting.cfg) s r es s') (hr : ∀ expr, r ≠ .error (.assertion expr)) :
    ExactShared es r := by
  cases r with
  | ok m =>
    have hexact : NoneFreed es ∧ AllFreed (es ++ m.dispose) := by
      rcases h with ⟨raw, obj, control, rfl, hobj, h⟩ | ⟨sp, object, rfl, h⟩
      · obtain rfl : obj = raw := hobj.resolve_left Bool.false_ne_true
        have hdispose : Books [.release obj, .release control] [.release obj]
            (Managed.unique obj control).dispose := ⟨rfl, rfl⟩
        exact ⟨noneFreed_of_books h (by simp),
          allFreed_of_settle (h.append hdispose) (settle_two obj control)⟩
      · obtain ⟨os, hdispose⟩ := books_dispose_embedded sp object T.hasVirtualDestructor
        exact ⟨noneFreed_of_books h (by simp),
          allFreed_of_settle (h.append hdispose) (settle_one sp.block)⟩
    intro ops hs hrun
    rcases Handles.run_cases hrun with ⟨hpos, hlog⟩ | ⟨hzero, hlog⟩
    · rw [hlog]
      exact ⟨fun _ => hexact.1, fun hzero => absurd hzero hpos.ne'⟩
    · rw [hlog]
      exact ⟨fun hpos => absurd hzero hpos.ne', fun _ => hexact.2⟩
  | error e =>
    cases e with
    | assertion expr => exact absurd rfl (hr expr)
    | exception => exact exact_abandoned h

/-- No assertion fails in a run of `x`. -/
def AssertionsHold {α : Type} (x : Program Abort Event S α) (w : World Event S) : Prop :=
  ∀ expr, outcome (x w) ≠ .error (.assertion expr)

/-- Where no assertion fails the build without assertions does the same. -/
lemma run_eq_of_refines {α : Type} {x y : Program Abort Event S α} {w : World Event S}
    (hr : Refines Stops x y) (hx : AssertionsHold x w) : y w = x w := by
  rcases hr w with ⟨e, w', he, hstop⟩ | heq
  · cases e with
    | assertion expr =>
      refine absurd ?_ (hx expr)
      rw [he]
      rfl
    | exception => cases hstop
  · exact heq

/-- Memory and objects are owned exactly on every path of `build_unique` and of `build_shared`, whatever
throws and when, as long as the assertions hold that the build may have compiled out. -/
theorem ownership_exact (env : Env) (T : CxxType) (children : List Plan) (w : World Event S) :
    (AssertionsHold (buildUnique env.asserting T children) w →
      ∃ es, (final (buildUnique env T children w)).log = w.log ++ es ∧
        ExactUnique es (outcome (buildUnique env T children w))) ∧
    (AssertionsHold (buildShared env.asserting T children) w →
      ∃ es, (final (buildShared env T children w)).log = w.log ++ es ∧
        ExactShared es (outcome (buildShared env T children w))) := by
  refine ⟨fun hx => ?_, fun hx => ?_⟩
  · rw [run_eq_of_refines refines_buildUnique hx]
    have hbooks : Meets (buildUnique env.asserting T children : Program Abort Event S SizeT)
        (OwnsUnique env.asserting.cfg) := books_buildUnique
    obtain ⟨es, hes, h⟩ := hbooks w
    exact ⟨es, hes, exact_buildUnique h hx⟩
  · rw [run_eq_of_refines refines_buildShared hx]
    obtain ⟨es, hes, h⟩ := books_buildShared w
    exact ⟨es, hes, exact_buildShared h hx⟩

/-- Half a page, more than any buffer holds. -/
def halfPage : HeadType debug16 where
  sizeof := 2048
  alignof := lineHead.alignof
  hasVirtualDestructor := false
  isTriviallyDestructible := false
  sizeof_ne_zero := by decide
  sizeof_mod_alignof := by decide
  virtual_not_trivial := by decide
  alignof_le_max := lineHead.alignof_le_max

/-- Where nothing throws, `build_shared` returns the half page behind a control block. Without memory for
the control block it throws, after the object is complete, while `build_unique`, which does not allocate
that late, returns. That throws if the second of two nodes does that the builder places. -/
theorem ownership_exact_halfPage :
    (∃ es, (final (buildShared (throwsAt 9) halfPage.toCxxType [] ⟨0, [], ()⟩)).log = [] ++ es ∧
      ExactShared es (.ok (.unique 4096 4096))) ∧
    (∃ es, (final (buildShared (throwsAt 4) halfPage.toCxxType [] ⟨0, [], ()⟩)).log = [] ++ es ∧
      ExactShared es (.error .exception)) ∧
    (∃ es, (final (buildUnique (throwsAt 4) halfPage.toCxxType [] ⟨0, [], ()⟩)).log = [] ++ es ∧
      ExactUnique es (.ok 4096)) ∧
    ∃ es, (final (buildUnique (throwsAt 5) halfPage.toCxxType
        [.placeForOverwriteArray (node false) 2] ⟨0, [], ()⟩)).log = [] ++ es ∧
      constructed 1 es = [6144] ∧ ExactUnique es (.error .exception) := by
  have hmeasure : measure (throwsAt 9) halfPage.toCxxType [] ⟨0, [], ()⟩ =
      .ok 2048 ⟨1, [.request ⟨halfPage.alignof, 2048⟩], ()⟩ := rfl
  have hmeasure' : measure (throwsAt 4) halfPage.toCxxType [] ⟨0, [], ()⟩ =
      .ok 2048 ⟨1, [.request ⟨halfPage.alignof, 2048⟩], ()⟩ := rfl
  have hreturns : outcome (buildShared (throwsAt 9) halfPage.toCxxType [] ⟨0, [], ()⟩) =
      .ok (.unique 4096 4096) := by
    rw [buildShared_of_measure hmeasure, if_pos (by decide)]
    rfl
  have hthrows : outcome (buildShared (throwsAt 4) halfPage.toCxxType [] ⟨0, [], ()⟩) =
      .error .exception := by
    rw [buildShared_of_measure hmeasure', if_pos (by decide)]
    rfl
  have hreturns' : outcome (buildUnique (throwsAt 4) halfPage.toCxxType [] ⟨0, [], ()⟩) = .ok 4096 := rfl
  have hunique : outcome (buildUnique (throwsAt 5) halfPage.toCxxType
      [.placeForOverwriteArray (node false) 2] ⟨0, [], ()⟩) = .error .exception := by decide +kernel
  have hconstructed : constructed 1 (final (buildUnique (throwsAt 5) halfPage.toCxxType
      [.placeForOverwriteArray (node false) 2] ⟨0, [], ()⟩)).log = [6144] := by decide +kernel
  have hasserting : ∀ n, (throwsAt n).asserting = throwsAt n := fun _ => rfl
  obtain ⟨-, exact_returns⟩ := ownership_exact (throwsAt 9) halfPage.toCxxType [] ⟨0, [], ()⟩
  obtain ⟨exact_returns', exact_throws⟩ := ownership_exact (throwsAt 4) halfPage.toCxxType [] ⟨0, [], ()⟩
  obtain ⟨exact_unique, -⟩ := ownership_exact (throwsAt 5) halfPage.toCxxType
    [.placeForOverwriteArray (node false) 2] ⟨0, [], ()⟩
  rw [hasserting, AssertionsHold, hreturns] at exact_returns
  rw [hasserting, AssertionsHold, hthrows] at exact_throws
  rw [hasserting, AssertionsHold, hreturns'] at exact_returns'
  rw [hasserting, AssertionsHold, hunique] at exact_unique
  obtain ⟨es, hes, hexact⟩ := exact_unique fun _ => nofun
  rw [hes] at hconstructed
  exact ⟨exact_returns fun _ => nofun, exact_throws fun _ => nofun, exact_returns' fun _ => nofun, es, hes,
    hconstructed, hexact⟩

end Saco.Shared
