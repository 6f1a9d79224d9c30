import Saco.Shared.Ownership
import Saco.Shared.Paths

/-!
# The destructor of a shared object

How often the handles of `build_shared` run the destructor of the object. `set_dtor_fn_impl` takes
whether the destructor is trivial, and `build_shared` passes it whether the destructor is virtual.
`destroyed_once_iff`: the object is destroyed as it should be if and only if its destructor is not
virtual or the object was too large for a buffer.
-/

namespace Saco.Shared
open Build Exec Layout

variable {S : Type} {env : Env} {T : CxxType} {children : List Plan} {m : Managed} {es : List Event}

/-- As long as a handle is alive the destructor has not run. After the last one it has run once, before
memory was freed; a trivial destructor may be left out. -/
def DestroyedOnce (T : CxxType) (p : SizeT) (h : Handles Event) : Prop :=
  (0 < h.useCount → destroyed h.log = []) ∧
    (h.useCount = 0 → T.isTriviallyDestructible = true ∧ destroyed h.log = [] ∨
      ∃ pre post, h.log = pre ++ .destroy p :: post ∧ destroyed pre = [] ∧ destroyed post = [] ∧
        NoneFreed pre)

/-- In every run of the handles. -/
def Disposes (T : CxxType) (m : Managed) (es : List Event) : Prop :=
  ∀ ops h, Handles.run m.dispose ops ⟨1, es⟩ = some h → DestroyedOnce T m.get h

/-- The books say what was destroyed. -/
lemma destroyed_of_books {bs os : List (Move SizeT)} (h : Books bs os es)
    (hos : ∀ p, .release p ∉ os) : destroyed es = [] := by
  rw [destroyed, List.filterMap_eq_nil_iff]
  intro e he
  cases e with
  | destroy a =>
    have hmem : .release a ∈ es.filterMap Event.objectMove := List.mem_filterMap.2 ⟨_, he, rfl⟩
    rw [h.2] at hmem
    exact absurd hmem (hos a)
  | _ => rfl

/-- The books of one object name the object. -/
lemma constructed_of_books {bs : List (Move SizeT)} {p : SizeT} (h : Books bs [.acquire p] es) :
    constructed 0 es = [p] := by
  have hmoves : constructed 0 es = (es.filterMap Event.objectMove).filterMap fun
      | .acquire a => some a
      | .release _ => none := by
    rw [List.filterMap_filterMap, constructed]
    congr 1
    funext e
    rcases e with _ | ⟨_ | _, _⟩ | _ | _ | _ <;> rfl
  rw [hmoves, h.2]
  rfl

/-- A converted pointer owns the one object that was built. -/
lemma constructed_converted {cfg : Config} (h : Converted cfg m es) : constructed 0 es = [m.get] := by
  obtain ⟨raw, obj, control, rfl, -, h⟩ := h
  exact constructed_of_books h

/-- The pointer to an embedded object owns the one object that was built. -/
lemma constructed_embedded (h : Embedded T m es) : constructed 0 es = [m.get] := by
  obtain ⟨sp, object, rfl, h⟩ := h
  rw [constructed_of_books h]
  cases T.hasVirtualDestructor <;> rfl

/-- What the last handle has to do. -/
lemma disposes_of_destroy {post : List Event} (hdispose : m.dispose = .destroy m.get :: post)
    (hes : destroyed es = []) (hfree : NoneFreed es) (hpost : destroyed post = []) :
    Disposes T m es := by
  intro ops h hrun
  rcases Handles.run_cases hrun with ⟨hpos, hlog⟩ | ⟨hzero, hlog⟩
  · exact ⟨fun _ => hlog ▸ hes, fun hzero => absurd hzero hpos.ne'⟩
  · rw [hdispose] at hlog
    exact ⟨fun hpos => absurd hzero hpos.ne', fun _ => .inr ⟨es, post, hlog, hes, hpost, hfree⟩⟩

/-- The last handle of a converted pointer destroys the object. -/
lemma disposes_converted {cfg : Config} (h : Converted cfg m es) : Disposes T m es := by
  obtain ⟨raw, obj, control, rfl, -, h⟩ := h
  exact disposes_of_destroy rfl (destroyed_of_books h (by simp)) (noneFreed_of_books h (by simp)) rfl

/-- A buffer destroys its object unless the destructor is virtual. -/
lemma disposes_embedded_iff (h : Embedded T m es) :
    Disposes T m es ↔ T.hasVirtualDestructor = false := by
  obtain ⟨sp, object, rfl, h⟩ := h
  have hes := destroyed_of_books h (by simp)
  cases hvirtual : T.hasVirtualDestructor with
  | false =>
    exact iff_of_true (disposes_of_destroy rfl hes (noneFreed_of_books h (by simp)) rfl) rfl
  | true =>
    refine iff_of_false (fun disposes => ?_) nofun
    obtain ⟨-, hlast⟩ := disposes _ _ Handles.run_release
    rcases hlast rfl with ⟨htrivial, -⟩ | ⟨pre, post, hlog, -⟩
    · rw [T.virtual_not_trivial hvirtual] at htrivial
      cases htrivial
    · have hlog := congrArg destroyed hlog
      rw [destroyed_append, destroyed_append, hes] at hlog
      exact List.append_ne_nil_of_right_ne_nil _ (List.cons_ne_nil _ _) hlog.symm

/-- After `build_shared` has returned, the object is destroyed once in every run of its handles if and
only if its destructor is not virtual or the measured size exceeds `MAX_SIZE`. -/
theorem destroyed_once_iff (env : Env) (T : CxxType) (children : List Plan) (w w' : World Event S)
    (m : Managed) (h : buildShared env T children w = .ok m w') :
    ∃ mctx es, MeasureContext.allocateAll env.cfg ((Plan.place T children).requests false)
        (.init env.cfg) = .ok mctx ∧
      w'.log = w.log ++ es ∧ constructed 0 es = [m.get] ∧
      (Disposes T m es ↔ (T.hasVirtualDestructor = true → maxSize < mctx.requiredSize)) := by
  obtain ⟨size, w₁, hmeasure, -⟩ := bind_ok h
  obtain ⟨mctx, hmctx, rfl⟩ := measure_ok hmeasure
  obtain ⟨es, hes, hquiet⟩ := books_measure.ok hmeasure
  rw [buildShared_of_measure hmeasure] at h
  split at h
  case isTrue hlarge =>
    obtain ⟨es', hes', hconverted⟩ := books_convertUnique.ok h
    have hconverted := Converted.append hquiet hconverted
    refine ⟨mctx, es ++ es', hmctx, by rw [hes', hes, List.append_assoc],
      constructed_converted hconverted, ?_⟩
    exact iff_of_true (disposes_converted hconverted) fun _ => hlarge
  case isFalse hsmall =>
    obtain ⟨es', hes', hembedded⟩ := books_embed.ok h
    have hembedded := Embedded.append hquiet hembedded
    refine ⟨mctx, es ++ es', hmctx, by rw [hes', hes, List.append_assoc],
      constructed_embedded hembedded, ?_⟩
    rw [imp_iff_not hsmall, Bool.not_eq_true]
    exact disposes_embedded_iff hembedded

/-- Sixteen bytes go to the first bucket. -/
lemma dispatch_node : dispatch debug16 16 = .ok 32 := by
  rw [dispatch, sacoAssert_ok (.inr (by decide)), sacoAssert_ok (.inr (by decide))]
  simp [step, entry, sizeBuckets, bucketCount, bind, Except.bind]

/-- It is built in a `shared_buffer<32>`. -/
lemma buildShared_node (hasVirtualDestructor : Bool) :
    buildShared (throwsAt 9) (node hasVirtualDestructor) [] ⟨0, [], ()⟩ =
      .ok (.buffer ⟨32, 4096, 4096⟩ (setDtorFn hasVirtualDestructor (.init 4096)))
        ⟨3, [.request ⟨lineHead.alignof, 16⟩, .obtain 4096 (.sharedBuffer 32),
          .request ⟨lineHead.alignof, 16⟩, .construct 0 4096], ()⟩ := by
  have hmeasure : measure (throwsAt 9) (node hasVirtualDestructor) [] ⟨0, [], ()⟩ =
      .ok 16 ⟨1, [.request ⟨lineHead.alignof, 16⟩], ()⟩ := by
    cases hasVirtualDestructor <;> rfl
  rw [buildShared_of_measure hmeasure, if_neg (by decide), embed, alloc_of_dispatch dispatch_node]
  cases hasVirtualDestructor <;> rfl

/-- Without a virtual destructor. -/
theorem destroyed_once_iff_node : ∃ m w',
    buildShared (throwsAt 9) (node false) [] ⟨0, [], ()⟩ = .ok m w' ∧
      Disposes (node false) m w'.log := by
  have hrun := buildShared_node false
  obtain ⟨mctx, es, -, hes, -, hiff⟩ := destroyed_once_iff (throwsAt 9) (node false) [] _ _ _ hrun
  refine ⟨_, _, hrun, ?_⟩
  rw [hes]
  exact hiff.2 nofun

/-- With a virtual destructor, the last handle frees the buffer and destroys nothing. -/
theorem virtual_not_destroyed : ¬∀ (env : Env) (T : CxxType) (children : List Plan)
    (w w' : World Event Unit) (m : Managed), buildShared env T children w = .ok m w' →
      ∃ es, w'.log = w.log ++ es ∧ Disposes T m es := by
  intro hall
  obtain ⟨es, hes, disposes⟩ := hall (throwsAt 9) (node true) [] _ _ _ (buildShared_node true)
  obtain rfl : _ = es := hes
  exact nomatch (disposes_embedded_iff ⟨⟨32, 4096, 4096⟩, 4096, rfl, rfl, rfl⟩).1 disposes

end Saco.Shared
