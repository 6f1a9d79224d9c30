import Saco.Build.Books
import Saco.Build.Construct
import Saco.Build.Elements
import Saco.Build.Faults
import Saco.Build.Throws

/-!
# What `build_unique` does, event by event

For a plan whose passes agree and whose sums are representable, on top of an `operator new` that keeps
what `alloc_raw` asserts. `buildUnique_exact` gives the log of every run: of the runs that return, which
are those in which no step throws, and of those that an exception ends at any step. No assertion fails in
any of them, and the objects that are built are aligned, disjoint and in the one block that was obtained.
-/

namespace Saco.Build
open Arith Bump Exec Layout

variable {S α β : Type} {x : Program Abort Event S α} {ok : α → List Event → Prop}
  {thrown : List Event → Prop}

/-- A run returns or throws, and no assertion fails in it. -/
def Safely (ok : α → List Event → Prop) (thrown : List Event → Prop) : Spec Abort Event S α :=
  fun _ r es _ =>
    match r with
    | .ok a => ok a es
    | .error .exception => thrown es
    | .error (.assertion _) => False

section Safely

/-- Both logs may be weakened. -/
lemma Safely.mono {ok' : α → List Event → Prop} {thrown' : List Event → Prop}
    (hx : Meets x (Safely ok thrown)) (hok : ∀ a es, ok a es → ok' a es)
    (hthrown : ∀ es, thrown es → thrown' es) : Meets x (Safely ok' thrown') := by
  refine Meets.mono hx fun s r es s' h => ?_
  cases r with
  | ok a => exact hok a es h
  | error e =>
    cases e with
    | exception => exact hthrown es h
    | assertion expr => exact h

/-- Returning. -/
lemma Safely.pure {a : α} (h : ok a []) :
    Meets (Pure.pure a : Program Abort Event S α) (Safely ok thrown) := .pure fun _ => h

/-- What comes second may rely on how the first part returned. -/
lemma Safely.bind {f : α → Program Abort Event S β} {ok' : β → List Event → Prop}
    {thrown' : List Event → Prop} (hx : Meets x (Safely ok thrown)) (happends : ∀ a, Appends (f a))
    (hf : ∀ a es, ok a es → Meets (f a) (Safely (fun b es' => ok' b (es ++ es'))
      fun es' => thrown' (es ++ es'))) (hthrown : ∀ es, thrown es → thrown' es) :
    Meets (x >>= f) (Safely ok' thrown') := by
  have hsecond : ∀ a, Meets (f a) fun s r es' s' => ∀ es : {es // ok a es},
      Safely (fun b es' => ok' b (es ++ es')) (fun es' => thrown' (es ++ es')) s r es' s' :=
    fun a => .all (happends a) fun es => hf a es es.2
  refine Meets.bind hx hsecond ?_ ?_
  · intro s e es s' h
    cases e with
    | exception => exact hthrown es h
    | assertion expr => exact h
  · intro s a es s' r es' s'' h h'
    have h' := h' ⟨es, h⟩
    cases r with
    | ok b => exact h'
    | error e =>
      cases e with
      | exception => exact h'
      | assertion expr => exact h'

/-- Another value is returned. -/
lemma Safely.thenReturn {b : α → β} {ok' : β → List Event → Prop} (hx : Meets x (Safely ok thrown))
    (h : ∀ a es, ok a es → ok' (b a) es) :
    Meets (do let a ← x; return b a) (Safely ok' thrown) := by
  refine Safely.bind hx (fun _ => .pure) (fun a es hok => Safely.pure ?_) fun es hes => hes
  rw [List.append_nil]
  exact h a es hok

/-- An owner that an exception leaves cleans up. -/
lemma Safely.unwinding {cleanup : Program Abort Event S Unit} {ces : List Event}
    {thrown' : List Event → Prop} (hx : Meets x (Safely ok thrown))
    (hc : Meets cleanup fun _ r es _ => r = .ok () ∧ es = ces)
    (h : ∀ es, thrown es → thrown' (es ++ ces)) :
    Meets (Exec.unwinding Abort.unwinds cleanup x) (Safely ok thrown') := by
  refine .unwinding hx hc (fun _ _ _ _ h => h) ?_ ?_ ?_
  · intro s e es s' he h
    cases e with
    | exception => cases he
    | assertion expr => exact h
  · intro s e es s' es' s'' he hthrown hclean
    obtain ⟨-, rfl⟩ := hclean
    cases e with
    | exception => exact h es hthrown
    | assertion expr => cases he
  · intro s e es s' hclean
    cases hclean.1

/-- Where no assertion fails, a program that only relays exceptions returns unless a step throws. -/
lemma Safely.returns {env : Env} (hx : Meets x (Safely ok thrown)) (hr : Relays env x) : Returns env x := by
  refine hr.returns fun w expr h => ?_
  obtain ⟨es, -, hsafe⟩ := hx w
  rw [h] at hsafe
  exact hsafe

/-- An assertion that holds. -/
lemma Safely.check {cfg : Config} {expr : String} {holds : Bool} (h : holds = true) :
    Meets (Build.check cfg expr holds : Program Abort Event S Unit)
      (Safely (fun _ es => es = []) thrown) := by
  refine .apply (fun s a s' _ => rfl) fun s e herror => ?_
  rw [sacoAssert_ok (.inr h)] at herror
  cases herror

end Safely

/-! ## The parts -/

variable {env : Env} {T : HeadType env.cfg} {children : List Plan} {mem size : SizeT}

/-- What the measure pass over a plan logs. -/
def Plan.measured (plan : Plan) : List Event := (plan.requests false).map Event.request

/-- What a construct pass over a plan logs in a block at `mem`. -/
def Plan.constructed (plan : Plan) (mem : SizeT) : List Event :=
  (plan.placements 0 mem.toNat).map Placement.event

/-- A log of requests only. -/
lemma eq_requests {es : List Event} (h : ∀ e ∈ es, e.Inner false 0) :
    es = (requestsIn es).map Event.request := by
  induction es with
  | nil => rfl
  | cons e es ih =>
    obtain ⟨he, hes⟩ := List.forall_mem_cons.1 h
    cases e with
    | request q => exact congrArg (Event.request q :: ·) (ih hes)
    | construct d a => exact absurd he.1 Bool.false_ne_true
    | destroy a => exact he.elim
    | obtain a purpose => exact he.elim
    | free a => exact he.elim

section Measure

variable {mctx : MeasureContext}
  (hmctx : MeasureContext.allocateAll env.cfg ((Plan.place T.toCxxType children).requests false)
    (.init env.cfg) = .ok mctx)

include hmctx

/-- When nothing throws the measure pass returns. -/
lemma measure_faultless :
    Meets (measure env.faultless T.toCxxType children : Program Abort Event S SizeT) fun _ r es _ =>
      r = .ok mctx.requiredSize ∧ es = (Plan.place T.toCxxType children).measured := by
  have hanswers : Meets ((Plan.place T.toCxxType children).run env.faultless 0 :
      Code MeasureContext Unit SizeT) (Answers env.faultless
        ((Plan.place T.toCxxType children).requests false)) := answers_run 0 _
  have hinner : Emits (Event.Inner false 0) ((Plan.place T.toCxxType children).run env.faultless 0 :
      Code MeasureContext Unit SizeT) := inner_run 0 _
  have hplace : Meets (withVars (⟨.init env.cfg, ()⟩ : Scope MeasureContext Unit)
      ((Plan.place T.toCxxType children).run env.faultless 0) :
        Program Abort Event S (SizeT × Scope MeasureContext Unit))
      fun _ r es _ => (∃ p, r = .ok (p, ⟨mctx, ()⟩)) ∧
        es = (Plan.place T.toCxxType children).measured := by
    refine .withVars (hanswers.and hinner) ?_ ?_
    · intro s p es s' h
      obtain ⟨⟨hctx, hes⟩, hquiet⟩ := h
      have hctx : answerAll env.cfg _ (MeasureContext.init env.cfg) = .ok s'.ctx := hctx
      rw [answerAll_measure, hmctx] at hctx
      obtain ⟨ctx, ⟨⟩⟩ := s'
      obtain rfl : mctx = ctx := Except.ok.inj hctx
      refine ⟨⟨p, rfl⟩, ?_⟩
      rw [Plan.measured, ← hes]
      exact eq_requests hquiet
    · intro s e es s' h
      rcases h.1.2 with ⟨-, t, ht⟩ | hctx
      · cases ht
      · have hctx : answerAll env.cfg _ (MeasureContext.init env.cfg) = .error e := hctx
        rw [answerAll_measure, hmctx] at hctx
        cases hctx
  have hreturn : ∀ p : SizeT × Scope MeasureContext Unit,
      Meets (Pure.pure p.2.ctx.requiredSize : Program Abort Event S SizeT)
        fun _ r es _ => r = .ok p.2.ctx.requiredSize ∧ es = [] := fun p => .pure fun _ => ⟨rfl, rfl⟩
  refine .bind hplace hreturn ?_ ?_
  · intro s e es s' h
    obtain ⟨⟨p, hp⟩, -⟩ := h
    cases hp
  · intro s p es s' r es' s'' h h'
    obtain ⟨⟨p, hp⟩, rfl⟩ := h
    cases hp
    obtain ⟨rfl, rfl⟩ := h'
    exact ⟨rfl, List.append_nil _⟩

/-- The measure pass logs its requests and returns their size. -/
lemma logs_measure : Meets (measure env T.toCxxType children : Program Abort Event S SizeT)
    (Safely (fun size es => size = mctx.requiredSize ∧
        es = (Plan.place T.toCxxType children).measured)
      fun es => es <+: (Plan.place T.toCxxType children).measured) := by
  refine (cutShort_measure.meets (measure_faultless hmctx)).mono fun s r es s' h => ?_
  rcases h with ⟨rfl, rfl⟩ | ⟨e, r', es', s'', rfl, rfl, ⟨-, rfl⟩, hbegins⟩
  · exact ⟨rfl, rfl⟩
  · exact hbegins

end Measure

/-- `operator new` logs the block, unless it throws. -/
lemma logs_operatorNew {purpose : Purpose} : Meets (operatorNew env purpose : Program Abort Event S SizeT)
    (Safely (fun p es => (∃ time, p = env.operatorNew time) ∧ es = [.obtain p purpose])
      fun es => es = []) := by
  have htick : Meets (tick env.throws .exception : Program Abort Event S ℕ)
      (Safely (fun _ es => es = []) fun es => es = []) :=
    .tick (fun _ _ => rfl) fun _ _ _ => rfl
  have hemit : ∀ p, Meets (emit (.obtain p purpose) : Program Abort Event S Unit)
      (Safely (fun _ es => es = [.obtain p purpose]) fun es => es = []) := fun p => .emit fun _ => rfl
  refine Safely.bind htick (fun time => ?_) (fun time es hes => ?_) fun es hes => hes
  · exact .bind (hemit _).appends fun _ => .pure
  · subst hes
    exact Safely.thenReturn (hemit _) fun _ es hes => ⟨⟨time, rfl⟩, hes⟩

/-- `operator new` keeps what `alloc_raw` asserts about its result for `size` bytes, and blocks end
before the end of the address space. -/
structure Env.Supplies (env : Env) (size : SizeT) : Prop where
  aligned : ∀ time, allocRawAligned env.cfg size (env.operatorNew time) = true
  fits : ∀ time, (env.operatorNew time).toNat + size.toNat < 2 ^ 64

/-- `alloc_raw` logs the block, unless it throws. Its assertion holds for what is supplied. -/
lemma logs_allocRaw (supplies : env.Supplies size) :
    Meets (allocRaw env size : Program Abort Event S SizeT)
      (Safely (fun p es => (∃ time, p = env.operatorNew time) ∧ es = [.obtain p (.raw size)])
        fun es => es = []) := by
  refine Safely.bind logs_operatorNew (fun p => ?_) (fun p es h => ?_) fun es hes => hes
  · exact .bind (enters_check.appends) fun _ => .pure
  · obtain ⟨⟨time, rfl⟩, rfl⟩ := h
    refine Safely.thenReturn (Safely.check (supplies.aligned time)) fun _ es hes => ?_
    rw [hes]
    exact ⟨⟨time, rfl⟩, rfl⟩

section Construct

variable (hfin : finish mem.toNat (Plan.place T.toCxxType children).blocks ≤ mem.toNat + size.toNat)
  (hfit : mem.toNat + size.toNat < 2 ^ 64) (hhead : T.alignof.value.toNat ∣ mem.toNat)

include hfin hfit hhead

/-- In a block that is large enough no assertion fails, and the head is where the block is. -/
lemma logs_construct : Meets (construct env T.toCxxType children mem size : Program Abort Event S SizeT)
    (Safely (fun p es => p = mem ∧ es = (Plan.place T.toCxxType children).constructed mem)
      fun es => ∃ done, done <+: (Plan.place T.toCxxType children).placements 0 mem.toNat ∧
        es = done.map Placement.event) := by
  have hlays : Meets ((Plan.place T.toCxxType children).run env 0 : Code ConstructContext Unit SizeT)
      (Steps env fun x => (Plan.place T.toCxxType children).placements 0 x) := lays_run 0 _
  have hplace : Meets (withVars (⟨.init mem size, ()⟩ : Scope ConstructContext Unit)
      ((Plan.place T.toCxxType children).run env 0) :
        Program Abort Event S (SizeT × Scope ConstructContext Unit))
      (Safely (fun p es => p.1 = mem ∧ es = (Plan.place T.toCxxType children).constructed mem)
        fun es => ∃ done, done <+: (Plan.place T.toCxxType children).placements 0 mem.toNat ∧
          es = done.map Placement.event) := by
    refine .withVars (hlays.and built_run) ?_ ?_
    · intro s p es s' h
      obtain ⟨-, hes, -⟩ := h.1 mem.toNat ConstructContext.mCurrent_init
      obtain ⟨es', -, hbuilt⟩ := h.2
      refine ⟨?_, hes⟩
      have hes : es = (Plan.place T.toCxxType children).constructed mem := hes
      rw [Plan.constructed, Plan.placements, ← List.cons_append, List.map_append, hbuilt] at hes
      -- the head is the last object to be built, and the first in the block
      obtain ⟨-, hlast⟩ := List.append_inj' hes rfl
      have haddress := (Event.construct.inj (List.cons_eq_cons.1 hlast).1).2
      rw [alignUp_of_dvd (powersOfTwo.coe_pos _) hhead, ← eq_ofNat] at haddress
      exact haddress
    · intro s e es s' h
      have h := h.1 mem.toNat ConstructContext.mCurrent_init
      cases e with
      | exception =>
        obtain ⟨done, hdone, hes, -⟩ := h
        exact ⟨done, hdone, hes⟩
      | assertion expr =>
        obtain ⟨done, t, hdone, -, -, -, hlt⟩ := h
        -- the block has room for every step, so the assertion cannot have failed
        have hle := finish_le_of_done hdone
        rw [ConstructContext.mEnd_init hfit] at hlt
        exact absurd (hle.trans hfin) (not_le.2 hlt)
  exact Safely.thenReturn hplace fun _ _ h => h

end Construct

/-- `free_raw` logs the block. -/
lemma meets_freeRaw : Meets (freeRaw mem : Program Abort Event S Unit)
    fun _ r es _ => r = .ok () ∧ es = [.free mem] :=
  .emit fun _ => ⟨rfl, rfl⟩

/-- `saco_delete` logs the object and its block. -/
lemma meets_sacoDelete : Meets (sacoDelete mem : Program Abort Event S Unit)
    fun _ r es _ => r = .ok () ∧ es = [.destroy mem, .free mem] :=
  .emitThen meets_freeRaw fun _ _ _ _ h => ⟨h.1, congrArg _ h.2⟩

/-! ## The plans that fit -/

/-- The passes over the plan agree, and the sums of the measure pass are representable. -/
structure Plan.Fits (cfg : Config) (plan : Plan) : Prop where
  flat : plan.flat = true
  rep : Representable cfg plan.blocks

/-- The last part of `build_unique`, in a block that is large enough. -/
lemma logs_owned (hfin : finish mem.toNat (Plan.place T.toCxxType children).blocks ≤
      mem.toNat + size.toNat) (hfit : mem.toNat + size.toNat < 2 ^ 64)
    (hhead : T.alignof.value.toNat ∣ mem.toNat) : Meets (do
      let obj ← unwinding Abort.unwinds (freeRaw mem) (construct env T.toCxxType children mem size)
      unwinding Abort.unwinds (sacoDelete obj) (check env.cfg "obj.get() == rmem" (obj == mem))
      return obj : Program Abort Event S SizeT)
    (Safely (fun obj es => obj = mem ∧ es = (Plan.place T.toCxxType children).constructed mem)
      fun es => ∃ done, done <+: (Plan.place T.toCxxType children).placements 0 mem.toNat ∧
        es = done.map Placement.event ++ [.free mem]) := by
  have hconstruct : Meets (unwinding Abort.unwinds (freeRaw mem)
      (construct env T.toCxxType children mem size) : Program Abort Event S SizeT)
      (Safely (fun obj es => obj = mem ∧ es = (Plan.place T.toCxxType children).constructed mem)
        fun es => ∃ done, done <+: (Plan.place T.toCxxType children).placements 0 mem.toNat ∧
          es = done.map Placement.event ++ [.free mem]) := by
    refine Safely.unwinding (logs_construct hfin hfit hhead) meets_freeRaw fun es h => ?_
    obtain ⟨done, hdone, rfl⟩ := h
    exact ⟨done, hdone, rfl⟩
  refine Safely.bind hconstruct (fun obj => ?_) (fun obj es h => ?_) fun es h => h
  · exact .bind (enters_check.appends.unwinding books_sacoDelete.appends) fun _ => .pure
  · obtain ⟨rfl, rfl⟩ := h
    have hcheck : Meets (check env.cfg "obj.get() == rmem" (obj == obj) : Program Abort Event S Unit)
        (Safely (fun _ es => es = []) fun _ => False) := Safely.check (beq_self_eq_true obj)
    refine Safely.thenReturn (Safely.unwinding hcheck meets_sacoDelete fun _ h => h.elim)
      fun _ es hes => ?_
    rw [hes, List.append_nil]
    exact ⟨rfl, rfl⟩

section Fits

variable (fits : (Plan.place T.toCxxType children).Fits env.cfg)

include fits

/-- The measured requests denote the blocks of the plan. -/
lemma denotes_measured : List.Forall₂ Request.Denotes ((Plan.place T.toCxxType children).requests false)
    (T.block :: blocksAll children) := by
  rw [(requests_eq_iff _).2 fits.flat, ← request_typed]
  have hblocks : (Plan.place T.toCxxType children).blocks = T.block :: blocksAll children :=
    Plan.blocks_place
  rw [← hblocks]
  exact TypedRequest.denotes_blocks _

/-- The measure pass over a plan that fits completes. -/
lemma exists_measured : ∃ mctx, MeasureContext.allocateAll env.cfg
    ((Plan.place T.toCxxType children).requests false) (.init env.cfg) = .ok mctx ∧
      mctx.requiredSize.toNat =
        (Estimate.run env.cfg.maxNewAlignment.nat (T.block :: blocksAll children)).size := by
  have hblocks : (Plan.place T.toCxxType children).blocks = T.block :: blocksAll children :=
    Plan.blocks_place
  have rep := fits.rep
  rw [hblocks] at rep
  obtain ⟨mctx, hmctx, sim⟩ := MeasureContext.exists_run (denotes_measured fits) headed_block rep
  refine ⟨mctx, hmctx, ?_⟩
  rw [sim.toNat_requiredSize, Nat.mod_eq_of_lt rep]

/-- A block of the measured size is large enough. -/
lemma finish_le_measured {mctx : MeasureContext} (hr : mctx.requiredSize.toNat =
      (Estimate.run env.cfg.maxNewAlignment.nat (T.block :: blocksAll children)).size)
    (hbase : allocRawAligned env.cfg mctx.requiredSize mem = true) :
    finish mem.toNat (Plan.place T.toCxxType children).blocks ≤ mem.toNat + mctx.requiredSize.toNat := by
  rw [Plan.blocks_place]
  exact finish_le_of_allocRawAligned (denotes_measured fits) hr hbase

end Fits

/-! ## The result -/

/-- The objects that some steps build are aligned and disjoint, in the `size` bytes at `mem`. -/
def PackedIn (mem size : SizeT) (done : List Placement) : Prop :=
  Packed mem.toNat (mem.toNat + size.toNat) ((objectsIn done).map Object.extent)

/-- `plan` was measured, one block of `size` bytes was obtained for it, and the plan was constructed in
the block. -/
def Plan.BuiltUnique (env : Env) (plan : Plan) (size obj : SizeT) (es : List Event) : Prop :=
  (∃ time, obj = env.operatorNew time) ∧
    es = plan.measured ++ .obtain obj (.raw size) :: plan.constructed obj ∧
    PackedIn obj size (plan.placements 0 obj.toNat)

/-- An exception has ended this on the way. The block was freed, and nothing was destroyed. -/
def Plan.LostUnique (env : Env) (plan : Plan) (size : SizeT) (es : List Event) : Prop :=
  es <+: plan.measured ∨ ∃ time done, done <+: plan.placements 0 (env.operatorNew time).toNat ∧
    es = plan.measured ++ .obtain (env.operatorNew time) (.raw size) ::
      (done.map Placement.event ++ [.free (env.operatorNew time)]) ∧
    PackedIn (env.operatorNew time) size done

/-- What has been placed is packed in the block. -/
lemma packedIn_of_done {plan : Plan} {done : List Placement}
    (hfin : finish mem.toNat plan.blocks ≤ mem.toNat + size.toNat)
    (hdone : done <+: plan.placements 0 mem.toNat) : PackedIn mem size done :=
  packed_of_done hdone ((finish_le_of_done hdone).trans hfin)

/-- The parts of `build_unique` together. -/
lemma logs_buildUnique {mctx : MeasureContext} (fits : (Plan.place T.toCxxType children).Fits env.cfg)
    (hmctx : MeasureContext.allocateAll env.cfg ((Plan.place T.toCxxType children).requests false)
      (.init env.cfg) = .ok mctx)
    (hr : mctx.requiredSize.toNat =
      (Estimate.run env.cfg.maxNewAlignment.nat (T.block :: blocksAll children)).size)
    (supplies : env.Supplies mctx.requiredSize) :
    Meets (buildUnique env T.toCxxType children : Program Abort Event S SizeT)
      (Safely ((Plan.place T.toCxxType children).BuiltUnique env mctx.requiredSize)
        ((Plan.place T.toCxxType children).LostUnique env mctx.requiredSize)) := by
  refine Safely.bind (logs_measure hmctx) (fun _ => .bind books_allocRaw.appends fun _ =>
    books_owned.appends) (fun size es h => ?_) fun es h => .inl h
  obtain ⟨rfl, rfl⟩ := h
  refine Safely.bind (logs_allocRaw supplies) (fun _ => books_owned.appends) (fun raw es h => ?_)
    fun es h => ?_
  · obtain ⟨⟨time, rfl⟩, rfl⟩ := h
    have hfin := finish_le_measured fits hr (supplies.aligned time)
    refine Safely.mono (logs_owned hfin (supplies.fits time)
      (head_align_dvd hr (supplies.aligned time))) (fun obj es h => ?_) fun es h => ?_
    · obtain ⟨rfl, rfl⟩ := h
      exact ⟨⟨time, rfl⟩, rfl, packedIn_of_done hfin List.prefix_rfl⟩
    · obtain ⟨done, hdone, rfl⟩ := h
      exact .inr ⟨time, done, hdone, rfl, packedIn_of_done hfin hdone⟩
  · subst h
    rw [List.append_nil]
    exact .inl List.prefix_rfl

/-- Every run of `build_unique` for a plan that fits: it returns unless one of its steps throws, and what
it logs in either case. No assertion fails. -/
theorem buildUnique_exact (env : Env) (T : HeadType env.cfg) (children : List Plan)
    (fits : (Plan.place T.toCxxType children).Fits env.cfg) :
    ∃ mctx, MeasureContext.allocateAll env.cfg ((Plan.place T.toCxxType children).requests false)
        (.init env.cfg) = .ok mctx ∧
      (env.Supplies mctx.requiredSize →
        Returns env (buildUnique env T.toCxxType children : Program Abort Event S SizeT) ∧
        Meets (buildUnique env T.toCxxType children : Program Abort Event S SizeT)
          (Safely ((Plan.place T.toCxxType children).BuiltUnique env mctx.requiredSize)
            ((Plan.place T.toCxxType children).LostUnique env mctx.requiredSize))) := by
  obtain ⟨mctx, hmctx, hr⟩ := exists_measured fits
  refine ⟨mctx, hmctx, fun supplies => ?_⟩
  have hlogs := logs_buildUnique (S := S) fits hmctx hr supplies
  exact ⟨Safely.returns hlogs blames_buildUnique, hlogs⟩

/-- A line, and an array of two. -/
def threeLines : List Plan :=
  [.placeForOverwrite lineHead.toCxxType, .placeArray lineHead.toCxxType 2 []]

/-- Four lines take one block of 64 bytes; an exception ends this at the array. -/
theorem buildUnique_exact_lines :
    Returns (throwsAt 7) (buildUnique (throwsAt 7) lineHead.toCxxType threeLines :
        Program Abort Event Unit SizeT) ∧
    Meets (buildUnique (throwsAt 7) lineHead.toCxxType threeLines : Program Abort Event Unit SizeT)
      (Safely ((Plan.place lineHead.toCxxType threeLines).BuiltUnique (throwsAt 7) 64)
        ((Plan.place lineHead.toCxxType threeLines).LostUnique (throwsAt 7) 64)) := by
  obtain ⟨mctx, hmctx, hexact⟩ :=
    buildUnique_exact (S := Unit) (throwsAt 7) lineHead threeLines ⟨rfl, by decide⟩
  obtain rfl : mctx = ⟨64, 16, 0⟩ := Except.ok.inj (hmctx.symm.trans rfl)
  have haligned : allocRawAligned debug16 64 4096 = true := by decide
  have hfits : (4096 : SizeT).toNat + (64 : SizeT).toNat < 2 ^ 64 := by decide
  exact hexact ⟨fun _ => haligned, fun _ => hfits⟩

end Saco.Build
