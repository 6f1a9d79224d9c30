import Saco.Exec.Accounts
import Saco.Shared.Exact

/-!
# Clients of the library

A client calls `build_unique` and `build_shared`, in any order and any number of times, copies and
releases the handles that it got, and goes on after an exception. In every state of every such run the
memory that has been obtained and not freed is what the owners account for, and a head object that has
been constructed and not destroyed either has an owner or was embedded and has a virtual destructor
(`clients_accounted`). A client that only builds what fits is never stopped by an assertion
(`clients_progress`).

The objects of children are not in the accounts. Those that an exception leaves behind have been
constructed, are not destroyed, and nobody owns them.
-/

namespace Saco.Shared
open Build Exec Layout

/-! ## Owners -/

/-- What the handles of a client own. -/
inductive Owner where
  | unique (obj : SizeT)
  | shared (m : Managed)

/-- What is done when the last handle is released. For a `unique_ptr` this is `saco_delete`. -/
def Owner.dispose : Owner → List Event
  | .unique obj => [.destroy obj, .free obj]
  | .shared m => m.dispose

/-- `saco_delete` does what is done with the last handle of a `unique_ptr`. -/
lemma sacoDelete_eq (obj : SizeT) (w : World Event Unit) :
    sacoDelete obj w = .ok () { w with log := w.log ++ (Owner.unique obj).dispose } := by
  have hlog : w.log ++ [.destroy obj] ++ [.free obj] = w.log ++ (Owner.unique obj).dispose :=
    List.append_assoc _ _ _
  rw [← hlog]
  rfl

/-- The blocks of memory that belong to an owner. -/
def Owner.blocks : Owner → List SizeT
  | .unique obj => [obj]
  | .shared (.unique obj control) => [control, obj]
  | .shared (.buffer sp _) => [sp.block]

/-- The object at depth zero. -/
def Owner.objects : Owner → List SizeT
  | .unique obj => [obj]
  | .shared m => [m.get]

/-- The object that `shared_buffer_header` does not destroy, because no function was set. -/
def Owner.leaves : Owner → List SizeT
  | .shared (.buffer _ ⟨none, object⟩) => [object]
  | _ => []

/-- A `unique_ptr` cannot be copied. -/
def Owner.permits : Owner → HandleOp → Bool
  | .unique _, .copy => false
  | _, _ => true

/-! ## Clients -/

/-- The owners that a client has got so far, in a world. -/
structure Clients where
  world : World Event Unit
  owners : List (Held Owner)

/-- What a client does next. -/
inductive Command where
  | buildUnique (T : CxxType) (children : List Plan)
  | buildShared (T : CxxType) (children : List Plan)
  | handle (op : HandleOp) (i : ℕ)

/-- The command embeds no object with a virtual destructor. -/
def Command.Plain : Command → Prop
  | .buildShared T _ => T.hasVirtualDestructor = false
  | _ => True

namespace Clients

/-- Before the first command. -/
def init (clock : ℕ) : Clients where
  world := ⟨clock, [], ()⟩
  owners := []

/-- A call that gives the client a handle. The client catches an exception. -/
def enter {α : Type} (x : Program Abort Event Unit α) (owner : α → Owner) (c : Clients) :
    Option Clients :=
  match x c.world with
  | .ok a world => some ⟨world, c.owners ++ [⟨owner a, 1⟩]⟩
  | .error .exception world => some ⟨world, c.owners⟩
  | .error (.assertion _) _ => none

/-- An operation on a handle of an owner. -/
def handle (op : HandleOp) (i : ℕ) (c : Clients) : Option Clients := do
  let held ← c.owners[i]?
  if held.owner.permits op then
    let h ← Handles.step held.owner.dispose op ⟨held.useCount, c.world.log⟩
    return ⟨{ c.world with log := h.log }, c.owners.set i { held with useCount := h.useCount }⟩
  else
    none

/-- Carry out a command. -/
def step (env : Env) : Command → Clients → Option Clients
  | .buildUnique T children => enter (buildUnique env T children) .unique
  | .buildShared T children => enter (buildShared env T children) .shared
  | .handle op i => handle op i

/-- Carry out commands, one after the other. -/
def run (env : Env) : List Command → Clients → Option Clients
  | [], c => some c
  | cmd :: cmds, c => (step env cmd c).bind (run env cmds)

variable {env : Env} {cmd : Command} {cmds : List Command} {c c' : Clients}

/-! ## What one command does -/

/-- A call of a builder returns a new owner, or throws and leaves the owners as they were. -/
lemma enter_cases {α : Type} {x : Program Abort Event Unit α} {owner : α → Owner}
    {ok : α → List Event → Prop} {thrown : List Event → Prop} (hx : Meets x (Enters ok thrown))
    (h : enter x owner c = some c') :
    ∃ es, c'.world.log = c.world.log ++ es ∧
      ((∃ a, ok a es ∧ c'.owners = c.owners ++ [⟨owner a, 1⟩]) ∨
        thrown es ∧ c'.owners = c.owners) := by
  rw [enter] at h
  cases hw : x c.world with
  | ok a world =>
    obtain ⟨es, hes, hok⟩ := hx.ok hw
    simp only [hw, Option.some.injEq] at h
    subst h
    exact ⟨es, hes, .inl ⟨a, hok, rfl⟩⟩
  | error e world =>
    obtain ⟨es, hes, hthrown⟩ := hx.error hw
    cases e with
    | exception =>
      simp only [hw, Option.some.injEq] at h
      subst h
      exact ⟨es, hes, .inr ⟨hthrown, rfl⟩⟩
    | assertion expr =>
      simp only [hw] at h
      cases h

/-- An operation on a handle changes the account of its owner only. -/
lemma handle_cases {op : HandleOp} {i : ℕ} (h : handle op i c = some c') :
    ∃ held handles, c.owners[i]? = some held ∧
      Handles.step held.owner.dispose op ⟨held.useCount, c.world.log⟩ = some handles ∧
      c'.world.log = handles.log ∧ c'.owners = c.owners.set i ⟨held.owner, handles.useCount⟩ := by
  rw [handle] at h
  cases hheld : c.owners[i]? with
  | none =>
    rw [hheld] at h
    cases h
  | some held =>
    simp only [hheld, Option.bind_eq_bind, Option.bind_some] at h
    split at h
    case isTrue =>
      cases hstep : Handles.step held.owner.dispose op ⟨held.useCount, c.world.log⟩ with
      | none =>
        rw [hstep] at h
        cases h
      | some handles =>
        rw [hstep] at h
        cases h
        exact ⟨held, handles, rfl, hstep, rfl, rfl⟩
    case isFalse => cases h

end Clients

/-! ## Accounts -/

/-- Disposal turns what an owner accounts for into what it leaves. -/
structure Owner.Disposes (owner : Owner) : Prop where
  blocks : Turns Event.blockMove owner.dispose owner.blocks []
  objects : Turns Event.objectMove owner.dispose owner.objects owner.leaves

/-- The events of a call that gives the client an owner. -/
structure Owner.Enters (owner : Owner) (es : List Event) : Prop where
  disposes : owner.Disposes
  blocks : Turns Event.blockMove es [] owner.blocks
  objects : Turns Event.objectMove es [] owner.objects

section Owner

variable {es : List Event} {env : Env} {T : CxxType} {children : List Plan}

/-- Books that are settled turn nothing into what is held. -/
lemma turns_books {bs os : List (Move SizeT)} {blocks objects : List SizeT} (h : Books bs os es)
    (hbs : settle bs [] = some blocks) (hos : settle os [] = some objects) :
    Turns Event.blockMove es [] blocks ∧ Turns Event.objectMove es [] objects := by
  refine ⟨⟨blocks, ?_, .refl _⟩, ⟨objects, ?_, .refl _⟩⟩
  · rw [h.1, hbs]
  · rw [h.2, hos]

/-- The last handle of a `unique_ptr` settles its account. -/
lemma turns_unique (obj : SizeT) : (Owner.unique obj).Disposes where
  blocks := ⟨[], settle_one obj, .refl _⟩
  objects := ⟨[], settle_one obj, .refl _⟩

/-- The last handle of a converted pointer settles its account. -/
lemma turns_converted (obj control : SizeT) : (Owner.shared (.unique obj control)).Disposes where
  blocks := ⟨[], settle_two obj control, .refl _⟩
  objects := ⟨[], settle_one obj, .refl _⟩

/-- The last handle of an embedded object settles its account. -/
lemma turns_embedded (sp : SharedBuffer) (virtual : Bool) (object : SizeT) :
    (Owner.shared (.buffer sp (setDtorFn virtual { sp.header with object }))).Disposes := by
  cases virtual with
  | true => exact ⟨⟨[], settle_one sp.block, .refl _⟩, ⟨[object], rfl, .refl _⟩⟩
  | false => exact ⟨⟨[], settle_one sp.block, .refl _⟩, ⟨[], settle_one object, .refl _⟩⟩

/-- `build_unique` opens an account, or leaves nothing behind. -/
lemma enters_buildUnique : Meets (buildUnique env.asserting T children : Program Abort Event Unit SizeT)
    (Build.Enters (fun obj => (Owner.unique obj).Enters) fun es =>
      Turns Event.blockMove es [] [] ∧ Turns Event.objectMove es [] []) := by
  refine Enters.mono books_buildUnique (fun obj es h => ?_) fun es h => ?_
  -- with assertions the object is at the start of its block, where the deleter frees it
  · obtain ⟨raw, hobj, h⟩ := h
    obtain rfl : obj = raw := hobj.resolve_left Bool.false_ne_true
    obtain ⟨blocks, objects⟩ := turns_books h rfl rfl
    exact ⟨turns_unique obj, blocks, objects⟩
  · rcases h with h | ⟨p, h⟩
    · exact turns_books h rfl rfl
    · exact turns_books h (settle_one p) rfl

/-- Only an embedded object with a virtual destructor is left. -/
lemma enters_buildShared : Meets (buildShared env.asserting T children : Program Abort Event Unit Managed)
    (Build.Enters (fun m es => (Owner.shared m).Enters es ∧
        (T.hasVirtualDestructor = false → (Owner.shared m).leaves = [])) fun es =>
      Turns Event.blockMove es [] [] ∧ Turns Event.objectMove es [] []) := by
  refine Enters.mono books_buildShared (fun m es h => ?_) fun es h => ?_
  · rcases h with ⟨raw, obj, control, rfl, hobj, h⟩ | ⟨sp, object, rfl, h⟩
    · obtain rfl : obj = raw := hobj.resolve_left Bool.false_ne_true
      obtain ⟨blocks, objects⟩ := turns_books h rfl rfl
      exact ⟨⟨turns_converted obj control, blocks, objects⟩, fun _ => rfl⟩
    · obtain ⟨blocks, objects⟩ := turns_books h rfl rfl
      refine ⟨⟨turns_embedded sp _ object, blocks, ?_⟩, fun hvirtual => ?_⟩
      · cases T.hasVirtualDestructor <;> exact objects
      · rw [hvirtual]
        rfl
  · rcases h with h | ⟨p, h⟩ | ⟨raw, obj, hobj, h⟩
    · exact turns_books h rfl rfl
    · exact turns_books h (settle_one p) rfl
    -- the object was complete when the control block failed
    · obtain rfl : obj = raw := hobj.resolve_left Bool.false_ne_true
      exact turns_books h (settle_one obj) (settle_one obj)

end Owner

/-- The memory and the objects of a log belong to the owners. -/
structure Clients.Accounted (c : Clients) : Prop where
  disposes : ∀ held ∈ c.owners, held.owner.Disposes
  blocks : Turns Event.blockMove c.world.log [] (c.owners.flatMap (Held.account Owner.blocks fun _ => []))
  objects : Turns Event.objectMove c.world.log []
    (c.owners.flatMap (Held.account Owner.objects Owner.leaves))

namespace Clients

variable {env : Env} {T : CxxType} {children : List Plan} {cmd : Command} {cmds : List Command}
  {c c' : Clients}

/-- In the beginning there is nothing. -/
lemma accounted_init (clock : ℕ) : (init clock).Accounted where
  disposes := nofun
  blocks := .nil
  objects := .nil

/-- A call brings a new owner, or throws and leaves nothing. -/
lemma Accounted.enter {es : List Event} (h : c.Accounted) (hlog : c'.world.log = c.world.log ++ es)
    (howners : (∃ owner : Owner, owner.Enters es ∧ c'.owners = c.owners ++ [⟨owner, 1⟩]) ∨
      (Turns Event.blockMove es [] [] ∧ Turns Event.objectMove es [] []) ∧ c'.owners = c.owners) :
    c'.Accounted := by
  rcases howners with ⟨owner, henters, howners⟩ | ⟨⟨hblocks, hobjects⟩, howners⟩
  · refine ⟨?_, ?_, ?_⟩
    · intro held hheld
      rw [howners, List.mem_append, List.mem_singleton] at hheld
      rcases hheld with hheld | rfl
      · exact h.disposes held hheld
      · exact henters.disposes
    · rw [hlog, howners]
      exact h.blocks.enter henters.blocks
    · rw [hlog, howners]
      exact h.objects.enter henters.objects
  · refine ⟨?_, ?_, ?_⟩
    · rw [howners]
      exact h.disposes
    · rw [hlog, howners]
      exact h.blocks.append (hblocks.frame _)
    · rw [hlog, howners]
      exact h.objects.append (hobjects.frame _)

/-- Every command keeps the accounts. -/
lemma Accounted.step (h : c.Accounted) (hstep : step env.asserting cmd c = some c') :
    c'.Accounted := by
  cases cmd with
  | buildUnique T children =>
    obtain ⟨es, hes, ⟨obj, hok, howners⟩ | hthrown⟩ := enter_cases enters_buildUnique hstep
    · exact h.enter hes (.inl ⟨_, hok, howners⟩)
    · exact h.enter hes (.inr hthrown)
  | buildShared T children =>
    obtain ⟨es, hes, ⟨m, hok, howners⟩ | hthrown⟩ := enter_cases enters_buildShared hstep
    · exact h.enter hes (.inl ⟨_, hok.1, howners⟩)
    · exact h.enter hes (.inr hthrown)
  | handle op i =>
    obtain ⟨held, handles, hheld, hhandles, hlog, howners⟩ := handle_cases hstep
    have hdisposes := h.disposes held (List.mem_of_getElem? hheld)
    refine ⟨fun held' hheld' => ?_, ?_, ?_⟩
    · rw [howners] at hheld'
      rcases List.mem_or_eq_of_mem_set hheld' with hmem | rfl
      · exact h.disposes held' hmem
      · exact hdisposes
    · rw [hlog, howners]
      exact h.blocks.handle hheld hdisposes.blocks hhandles
    · rw [hlog, howners]
      exact h.objects.handle hheld hdisposes.objects hhandles

/-- The accounts are kept over any run. -/
lemma Accounted.run (h : c.Accounted) (hrun : run env.asserting cmds c = some c') :
    c'.Accounted := by
  induction cmds generalizing c with
  | nil =>
    cases hrun
    exact h
  | cons cmd cmds ih =>
    obtain ⟨c₁, hstep, hrest⟩ := Option.bind_eq_some_iff.1 hrun
    exact ih (h.step hstep) hrest

/-! ## Without virtual destructors -/

/-- No owner leaves its object. -/
def Destroys (c : Clients) : Prop := ∀ held ∈ c.owners, held.owner.leaves = []

/-- A plain command adds no owner that skips a destructor. -/
lemma Destroys.step (h : c.Destroys) (hcmd : cmd.Plain) (hstep : step env.asserting cmd c = some c') :
    c'.Destroys := by
  have hnew : ∀ {owner : Owner}, owner.leaves = [] → c'.owners = c.owners ++ [⟨owner, 1⟩] →
      c'.Destroys := by
    intro owner hleaves howners held hheld
    rw [howners, List.mem_append, List.mem_singleton] at hheld
    rcases hheld with hheld | rfl
    · exact h held hheld
    · exact hleaves
  have hsame : c'.owners = c.owners → c'.Destroys := by
    intro howners held hheld
    rw [howners] at hheld
    exact h held hheld
  cases cmd with
  | buildUnique T children =>
    obtain ⟨es, -, ⟨obj, -, howners⟩ | hthrown⟩ := enter_cases enters_buildUnique hstep
    · exact hnew rfl howners
    · exact hsame hthrown.2
  | buildShared T children =>
    obtain ⟨es, -, ⟨m, hok, howners⟩ | hthrown⟩ := enter_cases enters_buildShared hstep
    · exact hnew (hok.2 hcmd) howners
    · exact hsame hthrown.2
  | handle op i =>
    obtain ⟨held, handles, hheld, -, -, howners⟩ := handle_cases hstep
    intro held' hheld'
    rw [howners] at hheld'
    rcases List.mem_or_eq_of_mem_set hheld' with hmem | rfl
    · exact h held' hmem
    · exact h held (List.mem_of_getElem? hheld)

/-- Plain commands do not, in any run. -/
lemma Destroys.run (h : c.Destroys) (hcmds : ∀ cmd ∈ cmds, cmd.Plain)
    (hrun : run env.asserting cmds c = some c') : c'.Destroys := by
  induction cmds generalizing c with
  | nil =>
    cases hrun
    exact h
  | cons cmd cmds ih =>
    obtain ⟨c₁, hstep, hrest⟩ := Option.bind_eq_some_iff.1 hrun
    exact ih (h.step (hcmds cmd List.mem_cons_self) hstep)
      (fun cmd hcmd => hcmds cmd (List.mem_cons_of_mem _ hcmd)) hrest

/-! ## Without assertions -/

/-- A call goes the same way in a build without assertions. -/
lemma enter_of_refines {α : Type} {x y : Program Abort Event Unit α} {owner : α → Owner}
    (hr : Refines Stops x y) (h : enter x owner c = some c') : enter y owner c = some c' := by
  -- a failed assertion would have ended the client
  have hx : AssertionsHold x c.world := by
    intro expr hstop
    rw [enter] at h
    cases hw : x c.world with
    | ok a world =>
      rw [hw] at hstop
      cases hstop
    | error e world =>
      rw [hw] at hstop
      cases hstop
      rw [hw] at h
      cases h
  rw [enter, run_eq_of_refines hr hx]
  exact h

/-- A client that no assertion stops does the same in a build without assertions. -/
lemma run_of_asserting (h : run env.asserting cmds c = some c') : run env cmds c = some c' := by
  induction cmds generalizing c with
  | nil => exact h
  | cons cmd cmds ih =>
    obtain ⟨c₁, hstep, hrest⟩ := Option.bind_eq_some_iff.1 h
    have hstep' : step env cmd c = some c₁ := by
      cases cmd with
      | buildUnique T children => exact enter_of_refines refines_buildUnique hstep
      | buildShared T children => exact enter_of_refines refines_buildShared hstep
      | handle op i => exact hstep
    exact Option.bind_eq_some_iff.2 ⟨c₁, hstep', ih hrest⟩

/-- No handle is left. -/
def Gone (c : Clients) : Prop := ∀ held ∈ c.owners, held.useCount = 0

/-- Owners without a handle hold nothing. -/
lemma Gone.flatMap {α : Type} {owns leaves : Owner → List α} (h : c.Gone)
    (hleaves : ∀ held ∈ c.owners, leaves held.owner = []) :
    c.owners.flatMap (Held.account owns leaves) = [] := by
  rw [List.flatMap_eq_nil_iff]
  intro held hheld
  rw [Held.account, if_pos (h held hheld)]
  exact hleaves held hheld

end Clients

/-- Every state that a client reaches, in a build with or without assertions, as long as none fails. What
is held is what the owners account for; once no handle is left, all memory has been freed, and all head
objects have been destroyed if none with a virtual destructor was embedded. -/
theorem clients_accounted (env : Env) (cmds : List Command) (clock : ℕ) (c : Clients)
    (hrun : Clients.run env.asserting cmds (.init clock) = some c) :
    Clients.run env cmds (.init clock) = some c ∧ c.Accounted ∧
      (c.Gone → AllFreed c.world.log ∧
        ((∀ cmd ∈ cmds, cmd.Plain) → AllDestroyed c.world.log)) := by
  have haccounted : c.Accounted := (Clients.accounted_init clock).run hrun
  refine ⟨Clients.run_of_asserting hrun, haccounted, fun hgone => ⟨?_, fun hcmds => ?_⟩⟩
  · have hblocks := haccounted.blocks
    rw [hgone.flatMap fun _ _ => rfl] at hblocks
    exact allFreed_of_settle ⟨rfl, rfl⟩ hblocks.settled
  · have hdestroys : (Clients.init clock).Destroys := nofun
    have hobjects := haccounted.objects
    rw [hgone.flatMap (hdestroys.run hcmds hrun)] at hobjects
    exact allDestroyed_of_settle ⟨rfl, rfl⟩ hobjects.settled

/-- There is no memory for the first control block; the second handle is shared and released. -/
def session : List Command :=
  [.buildShared halfPage.toCxxType [], .buildShared halfPage.toCxxType [], .handle .copy 0,
    .handle .release 0, .handle .release 0]

/-- In the end everything has been given back. -/
theorem clients_accounted_session :
    ∃ c, Clients.run (throwsAt 4) session (.init 0) = some c ∧ c.Gone ∧ AllFreed c.world.log ∧
      AllDestroyed c.world.log := by
  have hcounts : (Clients.run (throwsAt 4) session (.init 0)).map
      (fun c => c.owners.map Held.useCount) = some [0] := by decide +kernel
  obtain ⟨c, hrun, hcounts⟩ := Option.map_eq_some_iff.1 hcounts
  have gone : c.Gone := by
    intro held hheld
    have hmem : held.useCount ∈ [0] := hcounts ▸ List.mem_map_of_mem hheld
    exact List.mem_singleton.1 hmem
  have plain : ∀ cmd ∈ session, cmd.Plain := by
    simp [session, Command.Plain, halfPage]
  obtain ⟨hsame, -, hgone⟩ := clients_accounted (throwsAt 4) session 0 c hrun
  exact ⟨c, hsame, gone, (hgone gone).1, (hgone gone).2 plain⟩

/-! ## Progress -/

/-- What is built fits, and memory for it is supplied. -/
structure Supplied (env : Env) (T : CxxType) (children : List Plan) : Prop where
  head : ∃ head : HeadType env.cfg, T = head.toCxxType
  fits : (Plan.place T children).Fits env.cfg
  supplies : ∀ mctx, MeasureContext.allocateAll env.cfg ((Plan.place T children).requests false)
    (.init env.cfg) = .ok mctx → env.Supplies mctx.requiredSize
  storage : ∀ mctx, MeasureContext.allocateAll env.cfg ((Plan.place T children).requests false)
    (.init env.cfg) = .ok mctx → ∀ time,
      (env.storage (env.operatorNew time)).toNat + mctx.requiredSize.toNat < 2 ^ 64

/-- What the command builds is supplied. -/
def Command.Supplied (env : Env) : Command → Prop
  | .buildUnique T children => Shared.Supplied env T children
  | .buildShared T children => Shared.Supplied env T children
  | .handle _ _ => True

namespace Clients

variable {env : Env} {T : CxxType} {children : List Plan} {cmds : List Command} {c : Clients}

/-- A call that no assertion stops goes on. -/
lemma exists_enter {α : Type} {x : Program Abort Event Unit α} {owner : α → Owner}
    {ok : α → List Event → Prop} {thrown : List Event → Prop} (hx : Meets x (Safely ok thrown)) :
    ∃ c', enter x owner c = some c' := by
  rw [enter]
  cases hw : x c.world with
  | ok a world => exact ⟨_, rfl⟩
  | error e world =>
    cases e with
    | exception => exact ⟨_, rfl⟩
    | assertion expr =>
      obtain ⟨es, -, h⟩ := hx.error hw
      exact h.elim

/-- `build_unique` of what is supplied goes on. -/
lemma exists_buildUnique (h : Supplied env T children) :
    ∃ c', enter (buildUnique env T children) .unique c = some c' := by
  obtain ⟨head, rfl⟩ := h.head
  obtain ⟨mctx, hmctx, hr⟩ := exists_measured h.fits
  exact exists_enter (logs_buildUnique h.fits hmctx hr (h.supplies mctx hmctx))

/-- `build_shared` of what is supplied goes on. -/
lemma exists_buildShared (h : Supplied env T children) :
    ∃ c', enter (buildShared env T children) .shared c = some c' := by
  obtain ⟨head, rfl⟩ := h.head
  obtain ⟨mctx, hmctx, hr⟩ := exists_measured h.fits
  by_cases hsize : maxSize < mctx.requiredSize
  · exact exists_enter (logs_converted h.fits hmctx hr hsize (h.supplies mctx hmctx))
  · exact exists_enter (logs_embedded h.fits hmctx hr hsize (h.storage mctx hmctx))

/-- There is no such handle, or it cannot be copied. -/
def Rejects (op : HandleOp) (i : ℕ) (c : Clients) : Prop :=
  ∀ held, c.owners[i]? = some held → held.useCount = 0 ∨ held.owner.permits op = false

/-- A handle operation that stops the run is not allowed. -/
lemma rejects_of_handle {op : HandleOp} {i : ℕ} (h : handle op i c = none) : c.Rejects op i := by
  intro held hheld
  simp only [handle, hheld, Option.bind_eq_bind, Option.bind_some] at h
  split at h
  case isTrue =>
    obtain ⟨owner, useCount⟩ := held
    cases useCount with
    | zero => exact .inl rfl
    | succ n =>
      cases op with
      | copy => cases h
      | release => cases n <;> cases h
  case isFalse hpermits => exact .inr (Bool.eq_false_of_not_eq_true hpermits)

/-- A run that stops, stops at such an operation. -/
lemma exists_rejects (hcmds : ∀ cmd ∈ cmds, cmd.Supplied env) (hstop : run env cmds c = none) :
    ∃ before op i after c', cmds = before ++ .handle op i :: after ∧
      run env before c = some c' ∧ c'.Rejects op i := by
  induction cmds generalizing c with
  | nil => cases hstop
  | cons cmd cmds ih =>
    have hcmd := hcmds cmd List.mem_cons_self
    have hrest : ∀ c₁, step env cmd c = some c₁ → ∃ before op i after c',
        cmd :: cmds = before ++ .handle op i :: after ∧ run env before c = some c' ∧
          c'.Rejects op i := by
      intro c₁ hstep
      rw [run, hstep] at hstop
      obtain ⟨before, op, i, after, c', rfl, hrun, hrejects⟩ :=
        ih (fun cmd hcmd => hcmds cmd (List.mem_cons_of_mem _ hcmd)) hstop
      exact ⟨cmd :: before, op, i, after, c', rfl, Option.bind_eq_some_iff.2 ⟨c₁, hstep, hrun⟩,
        hrejects⟩
    cases cmd with
    | buildUnique T children =>
      obtain ⟨c₁, hstep⟩ := exists_buildUnique hcmd
      exact hrest c₁ hstep
    | buildShared T children =>
      obtain ⟨c₁, hstep⟩ := exists_buildShared hcmd
      exact hrest c₁ hstep
    | handle op i =>
      cases hstep : handle op i c with
      | none => exact ⟨[], op, i, cmds, c, rfl, rfl, rejects_of_handle hstep⟩
      | some c₁ => exact hrest c₁ hstep

end Clients

/-- A client is only stopped by a handle that it does not have, and not by an assertion. -/
theorem clients_progress (env : Env) (cmds : List Command) (clock : ℕ)
    (hcmds : ∀ cmd ∈ cmds, cmd.Supplied env) (hstop : Clients.run env cmds (.init clock) = none) :
    ∃ before op i after c, cmds = before ++ .handle op i :: after ∧
      Clients.run env before (.init clock) = some c ∧ c.Rejects op i :=
  Clients.exists_rejects hcmds hstop

/-- The last handle is released twice. -/
theorem clients_progress_twice :
    ∃ before op i after c, [.buildShared halfPage.toCxxType [], .handle .release 0, .handle .release 0] =
        before ++ .handle op i :: after ∧
      Clients.run (throwsAt 4) before (.init 5) = some c ∧ c.Rejects op i := by
  have supplied : Shared.Supplied (throwsAt 4) halfPage.toCxxType [] := by
    refine ⟨⟨halfPage, rfl⟩, ⟨rfl, by decide⟩, fun mctx hmctx => ?_, fun mctx hmctx => ?_⟩
    all_goals
      obtain rfl : mctx = ⟨2048, 16, 0⟩ := Except.ok.inj (hmctx.symm.trans rfl)
    · have haligned : allocRawAligned debug16 2048 4096 = true := by decide
      have hfits : (4096 : SizeT).toNat + (2048 : SizeT).toNat < 2 ^ 64 := by decide
      exact ⟨fun _ => haligned, fun _ => hfits⟩
    · have hfits : (4096 : SizeT).toNat + (2048 : SizeT).toNat < 2 ^ 64 := by decide
      exact fun _ => hfits
  have hnone : (Clients.run (throwsAt 4)
      [.buildShared halfPage.toCxxType [], .handle .release 0, .handle .release 0]
      (.init 5)).isNone = true := by decide +kernel
  refine clients_progress (throwsAt 4) _ 5 (fun cmd hcmd => ?_) (Option.isNone_iff_eq_none.1 hnone)
  cases hcmd with
  | head => exact supplied
  | tail _ hcmd =>
    cases hcmd with
    | head => trivial
    | tail _ hcmd =>
      cases hcmd with
      | head => trivial
      | tail _ hcmd => cases hcmd

end Saco.Shared
