import Mathlib.Data.List.Iterate
import Mathlib.Logic.Function.Iterate
import Saco.Build.Depth
import Saco.Build.Throws
import Saco.Layout.Block

/-!
# The elements of a placed array

What `place<T[]>` and `place_for_overwrite<T[]>` do to the elements of the array on a
`construct_context`. `array_lifetimes`: they are built in order, and nothing ever destroys them, so what
is left alive by an exception are the elements before the one that threw. `given_eq_iff`: every element
is built from the arguments of the caller if and only if building one leaves the arguments as they were,
or there is at most one element.
-/

namespace Saco.Build
open Exec Layout

variable {A : Type} {env : Env} {T : CxxType} {depth : ℕ}

/-! ## Lifetimes -/

/-- The objects that were built at a depth, in order. -/
def constructed (depth : ℕ) (es : List Event) : List SizeT :=
  es.filterMap fun
    | .construct depth' address => if depth' = depth then some address else none
    | _ => none

/-- The objects that were destroyed. -/
def destroyed (es : List Event) : List SizeT :=
  es.filterMap fun
    | .destroy address => some address
    | _ => none

/-- The objects of two logs. -/
@[simp] lemma constructed_append {es es' : List Event} :
    constructed depth (es ++ es') = constructed depth es ++ constructed depth es' :=
  List.filterMap_append

/-- The objects of two logs. -/
@[simp] lemma destroyed_append {es es' : List Event} :
    destroyed (es ++ es') = destroyed es ++ destroyed es' := List.filterMap_append

/-- A single object. -/
@[simp] lemma constructed_construct {a : SizeT} : constructed depth [.construct depth a] = [a] := by
  simp [constructed]

/-- Deeper events build nothing at this depth. -/
lemma constructed_eq_nil {es : List Event} (h : ∀ e ∈ es, e.Inner true (depth + 1)) :
    constructed depth es = [] := by
  rw [constructed, List.filterMap_eq_nil_iff]
  intro e he
  have hinner := h e he
  cases e with
  | construct d a => exact if_neg (Nat.ne_of_gt hinner.2)
  | _ => rfl

/-- A pass destroys nothing. -/
lemma destroyed_eq_nil {d : ℕ} {es : List Event} (h : ∀ e ∈ es, e.Inner true d) :
    destroyed es = [] := by
  rw [destroyed, List.filterMap_eq_nil_iff]
  intro e he
  have hinner := h e he
  cases e with
  | destroy a => exact hinner.elim
  | _ => rfl

/-- A run that builds one object after another, up to the one that fails. Nothing is destroyed. -/
def Builds {S α : Type} (depth : ℕ) (addresses : List SizeT) : Spec Abort Event S α :=
  fun _ r es _ => destroyed es = [] ∧
    match r with
    | .ok _ => constructed depth es = addresses
    | .error _ => ∃ k < addresses.length, constructed depth es = addresses.take k

/-- An object that is built last is the only one at its depth. -/
lemma Builds.of_built {S α : Type} {x : Program Abort Event S α} {memory : SizeT}
    (hx : Meets x (Built depth fun _ => memory)) : Meets x (Builds depth [memory]) := by
  refine hx.mono fun s r es s' h => ?_
  cases r with
  | ok a =>
    obtain ⟨es', hes', rfl⟩ := h
    refine ⟨?_, ?_⟩
    · rw [destroyed_append, destroyed_eq_nil hes']
      rfl
    · change constructed depth (es' ++ [.construct depth memory]) = [memory]
      rw [constructed_append, constructed_eq_nil hes', constructed_construct, List.nil_append]
  | error e => exact ⟨destroyed_eq_nil h, 0, Nat.zero_lt_one, constructed_eq_nil h⟩

/-- Another value is returned. -/
lemma Builds.thenReturn {S α β : Type} {x : Program Abort Event S α} {as : List SizeT} {b : β}
    (hx : Meets x (Builds depth as)) : Meets (do let _ ← x; return b) (Builds depth as) := by
  have hreturn : Meets (Pure.pure b : Program Abort Event S β) fun _ r es _ => r = .ok b ∧ es = [] :=
    .pure fun _ => ⟨rfl, rfl⟩
  refine .bind hx (fun _ => hreturn) (fun _ _ _ _ h => h) ?_
  rintro s a es s' r es' s'' ⟨hdes, hcon⟩ ⟨rfl, rfl⟩
  rw [List.append_nil]
  exact ⟨hdes, hcon⟩

/-- The loop builds the objects in order, up to the one that fails. -/
lemma Builds.forM {S : Type} {f : SizeT → Program Abort Event S Unit}
    (hf : ∀ a, Meets (f a) (Builds depth [a])) (as : List SizeT) :
    Meets (forM as f) (Builds depth as) := by
  refine .forM hf (fun s => ⟨rfl, rfl⟩) ?_ ?_ as
  · rintro c cs s e es s' ⟨hdes, k, hk, hcon⟩
    obtain rfl : k = 0 := Nat.lt_one_iff.1 hk
    exact ⟨hdes, 0, Nat.zero_lt_succ _, hcon⟩
  · rintro c cs s es s' r es' s'' ⟨hdes, hcon⟩ ⟨hdes', hrest⟩
    refine ⟨by rw [destroyed_append, hdes, hdes']; rfl, ?_⟩
    have hcon : constructed depth es = [c] := hcon
    cases r with
    | ok u =>
      change constructed depth (es ++ es') = c :: cs
      rw [constructed_append, hcon, hrest]
      rfl
    | error e =>
      obtain ⟨k, hk, hcon'⟩ := hrest
      refine ⟨k + 1, Nat.succ_lt_succ hk, ?_⟩
      rw [constructed_append, hcon, hcon']
      rfl

/-- The construct pass returns the aligned address, if its assertion holds. -/
lemma address_allocateSpace {cfg : Config} {t : TypedRequest} :
    Meets (allocateSpace cfg t : Code ConstructContext A SizeT) fun s r es _ =>
      es = [.request t.request] ∧ ∀ p, r = .ok p → p = align t.request.ALIGN s.ctx.mCurrent := by
  refine meets_allocateSpace.mono fun s r es s' h => ⟨h.1, fun p hp => ?_⟩
  rw [hp] at h
  exact ConstructContext.address_of_allocateSpace0 h.2.1

/-- The space of an array is requested, then its elements are built. -/
lemma Builds.array {cfg : Config} {count : SizeT} (hcount : count ≠ 0)
    {loop : SizeT → Code ConstructContext A Unit}
    (hloop : ∀ ts, Meets (loop ts) (Builds depth (elements T count ts))) :
    Meets (do
      let memory ← allocateSpace cfg (.array T count)
      loop memory
      return memory : Code ConstructContext A SizeT) fun s r es s' =>
        Builds depth (elements T count (align T.alignof s.ctx.mCurrent)) s r es s' := by
  have hpos : 0 < count.toNat := Arith.toNat_pos hcount
  refine .bind address_allocateSpace (fun ts => Builds.thenReturn (hloop ts)) ?_ ?_
  · rintro s e es s' ⟨rfl, -⟩
    exact ⟨rfl, 0, by rwa [length_elements], rfl⟩
  · rintro s ts es s' r es' s'' ⟨rfl, hts⟩ ⟨hdes, hcon⟩
    rw [← show ts = align T.alignof s.ctx.mCurrent from hts ts rfl]
    exact ⟨hdes, hcon⟩

/-- What happens to the elements of an array. If an exception leaves the call, the elements before the
one that threw are alive; the law that `new T[count]` obeys, which destroys just them, then holds only
when there are none. -/
def Lifetimes (depth : ℕ) (T : CxxType) (count : SizeT) :
    Spec Abort Event (Scope ConstructContext A) SizeT :=
  fun s r es _ => destroyed es = [] ∧
    match r with
    | .ok _ => constructed depth es = elements T count (align T.alignof s.ctx.mCurrent)
    | .error _ => ∃ k < count.toNat,
      constructed depth es = (elements T count (align T.alignof s.ctx.mCurrent)).take k ∧
        ((destroyed es).Perm (constructed depth es) ↔ k = 0)

/-- Of what was built, and not destroyed, at the addresses of the elements. -/
lemma Builds.lifetimes {count : SizeT} {x : Code ConstructContext A SizeT}
    (hx : Meets x fun s r es s' =>
      Builds depth (elements T count (align T.alignof s.ctx.mCurrent)) s r es s') :
    Meets x (Lifetimes depth T count) := by
  refine hx.mono ?_
  rintro s r es s' ⟨hdes, h⟩
  refine ⟨hdes, ?_⟩
  cases r with
  | ok p => exact h
  | error e =>
    obtain ⟨k, hk, hcon⟩ := h
    rw [length_elements] at hk
    refine ⟨k, hk, hcon, ?_⟩
    rw [hdes, hcon, List.nil_perm, List.take_eq_nil_iff]
    refine ⟨fun h => h.resolve_right fun hnil => ?_, Or.inl⟩
    have hlen : (elements T count (align T.alignof s.ctx.mCurrent)).length = count.toNat :=
      length_elements
    rw [hnil, List.length_nil] at hlen
    omega

/-- Nothing destroys an element, neither of an array that was completed nor of one that an exception
left behind, for every count, for both kinds of array placement and for every builder of a plan. An
exception leaves the call just when a step of user code in it throws; if none does and no assertion fails,
it returns (`Relays.exists_ok`). -/
theorem array_lifetimes (env : Env) (depth : ℕ) (T : CxxType) (count : SizeT) (children : List Plan) :
    (Meets (placeArray env T count (build env depth (runAll env (depth + 1) children)) :
          Code ConstructContext A SizeT) (Lifetimes depth T count) ∧
        Relays env (placeArray env T count (build env depth (runAll env (depth + 1) children)) :
          Code ConstructContext A SizeT)) ∧
      Meets (placeForOverwriteArray env depth T count : Code ConstructContext A SizeT)
          (Lifetimes depth T count) ∧
        Relays env (placeForOverwriteArray env depth T count : Code ConstructContext A SizeT) := by
  refine ⟨⟨?_, blames_placeArray neverThrows_construct fun _ =>
    blames_build (blames_runAll neverThrows_construct (depth + 1) children)⟩, ?_,
    blames_placeForOverwriteArray neverThrows_construct⟩
  · by_cases hcount : count = 0
    · rw [placeArray, if_pos hcount]
      exact .pure fun _ => ⟨rfl, by rw [hcount]; rfl⟩
    · rw [placeArray, if_neg hcount]
      exact Builds.lifetimes (Builds.array hcount fun ts => Builds.forM (fun _ =>
        Builds.thenReturn (Builds.of_built (built_build (inner_runAll (depth + 1) children) rfl))) _)
  · by_cases hcount : count = 0
    · rw [placeForOverwriteArray, if_pos hcount]
      exact .pure fun _ => ⟨rfl, by rw [hcount]; rfl⟩
    · rw [placeForOverwriteArray, if_neg hcount]
      exact Builds.lifetimes (Builds.array hcount fun ts =>
        Builds.forM (fun _ => Builds.of_built built_defaultInit) _)

/-- The law that `new T[count]` obeys when a constructor throws. -/
def AllOrNothing {S α : Type} (depth : ℕ) : Spec Abort Event S α :=
  fun _ r es _ =>
    match r with
    | .ok _ => destroyed es = []
    | .error _ => (destroyed es).Perm (constructed depth es)

/-- One step throws. -/
def throwsAt (n : ℕ) : Env where
  cfg := debug16
  throws t := t == n
  operatorNew _ := 4096
  storage _ := 4096
  storage_aligned _ := by decide

/-- Sixteen bytes that own something. -/
def node (hasVirtualDestructor : Bool) : CxxType where
  sizeof := lineHead.sizeof
  alignof := lineHead.alignof
  hasVirtualDestructor
  isTriviallyDestructible := false
  sizeof_ne_zero := lineHead.sizeof_ne_zero
  sizeof_mod_alignof := lineHead.sizeof_mod_alignof
  virtual_not_trivial _ := rfl

/-- The second of two elements throws, and the first one, which has a destructor, is not destroyed. -/
theorem array_not_allOrNothing :
    ¬Meets (placeArray (throwsAt 1) (node false) 2 (build (throwsAt 1) 0 (runAll (throwsAt 1) 1 [])) :
        Code ConstructContext Unit SizeT) (AllOrNothing 0) ∧
      ¬Meets (placeForOverwriteArray (throwsAt 1) 0 (node false) 2 :
        Code ConstructContext Unit SizeT) (AllOrNothing 0) := by
  have hperm : ∀ es : List Event, [Event.request ⟨lineHead.alignof, 32⟩, .construct 0 4096] = [] ++ es →
      ¬(destroyed es).Perm (constructed 0 es) := by
    rintro es rfl hperm
    exact nomatch hperm.length_eq
  refine ⟨fun h => ?_, fun h => ?_⟩
  · obtain ⟨es, hes, hp⟩ := h.error (w := ⟨0, [], ⟨.init 4096 32, ()⟩⟩) rfl
    exact hperm es hes hp
  · obtain ⟨es, hes, hp⟩ := h.error (w := ⟨0, [], ⟨.init 4096 32, ()⟩⟩) rfl
    exact hperm es hes hp

/-! ## Arguments -/

variable {V : Type} {F : Forwarding V}

/-- A completed run has forwarded the arguments `n` times. -/
def Forwards (F : Forwarding V) (n : ℕ) {α : Type} :
    Spec Abort Event (Scope ConstructContext (Pack V)) α :=
  fun s r _ s' => ∀ a, r = .ok a → s'.args = (Pack.forward F)^[n] s.args

/-- One part after the other. -/
lemma Forwards.bind {α β : Type} {m n : ℕ} {x : Code ConstructContext (Pack V) α}
    {f : α → Code ConstructContext (Pack V) β} (hx : Meets x (Forwards F m))
    (hf : ∀ a, Meets (f a) (Forwards F n)) : Meets (x >>= f) (Forwards F (n + m)) := by
  refine .bind hx hf (fun _ _ _ _ _ => nofun) ?_
  intro s a es s' r es' s'' h h' b hb
  rw [Function.iterate_add_apply, ← h a rfl]
  exact h' b hb

/-- Returning forwards nothing. -/
lemma Forwards.pure {α : Type} {a : α} :
    Meets (Pure.pure a : Code ConstructContext (Pack V) α) (Forwards F 0) :=
  .pure fun _ _ _ => rfl

/-- User code without arguments. -/
lemma forwards_mayThrow : Meets (mayThrow env : Code ConstructContext (Pack V) Unit) (Forwards F 0) :=
  .bind (P := fun s _ _ s' => s' = s) (.tick (fun _ _ => rfl) fun _ _ _ => rfl) (fun _ => Forwards.pure)
    (fun _ _ _ _ _ => nofun) fun _ _ _ _ _ _ _ h h' _ hb => h ▸ h' _ hb

/-- An event. -/
lemma forwards_emit {e : Event} :
    Meets (emit e : Code ConstructContext (Pack V) Unit) (Forwards F 0) :=
  .emit fun _ _ _ => rfl

/-- The arguments are forwarded. -/
lemma forwards_apply : Meets (apply fun s => return ((), { s with args := s.args.forward F }) :
    Code ConstructContext (Pack V) Unit) (Forwards F 1) := by
  refine .apply (fun s a s' h b _ => ?_) fun s e h => nomatch h
  cases h
  rfl

/-- A builder forwards the arguments once. -/
lemma forwards_buildForward {memory : SizeT} :
    Meets (buildForward env depth F memory : Code ConstructContext (Pack V) SizeT) (Forwards F 1) :=
  Forwards.bind forwards_mayThrow fun _ => Forwards.bind forwards_apply fun _ =>
    Forwards.bind forwards_emit fun _ => Forwards.pure

/-- A request leaves the arguments alone. -/
lemma forwards_allocateSpace {cfg : Config} {t : TypedRequest} :
    Meets (allocateSpace cfg t : Code ConstructContext (Pack V) SizeT) (Forwards F 0) :=
  meets_allocateSpace.mono fun _ _ _ _ h _ _ => h.2.2.1

/-- The loop forwards them in each round. -/
lemma forwards_forM {f : SizeT → Code ConstructContext (Pack V) Unit}
    (hf : ∀ a, Meets (f a) (Forwards F 1)) (as : List SizeT) :
    Meets (forM as f) (Forwards F as.length) := by
  induction as with
  | nil => exact Forwards.pure
  | cons a as ih =>
    rw [List.forM_cons]
    exact Forwards.bind (hf a) fun _ => ih

/-- A completed array has forwarded the arguments once for each element. -/
lemma forwards_placeArray {count : SizeT} :
    Meets (placeArray env T count (buildForward env depth F) :
      Code ConstructContext (Pack V) SizeT) (Forwards F count.toNat) := by
  rw [placeArray]
  split
  case isTrue hcount =>
    subst hcount
    exact Forwards.pure
  case isFalse =>
    have hone : ∀ address, Meets (do
        let _ ← buildForward env depth F address : Code ConstructContext (Pack V) Unit)
        (Forwards F 1) :=
      fun _ => Forwards.bind forwards_buildForward fun _ => Forwards.pure
    refine Forwards.bind forwards_allocateSpace fun ts => ?_
    have hloop := forwards_forM hone (elements T count ts)
    rw [length_elements] at hloop
    have hreturn := Forwards.bind hloop fun _ => Forwards.pure (a := ts)
    rwa [Nat.zero_add] at hreturn

/-- The values that the elements are given, one list for each. -/
lemma given_iterate {n : ℕ} {pack : Pack V} : ((Pack.forward F)^[n] pack).given =
    pack.given ++ (List.iterate F.after pack.args n).map (List.map Arg.value) := by
  induction n generalizing pack with
  | zero => exact (List.append_nil _).symm
  | succ n ih =>
    rw [Function.iterate_succ_apply, ih, List.iterate, List.map_cons, Pack.forward,
      List.append_assoc]
    rfl

/-- Arguments are determined by their values and by how they are handed on. -/
lemma args_ext {args args' : List (Arg V)} (hvalue : args.map Arg.value = args'.map Arg.value)
    (hrvalue : args.map Arg.rvalue = args'.map Arg.rvalue) : args = args' := by
  induction args generalizing args' with
  | nil => exact (List.map_eq_nil_iff.1 hvalue.symm).symm
  | cons arg args ih =>
    obtain ⟨arg', args', rfl, hhead, htail⟩ := List.map_eq_cons_iff.1 hvalue.symm
    obtain ⟨hhead', htail'⟩ := List.cons_eq_cons.1 hrvalue
    rw [Arg.ext hhead.symm hhead', ih htail.symm htail']

/-- Building an object leaves the arguments as they were if it leaves their values. -/
lemma Forwarding.after_eq (F : Forwarding V) {args : List (Arg V)}
    (h : (F.after args).map Arg.value = args.map Arg.value) : F.after args = args :=
  args_ext h (F.rvalue_after args)

/-- Iterating a function at a fixed point. -/
lemma iterate_of_fixed {γ : Type} {f : γ → γ} {a : γ} {n : ℕ} (h : f a = a) :
    List.iterate f a n = List.replicate n a := by
  induction n with
  | zero => rfl
  | succ n ih => rw [List.iterate, h, ih, List.replicate_succ]

/-- A completed array holds `count` independent builds from the values that the caller passed, whatever
an element makes of the values it is given, if and only if there is at most one element or building one
leaves the arguments as they were. -/
theorem given_eq_iff (env : Env) (depth : ℕ) (T : CxxType) (count : SizeT) (F : Forwarding V)
    (args : List (Arg V)) (ctx : ConstructContext) (clock : ℕ) (log : List Event) (p : SizeT)
    (w' : World Event (Scope ConstructContext (Pack V)))
    (hrun : placeArray env T count (buildForward env depth F) ⟨clock, log, ⟨ctx, ⟨args, []⟩⟩⟩ =
      .ok p w') :
    (∀ (E : Type) (element : List V → E), w'.vars.args.given.map element =
        List.replicate count.toNat (element (args.map Arg.value))) ↔
      count.toNat ≤ 1 ∨ F.after args = args := by
  obtain ⟨es, -, hforwards⟩ := forwards_placeArray.ok hrun
  rw [hforwards p rfl, given_iterate, List.nil_append]
  constructor
  · intro h
    have h := h _ id
    rw [List.map_id] at h
    cases Nat.lt_or_ge 1 count.toNat with
    | inl hlt =>
      obtain ⟨n, hn⟩ := Nat.exists_eq_add_of_le' hlt
      rw [hn] at h
      simp only [List.iterate, List.replicate_succ, List.map_cons, List.cons.injEq] at h
      exact .inr (F.after_eq h.2.1)
    | inr hle => exact .inl hle
  · rintro (hle | hfix) E element
    · cases hcount : count.toNat with
      | zero => rfl
      | succ n =>
        obtain rfl : n = 0 := by omega
        rfl
    · rw [iterate_of_fixed hfix, List.map_replicate, List.map_replicate]

/-- Building moves rvalues out, and leaves zero behind. -/
def moveOut : Forwarding ℕ where
  after args := args.map fun arg => if arg.rvalue then { arg with value := 0 } else arg
  rvalue_after args := by
    rw [List.map_map]
    refine List.map_congr_left fun arg _ => ?_
    cases h : arg.rvalue <;> simp [h]

/-- Two elements are built from one lvalue. -/
theorem given_eq_iff_lvalue :
    [[7], [7]].map List.sum = List.replicate 2 (([⟨7, false⟩] : List (Arg ℕ)).map Arg.value).sum :=
  (given_eq_iff (throwsAt 9) 0 lineHead.toCxxType 2 moveOut [⟨7, false⟩] (.init 4096 32) 0 [] 4096
    ⟨2, [.request ⟨lineHead.alignof, 32⟩, .construct 0 4096, .construct 0 4112],
      ⟨⟨4128, 4128⟩, ⟨[⟨7, false⟩], [[7], [7]]⟩⟩⟩ rfl).2 (.inr rfl) ℕ List.sum

/-- The second of two elements is built from an rvalue that the first one was moved from. -/
theorem given_ne_of_rvalue : ¬∀ (env : Env) (T : CxxType) (count : SizeT) (F : Forwarding ℕ)
    (args : List (Arg ℕ)) (ctx : ConstructContext) (p : SizeT)
    (w' : World Event (Scope ConstructContext (Pack ℕ))),
    placeArray env T count (buildForward env 0 F) ⟨0, [], ⟨ctx, ⟨args, []⟩⟩⟩ = .ok p w' →
      ∀ (E : Type) (element : List ℕ → E), w'.vars.args.given.map element =
        List.replicate count.toNat (element (args.map Arg.value)) := by
  intro hall
  have hgiven := hall (throwsAt 9) lineHead.toCxxType 2 moveOut [⟨7, true⟩] (.init 4096 32) 4096
    ⟨2, [.request ⟨lineHead.alignof, 32⟩, .construct 0 4096, .construct 0 4112],
      ⟨⟨4128, 4128⟩, ⟨[⟨0, true⟩], [[7], [0]]⟩⟩⟩ rfl _ id
  exact absurd hgiven (by decide)

end Saco.Build
