import Saco.Exec.Program
import Saco.Layout.Context

/-!
# Placing objects

The templates of `include/saco/saco.h` that are instantiated with both contexts: `builder`, `place` and
`place_for_overwrite`, for single objects and for arrays. Code under `SACO_IF_CONSTRUCT_CONTEXT` tests
the member `isConstructContext` of the class `Context`.

The library calls back into its user: builders, constructors and `operator new`. An `Env` says what
these do. A builder that places other objects before it constructs its own is a `Plan`, and `Plan.run`
is the call that places the whole tree.
-/

namespace Saco.Build
open Exec Layout

/-- What memory is obtained for. The bytes that the standard library adds to a `shared_buffer<N>`, and
those of a control block, are its own affair. -/
inductive Purpose where
  | raw (size : SizeT)
  | sharedBuffer (N : SizeT)
  | controlBlock
  deriving DecidableEq

/-- What a run does to the rest of the world. The depth of an object is the number of builders that its
own builder was called from. -/
inductive Event where
  | request (q : Request)
  | construct (depth : ℕ) (address : SizeT)
  | destroy (address : SizeT)
  | obtain (address : SizeT) (purpose : Purpose)
  | free (address : SizeT)
  deriving DecidableEq

/-- How the code outside of the library behaves. The steps of user code and of `operator new` are
numbered by the clock. -/
structure Env where
  cfg : Config
  /-- whether a step throws -/
  throws : ℕ → Bool
  /-- the address that `operator new` returns -/
  operatorNew : ℕ → SizeT
  /-- where `storage` lies in a block that holds a `shared_buffer` -/
  storage : (block : SizeT) → SizeT
  /-- `alignas(MAX_NEW_ALIGNMENT)` -/
  storage_aligned : ∀ block, cfg.maxNewAlignment.value.toNat ∣ (storage block).toNat

/-- A context, and the arguments that are passed along by reference. -/
structure Scope (C A : Type) where
  ctx : C
  args : A

/-- Code that runs on a context. -/
abbrev Code (C A α : Type) := Program Abort Event (Scope C A) α

/-- What the templates use of a context. -/
class Context (C : Type) where
  isConstructContext : Bool
  allocateSpace0 : Config → (ALIGN : Layout.Alignment) → (size : SizeT) → C → Except Abort (SizeT × C)

instance : Context MeasureContext where
  isConstructContext := false
  allocateSpace0 := MeasureContext.allocateSpace0

instance : Context ConstructContext where
  isConstructContext := true
  allocateSpace0 := ConstructContext.allocateSpace0

section

variable {C A S : Type}

/-- A step of code outside of the library. -/
def mayThrow (env : Env) : Program Abort Event S Unit := do
  let _ ← tick env.throws .exception

/-- `::new (memory) T` without initialiser. -/
def defaultInit (env : Env) (depth : ℕ) (memory : SizeT) : Program Abort Event S Unit := do
  mayThrow env
  emit (.construct depth memory)

variable [Context C]

/-- The context of a scope answers a request. -/
def Scope.allocateSpace (cfg : Config) (t : TypedRequest) (s : Scope C A) :
    Except Abort (SizeT × Scope C A) := do
  let (address, ctx) ← Context.allocateSpace0 cfg t.request.ALIGN t.request.size s.ctx
  return (address, { s with ctx })

/-- `ctx.allocate_space<T>()` and `ctx.allocate_space<T>(count)`. -/
def allocateSpace (cfg : Config) (t : TypedRequest) : Code C A SizeT := do
  emit (.request t.request)
  apply (Scope.allocateSpace cfg t)

/-- A request is logged, and then the context answers it, or stops the run and stays as it is. -/
lemma meets_allocateSpace {cfg : Config} {t : TypedRequest} :
    Meets (allocateSpace cfg t : Code C A SizeT) fun s r es s' => es = [.request t.request] ∧
      Context.allocateSpace0 cfg t.request.ALIGN t.request.size s.ctx = r.map (·, s'.ctx) ∧
      s'.args = s.args ∧ ∀ e, r = .error e → s'.ctx = s.ctx := by
  have happly : Meets (apply (Scope.allocateSpace cfg t) : Code C A SizeT) fun s r es s' => es = [] ∧
      Context.allocateSpace0 cfg t.request.ALIGN t.request.size s.ctx = r.map (·, s'.ctx) ∧
      s'.args = s.args ∧ ∀ e, r = .error e → s'.ctx = s.ctx := by
    refine .apply (fun s a s' h => ?_) fun s e h => ?_
    all_goals
      rw [Scope.allocateSpace] at h
      cases hc : Context.allocateSpace0 cfg t.request.ALIGN t.request.size s.ctx
      all_goals
        rw [hc] at h
        cases h
    · exact ⟨rfl, rfl, rfl, nofun⟩
    · exact ⟨rfl, rfl, rfl, fun _ _ => rfl⟩
  exact .emitThen happly fun _ _ _ _ h => ⟨congrArg _ h.1, h.2⟩

/-- `builder<T>::build` of a builder that runs `children` and constructs its object last: behind the
construction it neither places nor throws. -/
def build (env : Env) (depth : ℕ) (children : Code C A Unit) (memory : SizeT) : Code C A SizeT := do
  children
  mayThrow env
  if Context.isConstructContext C then
    emit (.construct depth memory)
    return memory
  else
    return 0

/-- An argument, and whether `std::forward` hands it on as an rvalue. -/
@[ext]
structure Arg (V : Type) where
  value : V
  rvalue : Bool
  deriving DecidableEq

/-- What building one object does to the arguments it is built from: an rvalue may be moved from, and an
lvalue changed through a reference. How an argument is handed on does not change. -/
structure Forwarding (V : Type) where
  after : List (Arg V) → List (Arg V)
  rvalue_after : ∀ args, (after args).map Arg.rvalue = args.map Arg.rvalue

/-- The arguments of the caller, and the values that the objects built so far were given. -/
structure Pack (V : Type) where
  args : List (Arg V)
  given : List (List V)

/-- Build one object from the arguments. -/
def Pack.forward {V : Type} (F : Forwarding V) (pack : Pack V) : Pack V where
  args := F.after pack.args
  given := pack.given ++ [pack.args.map Arg.value]

/-- `builder<T>::build` of the primary template: `::new (memory) T(std::forward<Args>(args)...)`. -/
def buildForward {V : Type} (env : Env) (depth : ℕ) (F : Forwarding V) (memory : SizeT) :
    Code C (Pack V) SizeT := do
  if Context.isConstructContext C then
    mayThrow env
    apply fun s => return ((), { s with args := s.args.forward F })
    emit (.construct depth memory)
    return memory
  else
    return 0

/-- `place<T>`. -/
def place (env : Env) (T : CxxType) (builder : SizeT → Code C A SizeT) : Code C A SizeT := do
  let memory ← allocateSpace env.cfg (.object T)
  builder memory

/-- `place_for_overwrite<T>`. -/
def placeForOverwrite (env : Env) (depth : ℕ) (T : CxxType) : Code C A SizeT := do
  let memory ← allocateSpace env.cfg (.object T)
  if Context.isConstructContext C then
    defaultInit env depth memory
    return memory
  else
    return 0

/-- The addresses `&ts[0], .., &ts[count - 1]`. -/
def elements (T : CxxType) (count ts : SizeT) : List SizeT :=
  (List.range count.toNat).map fun i => ts + T.sizeof * BitVec.ofNat 64 i

/-- As many addresses as elements. -/
@[simp] lemma length_elements {T : CxxType} {count ts : SizeT} :
    (elements T count ts).length = count.toNat := by
  rw [elements, List.length_map, List.length_range]

/-- `place<T[]>`. -/
def placeArray (env : Env) (T : CxxType) (count : SizeT) (builder : SizeT → Code C A SizeT) :
    Code C A SizeT := do
  if count = 0 then
    return 0
  let memory ← allocateSpace env.cfg (.array T count)
  if Context.isConstructContext C then
    forM (elements T count memory) fun address => do
      let _ ← builder address
    return memory
  else
    return 0

/-- `place_for_overwrite<T[]>`. -/
def placeForOverwriteArray (env : Env) (depth : ℕ) (T : CxxType) (count : SizeT) :
    Code C A SizeT := do
  if count = 0 then
    return 0
  let memory ← allocateSpace env.cfg (.array T count)
  if Context.isConstructContext C then
    forM (elements T count memory) (defaultInit env depth)
    return memory
  else
    return 0

end

/-! ## Plans -/

/-- The calls that a builder makes on its context. The `children` of a `place` are the calls of its
builder; those of a `placeArray` are the calls of the builder of each element. The object itself is
constructed behind them. -/
inductive Plan where
  | place (T : CxxType) (children : List Plan)
  | placeForOverwrite (T : CxxType)
  | placeArray (T : CxxType) (count : SizeT) (children : List Plan)
  | placeForOverwriteArray (T : CxxType) (count : SizeT)
  | allocateSpace (t : TypedRequest)

variable {C A : Type} [Context C]

mutual

/-- Make one call. -/
def Plan.run (env : Env) (depth : ℕ) : Plan → Code C A SizeT
  | .place T children => Build.place env T (build env depth (runAll env (depth + 1) children))
  | .placeForOverwrite T => Build.placeForOverwrite env depth T
  | .placeArray T count children =>
    Build.placeArray env T count (build env depth (runAll env (depth + 1) children))
  | .placeForOverwriteArray T count => Build.placeForOverwriteArray env depth T count
  | .allocateSpace t => Build.allocateSpace env.cfg t

/-- Make the calls in order. The code of the builder around them may throw. -/
def runAll (env : Env) (depth : ℕ) : List Plan → Code C A Unit
  | [] => return ()
  | plan :: plans => do
    mayThrow env
    let _ ← plan.run env depth
    runAll env depth plans

end

end Saco.Build
