import Saco.Build.Unique
import Saco.Shared.Dispatcher

/-!
# `build_shared`

The definitions of `include/saco/shared_ptr.h`. A `std::shared_ptr` owns either a `shared_buffer`, in
which the object is embedded, or an object of `build_unique` together with a control block; `Managed`
says which, and `Managed.dispose` is what happens when the last owner goes.
-/

namespace Saco.Shared
open Build Exec Layout

variable {S : Type}

/-- `shared_buffer_header`. -/
structure SharedBufferHeader where
  dtorFn : Option (SizeT → List Event)
  object : SizeT

/-- The constructor `shared_buffer_header(object)`. -/
def SharedBufferHeader.init (object : SizeT) : SharedBufferHeader where
  dtorFn := none
  object := object

/-- `~shared_buffer_header`. -/
def SharedBufferHeader.destroy (header : SharedBufferHeader) : List Event :=
  match header.dtorFn with
  | some dtorFn => dtorFn header.object
  | none => []

/-- `call_dtor<T>`. -/
def callDtor (p : SizeT) : List Event := [.destroy p]

/-- `set_dtor_fn_impl<HAS_TRIVIAL_DTOR>::set_dtor_fn<T>`. -/
def setDtorFn (HAS_TRIVIAL_DTOR : Bool) (header : SharedBufferHeader) : SharedBufferHeader :=
  if HAS_TRIVIAL_DTOR then
    header
  else
    { header with dtorFn := some callDtor }

/-- A `shared_buffer<N>`, and the block of `std::make_shared` that it is in. -/
structure SharedBuffer where
  N : SizeT
  block : SizeT
  storage : SizeT

/-- The header that the constructor of `shared_buffer<N>` leaves. -/
def SharedBuffer.header (sp : SharedBuffer) : SharedBufferHeader := .init sp.storage

/-- What a `std::shared_ptr` of the library owns. -/
inductive Managed where
  | buffer (sp : SharedBuffer) (header : SharedBufferHeader)
  | unique (obj control : SizeT)

/-- The managed object is destroyed or the deleter is run, then the control block is freed. -/
def Managed.dispose : Managed → List Event
  | .buffer sp header => header.destroy ++ [.free sp.block]
  | .unique obj control => [.destroy obj, .free obj, .free control]

/-- The pointer that the handles hold. -/
def Managed.get : Managed → SizeT
  | .buffer _ header => header.object
  | .unique obj _ => obj

/-- `shared_buffer_factory<OBJECT_SIZE>`. -/
def sharedBufferFactory (env : Env) (OBJECT_SIZE : SizeT) : Program Abort Event S SharedBuffer := do
  let N := if 0 < OBJECT_SIZE then OBJECT_SIZE else 1
  let block ← operatorNew env (.sharedBuffer N)
  return { N, block, storage := env.storage block }

/-- `shared_alloc_impl::alloc`. -/
def alloc (env : Env) (s : SizeT) : Program Abort Event S SharedBuffer := do
  let OBJECT_SIZE ← apply fun vars => (dispatch env.cfg s).map (·, vars)
  sharedBufferFactory env OBJECT_SIZE

/-- `std::shared_ptr<T>(std::unique_ptr<T, saco_delete<T>>)`. If there is no memory for the control block
the `unique_ptr` still owns the object. -/
def convert (env : Env) (obj : SizeT) : Program Abort Event S Managed := do
  let control ← unwinding Abort.unwinds (sacoDelete obj) (operatorNew env .controlBlock)
  return .unique obj control

/-- `build_shared`. -/
def buildShared (env : Env) (T : CxxType) (children : List Plan) : Program Abort Event S Managed := do
  let allocSize ← measure env T children
  -- check size limit & allocate memory
  if maxSize < allocSize then
    let obj ← buildUnique env T children
    convert env obj
  else
    let sp ← alloc env allocSize
    -- construct
    let object ← unwinding Abort.unwinds (forM (Managed.buffer sp sp.header).dispose emit)
      (construct env T children sp.header.object allocSize)
    let header := setDtorFn T.hasVirtualDestructor { sp.header with object }
    unwinding Abort.unwinds (forM (Managed.buffer sp header).dispose emit)
      (check env.cfg "sp->object == original_address" (header.object == sp.header.object))
    return .buffer sp header

/-! ## The two paths -/

/-- For a large object. -/
def convertUnique (env : Env) (T : CxxType) (children : List Plan) : Program Abort Event S Managed := do
  let obj ← buildUnique env T children
  convert env obj

/-- For an object that a `shared_buffer` holds, once there is a buffer. -/
def buildIn (env : Env) (T : CxxType) (children : List Plan) (size : SizeT) (sp : SharedBuffer) :
    Program Abort Event S Managed := do
  let object ← unwinding Abort.unwinds (forM (Managed.buffer sp sp.header).dispose emit)
    (construct env T children sp.header.object size)
  let header := setDtorFn T.hasVirtualDestructor { sp.header with object }
  unwinding Abort.unwinds (forM (Managed.buffer sp header).dispose emit)
    (check env.cfg "sp->object == original_address" (header.object == sp.header.object))
  return .buffer sp header

/-- The path through a `shared_buffer`. -/
def embed (env : Env) (T : CxxType) (children : List Plan) (size : SizeT) :
    Program Abort Event S Managed := do
  let sp ← alloc env size
  buildIn env T children size sp

variable {env : Env} {T : CxxType} {children : List Plan}

/-- The measured size selects the path. -/
lemma buildShared_eq :
    (buildShared env T children : Program Abort Event S Managed) = (do
      let size ← measure env T children
      if maxSize < size then convertUnique env T children else embed env T children size) :=
  rfl

/-- Where a run goes once it has measured. -/
lemma buildShared_of_measure {w w₁ : World Event S} {size : SizeT}
    (h : measure env T children w = .ok size w₁) :
    (buildShared env T children : Program Abort Event S Managed) w =
      if maxSize < size then convertUnique env T children w₁ else embed env T children size w₁ := by
  rw [buildShared_eq]
  change EStateM.bind _ _ w = _
  simp only [EStateM.bind, h]
  split
  case isTrue => rfl
  case isFalse => rfl

end Saco.Shared
