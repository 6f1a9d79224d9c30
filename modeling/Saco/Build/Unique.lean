import Saco.Build.Place

/-!
# `build_unique`

`alloc_raw`, `free_raw` and `saco_delete`, and the function `build_unique` of `include/saco/saco.h`. The
scope of an owner that is still responsible when an exception passes is an `unwinding`.

The object that is built is the root of a plan, at depth zero.
-/

namespace Saco.Build
open Exec Layout

variable {S : Type}

/-- `SACO_ASSERT` in code that has no context. -/
def check (cfg : Config) (expr : String) (holds : Bool) : Program Abort Event S Unit :=
  apply fun s => do
    sacoAssert cfg expr holds
    return ((), s)

/-- `::operator new`. -/
def operatorNew (env : Env) (purpose : Purpose) : Program Abort Event S SizeT := do
  let time ← tick env.throws .exception
  emit (.obtain (env.operatorNew time) purpose)
  return env.operatorNew time

/-- `alloc_raw`. -/
def allocRaw (env : Env) (size : SizeT) : Program Abort Event S SizeT := do
  let p ← operatorNew env (.raw size)
  check env.cfg "alignment of operator new" (allocRawAligned env.cfg size p)
  return p

/-- `free_raw`. -/
def freeRaw (mem : SizeT) : Program Abort Event S Unit :=
  emit (.free mem)

/-- `saco_delete`. -/
def sacoDelete (p : SizeT) : Program Abort Event S Unit := do
  emit (.destroy p)
  freeRaw p

/-- The first part of `build_unique` and of `build_shared`: a measure pass and its `required_size`. -/
def measure (env : Env) (T : CxxType) (children : List Plan) : Program Abort Event S SizeT := do
  let (_, mctx) ← withVars (⟨.init env.cfg, ()⟩ : Scope MeasureContext Unit)
    ((Plan.place T children).run env 0)
  return mctx.ctx.requiredSize

/-- The construct pass over `size` bytes at `mem`. -/
def construct (env : Env) (T : CxxType) (children : List Plan) (mem size : SizeT) :
    Program Abort Event S SizeT := do
  let (p, _) ← withVars (⟨.init mem size, ()⟩ : Scope ConstructContext Unit)
    ((Plan.place T children).run env 0)
  return p

/-- `build_unique`. -/
def buildUnique (env : Env) (T : CxxType) (children : List Plan) : Program Abort Event S SizeT := do
  let requiredSize ← measure env T children
  -- allocate raw memory
  let rawMemory ← allocRaw env requiredSize
  -- construct; until `release` the memory belongs to `raw_memory`
  let obj ← unwinding Abort.unwinds (freeRaw rawMemory)
    (construct env T children rawMemory requiredSize)
  -- from here on it belongs to `obj`
  unwinding Abort.unwinds (sacoDelete obj) (check env.cfg "obj.get() == rmem" (obj == rawMemory))
  return obj

end Saco.Build
