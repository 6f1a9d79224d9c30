import Saco.Layout.Platform

/-!
# The two contexts

`align`, `align_and_add`, `measure_context` and `construct_context` of `include/saco/saco.h`, on 64-bit
words and with every assertion. Both contexts answer `allocate_space` requests: the measure pass adds up
the space, the construct pass hands out addresses of a block.

`MeasureContext.allocateAll` and `ConstructContext.allocateAll` answer a list of requests in order.
-/

namespace Saco.Layout

/-- `align<ALIGN>`. -/
def align (ALIGN : Alignment) (refOffset : SizeT) : SizeT :=
  let mask := ALIGN.value - 1
  (refOffset + mask) &&& ~~~mask

/-- `align_and_add<ALIGN>`: the aligned offset, and the new value of `ref_offset`. -/
def alignAndAdd (ALIGN : Alignment) (refOffset size : SizeT) : SizeT × SizeT :=
  let aligned := align ALIGN refOffset
  (aligned, aligned + size)

/-- What reaches `allocate_space_0<ALIGN>(size)`. -/
structure Request where
  ALIGN : Alignment
  size : SizeT
  deriving DecidableEq

/-! ## `measure_context` -/

/-- `measure_context`. -/
structure MeasureContext where
  mOffset : SizeT
  mFreeAlignment : SizeT
  mExtraPadding : SizeT
  deriving DecidableEq

namespace MeasureContext

/-- The default member initialisers. -/
def init (cfg : Config) : MeasureContext where
  mOffset := 0
  mFreeAlignment := cfg.maxNewAlignment.value
  mExtraPadding := 0

/-- `required_size`. -/
def requiredSize (ctx : MeasureContext) : SizeT := ctx.mOffset + ctx.mExtraPadding

/-- The local `old_offset` of `allocate_over_aligned`. -/
def oldOffset (ctx : MeasureContext) : SizeT :=
  let faMask := ctx.mFreeAlignment - 1
  (ctx.mOffset + faMask) &&& ~~~faMask

/-- The local `padding` of `allocate_over_aligned`: what the increased `m_offset` accounts for. -/
def padding (ALIGN : Alignment) (ctx : MeasureContext) : SizeT :=
  align ALIGN ctx.oldOffset - ctx.oldOffset

/-- `allocate_over_aligned<ALIGN>`. -/
def allocateOverAligned (cfg : Config) (ALIGN : Alignment) (size : SizeT) (ctx : MeasureContext) :
    Except Abort MeasureContext := do
  sacoAssert cfg "head must not be over-aligned" (ctx.mOffset != 0)
  let (_, mOffset) := alignAndAdd ALIGN ctx.oldOffset size
  -- amount of extra padding that may be required to achieve `ALIGN`
  let extraPadding := ALIGN.value - ctx.padding ALIGN - ctx.mFreeAlignment
  return {
    mOffset
    mFreeAlignment := ALIGN.value
    mExtraPadding := ctx.mExtraPadding + extraPadding }

/-- `allocate_space_1<ALIGN>`. -/
def allocateSpace1 (cfg : Config) (ALIGN : Alignment) (size : SizeT) (ctx : MeasureContext) :
    Except Abort MeasureContext :=
  if ALIGN.value ≤ ctx.mFreeAlignment then
    return { ctx with mOffset := (alignAndAdd ALIGN ctx.mOffset size).2 }
  else
    ctx.allocateOverAligned cfg ALIGN size

/-- `allocate_space_0<ALIGN>`. The measure pass has no memory to return. -/
def allocateSpace0 (cfg : Config) (ALIGN : Alignment) (size : SizeT) (ctx : MeasureContext) :
    Except Abort (SizeT × MeasureContext) := do
  let ctx ←
    if ALIGN.value ≤ cfg.maxNewAlignment.value then
      pure { ctx with mOffset := (alignAndAdd ALIGN ctx.mOffset size).2 }
    else
      ctx.allocateSpace1 cfg ALIGN size
  return (0, ctx)

/-- Answers the requests in order. -/
def allocateAll (cfg : Config) : List Request → MeasureContext → Except Abort MeasureContext
  | [], ctx => return ctx
  | q :: qs, ctx => do
    let (_, ctx) ← ctx.allocateSpace0 cfg q.ALIGN q.size
    allocateAll cfg qs ctx

end MeasureContext

/-! ## `construct_context` -/

/-- `construct_context`. -/
structure ConstructContext where
  mCurrent : SizeT
  mEnd : SizeT
  deriving DecidableEq

namespace ConstructContext

/-- The constructor `construct_context(mem, size)`. -/
def init (mem size : SizeT) : ConstructContext where
  mCurrent := mem
  mEnd := mem + size

/-- `allocate_space_0<ALIGN>`. -/
def allocateSpace0 (cfg : Config) (ALIGN : Alignment) (size : SizeT) (ctx : ConstructContext) :
    Except Abort (SizeT × ConstructContext) := do
  let (address, mCurrent) := alignAndAdd ALIGN ctx.mCurrent size
  sacoAssert cfg "m_current <= m_end" (mCurrent ≤ ctx.mEnd)
  return (address, { ctx with mCurrent })

/-- Answers the requests in order; the addresses are returned in the same order. -/
def allocateAll (cfg : Config) :
    List Request → ConstructContext → Except Abort (List SizeT × ConstructContext)
  | [], ctx => return ([], ctx)
  | q :: qs, ctx => do
    let (address, ctx) ← ctx.allocateSpace0 cfg q.ALIGN q.size
    let (addresses, ctx) ← allocateAll cfg qs ctx
    return (address :: addresses, ctx)

/-- A request that is answered gets the current address, aligned. -/
lemma address_of_allocateSpace0 {cfg : Config} {ALIGN : Alignment} {size p : SizeT}
    {ctx ctx' : ConstructContext} (h : ctx.allocateSpace0 cfg ALIGN size = .ok (p, ctx')) :
    p = align ALIGN ctx.mCurrent := by
  change (sacoAssert cfg "m_current <= m_end" (align ALIGN ctx.mCurrent + size ≤ ctx.mEnd) >>= fun _ =>
    .ok (align ALIGN ctx.mCurrent, _)) = .ok (p, ctx') at h
  cases hassert : sacoAssert cfg "m_current <= m_end"
      (align ALIGN ctx.mCurrent + size ≤ ctx.mEnd) with
  | error e =>
    rw [hassert] at h
    cases h
  | ok u =>
    rw [hassert] at h
    cases h
    rfl

end ConstructContext

/-! ## Typed requests -/

/-- A call of `allocate_space<T>`, with or without a count. -/
inductive TypedRequest where
  | object (T : CxxType)
  | array (T : CxxType) (count : SizeT)

namespace TypedRequest

/-- What `allocate_space<T>()` and `allocate_space<T>(count)` pass to `allocate_space_0`. -/
def request : TypedRequest → Request
  | object T => ⟨T.alignof, T.sizeof⟩
  | array T count => ⟨T.alignof, T.sizeof * count⟩

/-- The extent that the caller is going to use. -/
def extent : TypedRequest → ℕ
  | object T => T.sizeof.toNat
  | array T count => T.sizeof.toNat * count.toNat

end TypedRequest

end Saco.Layout
