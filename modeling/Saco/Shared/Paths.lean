import Saco.Build.Passes
import Saco.Layout.Offsets
import Saco.Shared.BuildShared

/-!
# The two paths of `build_shared`

The measured size decides whether `build_unique` is taken or a `shared_buffer`. `paths_same_layout`:
every size fits the path that it takes, and the objects have the same layout on both, as far as the
alignments allow it.
-/

namespace Saco.Shared
open Bump Build Exec Layout

variable {S : Type} {env : Env} {T : CxxType} {children : List Plan} {w w₁ : World Event S}
  {size : SizeT}

/-! ## The measured size -/

/-- A measure pass that completes returns the `required_size` of the requests of the plan. -/
lemma measure_ok (h : measure env T children w = .ok size w₁) :
    ∃ mctx, MeasureContext.allocateAll env.cfg ((Plan.place T children).requests false)
      (.init env.cfg) = .ok mctx ∧ mctx.requiredSize = size := by
  have hrun : Meets (withVars (⟨.init env.cfg, ()⟩ : Scope MeasureContext Unit)
      ((Plan.place T children).run env 0) : Program Abort Event S (SizeT × Scope MeasureContext Unit))
      fun _ r _ _ => ∀ a, r = .ok a → MeasureContext.allocateAll env.cfg
        ((Plan.place T children).requests false) (.init env.cfg) = .ok a.2.ctx := by
    refine .withVars (answers_run 0 (.place T children)) ?_ fun _ _ _ _ _ => nofun
    rintro s p es s' ⟨hctx, -⟩ a ha
    cases ha
    exact answerAll_measure.symm.trans hctx
  obtain ⟨r, w₂, hplace, hreturn⟩ := bind_ok h
  obtain ⟨es, -, hctx⟩ := hrun.ok hplace
  cases hreturn
  exact ⟨r.2.ctx, hctx r rfl, rfl⟩

/-- The dispatcher selects the type of the buffer. -/
lemma alloc_of_dispatch {N : SizeT} (h : dispatch env.cfg size = .ok N) :
    (alloc env size : Program Abort Event S SharedBuffer) = sharedBufferFactory env N := by
  have happly : (apply fun vars => (dispatch env.cfg size).map (·, vars) :
      Program Abort Event S SizeT) = pure N := by
    funext w
    rw [apply, h]
    rfl
  rw [alloc, happly, pure_bind]

/-! ## Plans of typed requests -/

/-- The builder of the head makes the other requests one after the other. -/
def requestPlans (ts : List TypedRequest) : List Plan := ts.map Plan.allocateSpace

/-- The passes over these plans issue the requests themselves. -/
lemma requests_headed {cfg : Config} {T : HeadType cfg} {ts : List TypedRequest} {construct : Bool} :
    (Plan.place T.toCxxType (requestPlans ts)).requests construct =
      (headedBy T ts).map TypedRequest.request := by
  have hall : requestsAll construct (requestPlans ts) = ts.map TypedRequest.request := by
    induction ts with
    | nil => rw [requestPlans, List.map_nil, List.map_nil, requestsAll]
    | cons t ts ih =>
      rw [requestPlans] at ih ⊢
      rw [List.map_cons, requestsAll, ih, Plan.requests]
      rfl
  rw [Plan.requests, hall]
  rfl

/-- The measured size is that of the requests. -/
lemma size_of_measure {T : HeadType env.cfg} {ts : List TypedRequest} {mctx : MeasureContext}
    (measures : Measures T ts mctx)
    (hmeasure : measure env T.toCxxType (requestPlans ts) w = .ok size w₁) :
    mctx.requiredSize = size := by
  obtain ⟨mctx', hmctx', hsize⟩ := measure_ok hmeasure
  rw [requests_headed] at hmctx'
  obtain rfl : mctx = mctx' := Except.ok.inj (measures.run.symm.trans hmctx')
  exact hsize

/-- `build_unique` is taken. -/
def TakesUnique (S : Type) (env : Env) (T : CxxType) (children : List Plan) (r : SizeT) : Prop :=
  maxSize < r ∧ ∀ (w w₁ : World Event S) size, measure env T children w = .ok size w₁ →
    size = r ∧ buildShared env T children w = convertUnique env T children w₁

/-- No assertion of the dispatcher fires, and the object is built in a `shared_buffer<N>`. -/
def TakesBuffer (S : Type) (env : Env) (T : CxxType) (children : List Plan) (r N : SizeT) : Prop :=
  0 < r ∧ r ≤ maxSize ∧ dispatch env.cfg r = .ok N ∧
    ∀ (w w₁ : World Event S) size, measure env T children w = .ok size w₁ →
      size = r ∧ buildShared env T children w =
        (do let sp ← sharedBufferFactory env N; buildIn env T children r sp) w₁

/-- The construct pass over `r` bytes at `base` stays in bounds, with the head at `base`. -/
def Fits {cfg : Config} (T : HeadType cfg) (ts : List TypedRequest) (base r : SizeT) : Prop :=
  ∃ as cctx, ConstructContext.allocateAll cfg ((headedBy T ts).map TypedRequest.request)
      (.init base r) = .ok (as, cctx) ∧
    as.head? = some base ∧
    Laid base.toNat (base.toNat + r.toNat) ((headedBy T ts).map TypedRequest.block)
      (as.map BitVec.toNat)

variable {cfg : Config} {ts : List TypedRequest} {mctx : MeasureContext}

/-- The measured size is never zero. -/
lemma requiredSize_pos {T : HeadType cfg} (measures : Measures T ts mctx) : 0 < mctx.requiredSize := by
  have hhead : T.block ∈ (headedBy T ts).map TypedRequest.block := List.mem_cons_self ..
  have hfin := align_le_finish_headed hhead
  have hpos := T.block.align_pos
  rw [BitVec.lt_def, measures.requiredSize, Estimate.size, Estimate.offset_run]
  exact Nat.lt_of_lt_of_le hpos (hfin.trans (Nat.le_add_right _ _))

/-- Sizes above the maximum take `build_unique`. -/
lemma takes_unique {T : HeadType env.cfg} (measures : Measures T ts mctx)
    (hlarge : maxSize < mctx.requiredSize) :
    TakesUnique S env T.toCxxType (requestPlans ts) mctx.requiredSize := by
  refine ⟨hlarge, fun w w₁ size hmeasure => ?_⟩
  obtain rfl := size_of_measure measures hmeasure
  exact ⟨rfl, by rw [buildShared_of_measure hmeasure, if_pos hlarge]⟩

/-- The other sizes take a buffer. -/
lemma takes_buffer {T : HeadType env.cfg} {N : SizeT} (measures : Measures T ts mctx)
    (hsmall : ¬maxSize < mctx.requiredSize) (hN : dispatch env.cfg mctx.requiredSize = .ok N) :
    TakesBuffer S env T.toCxxType (requestPlans ts) mctx.requiredSize N := by
  refine ⟨requiredSize_pos measures, BitVec.not_lt.1 hsmall, hN, fun w w₁ size hmeasure => ?_⟩
  obtain rfl := size_of_measure measures hmeasure
  refine ⟨rfl, ?_⟩
  rw [buildShared_of_measure hmeasure, if_neg hsmall, embed, alloc_of_dispatch hN]

/-- Every size fits the path that it takes. The offsets of the requests only depend on the base modulo
the largest requested alignment, so if none is over-aligned they are the offsets of the measure pass in
every block that either path uses. -/
theorem paths_same_layout (env : Env) (T : HeadType env.cfg) (ts : List TypedRequest)
    (rep : Representable env.cfg ((headedBy T ts).map TypedRequest.block)) :
    ∃ mctx offsets,
      MeasureContext.allocateAll env.cfg ((headedBy T ts).map TypedRequest.request) (.init env.cfg) =
        .ok mctx ∧
      MeasureContext.offsets env.cfg ((headedBy T ts).map TypedRequest.request) (.init env.cfg) =
        .ok offsets ∧
      (TakesUnique S env T.toCxxType (requestPlans ts) mctx.requiredSize ∨
        ∃ N, TakesBuffer S env T.toCxxType (requestPlans ts) mctx.requiredSize N ∧
          mctx.requiredSize ≤ N ∧
          ∀ storage : SizeT, env.cfg.maxNewAlignment.value.toNat ∣ storage.toNat →
            storage.toNat + mctx.requiredSize.toNat < 2 ^ 64 → Fits T ts storage mctx.requiredSize) ∧
      (∀ base base' size size' as as' cctx cctx',
        base.toNat ≡ base'.toNat [MOD requestedAlignment ((headedBy T ts).map TypedRequest.request)] →
        ConstructContext.allocateAll env.cfg ((headedBy T ts).map TypedRequest.request)
          (.init base size) = .ok (as, cctx) →
        ConstructContext.allocateAll env.cfg ((headedBy T ts).map TypedRequest.request)
          (.init base' size') = .ok (as', cctx') →
        as.map (· - base) = as'.map (· - base')) ∧
      (requestedAlignment ((headedBy T ts).map TypedRequest.request) ≤
          env.cfg.maxNewAlignment.value.toNat →
        ∀ base : SizeT, allocRawAligned env.cfg mctx.requiredSize base = true ∨
            env.cfg.maxNewAlignment.value.toNat ∣ base.toNat →
          requestedAlignment ((headedBy T ts).map TypedRequest.request) ∣ base.toNat ∧
          ∀ size as cctx, ConstructContext.allocateAll env.cfg
              ((headedBy T ts).map TypedRequest.request) (.init base size) = .ok (as, cctx) →
            as.map (· - base) = offsets) := by
  obtain ⟨mctx, measures⟩ := exists_measures rep
  have hoffsets := MeasureContext.simulates_init.offsets
    (TypedRequest.denotes_blocks (headedBy T ts)) measures.run
  have hpos := requiredSize_pos measures
  have hbase : ∀ base : SizeT, env.cfg.maxNewAlignment.value.toNat ∣ base.toNat →
      allocRawAligned env.cfg mctx.requiredSize base = true := fun _ => allocRawAligned_of_dvd
  refine ⟨mctx, _, measures.run, hoffsets, ?_, fun _ _ _ _ _ _ _ _ => offsets_congr, ?_⟩
  · by_cases hlarge : maxSize < mctx.requiredSize
    · exact .inl (takes_unique measures hlarge)
    · obtain ⟨N, hN, hle⟩ := exists_dispatch env.cfg hpos (BitVec.not_lt.1 hlarge)
      exact .inr ⟨N, takes_buffer measures hlarge hN, hle, fun storage hstorage =>
        measures.exists_layout (hbase storage hstorage)⟩
  · intro hmax base hallowed
    have hdvd := measures.requestedAlignment_dvd hmax (hallowed.elim id (hbase base))
    refine ⟨hdvd, fun size as cctx h => ?_⟩
    have hmeasured := offsets_measured measures.run hdvd h
    exact Except.ok.inj (hmeasured.symm.trans hoffsets)

/-- Four lines fit a buffer, half a page of them takes `build_unique`. In a block at address 4096 the four
lines lie at their measured offsets. -/
theorem paths_same_layout_lines :
    TakesUnique Unit (.calm debug16) lineHead.toCxxType
      (requestPlans [.array lineHead.toCxxType 127]) 2048 ∧
    (∃ N, TakesBuffer Unit (.calm debug16) lineHead.toCxxType
        (requestPlans [.array lineHead.toCxxType 3]) 64 N ∧ 64 ≤ N) ∧
      Fits lineHead [.array lineHead.toCxxType 3] 4096 64 ∧
      ∀ as cctx, ConstructContext.allocateAll debug16
        ((headedBy lineHead [.array lineHead.toCxxType 3]).map TypedRequest.request) (.init 4096 64) =
          .ok (as, cctx) → as.map (· - 4096) = [0, 16] := by
  obtain ⟨large, -, hlarge, -, hunique, -⟩ :=
    paths_same_layout (S := Unit) (.calm debug16) lineHead [.array lineHead.toCxxType 127] (by decide)
  obtain rfl : large = ⟨2048, 16, 0⟩ := Except.ok.inj (hlarge.symm.trans rfl)
  obtain ⟨mctx, offsets, hmctx, hoffsets, hpath, -, hsame⟩ :=
    paths_same_layout (S := Unit) (.calm debug16) lineHead [.array lineHead.toCxxType 3] (by decide)
  obtain rfl : mctx = ⟨64, 16, 0⟩ := Except.ok.inj (hmctx.symm.trans rfl)
  obtain rfl : offsets = [0, 16] := Except.ok.inj (hoffsets.symm.trans rfl)
  have takes_unique := hunique.resolve_right fun ⟨_, h, _⟩ => absurd h.2.1 (by decide)
  obtain ⟨N, htakes, hle, hfits⟩ := hpath.resolve_left fun h => absurd h.1 (by decide)
  obtain ⟨-, hbase⟩ := hsame (by decide) 4096 (.inr (by decide))
  exact ⟨takes_unique, ⟨N, htakes, hle⟩, hfits 4096 (by decide) (by decide), hbase 64⟩

end Saco.Shared
