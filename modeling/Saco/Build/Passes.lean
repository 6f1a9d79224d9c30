import Saco.Build.Requests
import Saco.Build.Throws
import Saco.Layout.Block

/-!
# When the two passes agree

In the measure pass `place<T[]>` does not run the builder of its elements. `passes_agree_iff`: the two
passes over a plan issue the same requests if and only if no such builder issues any (`Plan.flat`). The
construct pass of `build_unique` then never moves `m_current` past `m_end` if, in addition, the sums of
the measure pass do not wrap.

Sums that wrap may escape the comparison of `m_current` with `m_end`, but only where a request is as
large as what the address space leaves above the block. The exact end of the requests does not escape
(`staysInside_iff`).
-/

namespace Saco.Build
open Bump Exec Layout

variable {C : Type} [Context C] {cfg : Config}

/-- Calls that issue no request. -/
def Plan.silent : Plan → Bool
  | .placeArray _ count _ => count == 0
  | .placeForOverwriteArray _ count => count == 0
  | _ => false

mutual

/-- In every array that is not empty, the builder of the elements issues no request. -/
def Plan.flat : Plan → Bool
  | .place _ children => flatAll children
  | .placeArray _ count children => count == 0 || children.all Plan.silent
  | _ => true

def flatAll : List Plan → Bool
  | [] => true
  | plan :: plans => plan.flat && flatAll plans

end

variable {construct : Bool} {plan : Plan} {plans : List Plan}

/-- Silent calls are those without a request. -/
lemma requests_eq_nil_iff : plan.requests construct = [] ↔ plan.silent = true := by
  cases plan with
  | place T children => simp [Plan.requests, Plan.silent]
  | placeForOverwrite T => simp [Plan.requests, Plan.silent]
  | placeArray T count children => simp [Plan.requests, Plan.silent]
  | placeForOverwriteArray T count => simp [Plan.requests, Plan.silent]
  | allocateSpace t => simp [Plan.requests, Plan.silent]

/-- Several calls issue no request when all of them are silent. -/
lemma requestsAll_eq_nil_iff (construct : Bool) :
    requestsAll construct plans = [] ↔ plans.all Plan.silent = true := by
  induction plans with
  | nil => simp [requestsAll]
  | cons plan plans ih => simp [requestsAll, requests_eq_nil_iff, ih]

mutual

/-- The measure pass leaves out requests of the construct pass, and adds none. -/
lemma requests_sublist : (plan : Plan) → (plan.requests false).Sublist (plan.requests true)
  | .place T children => by
    rw [Plan.requests, Plan.requests]
    exact (requestsAll_sublist children).cons_cons _
  | .placeForOverwrite T => by
    rw [Plan.requests, Plan.requests]
  | .placeArray T count children => by
    rw [Plan.requests, Plan.requests]
    split
    · exact .slnil
    · exact (List.nil_sublist _).cons_cons _
  | .placeForOverwriteArray T count => by
    rw [Plan.requests, Plan.requests]
  | .allocateSpace t => by
    rw [Plan.requests, Plan.requests]

/-- The measure pass over several calls leaves out requests, and adds none. -/
lemma requestsAll_sublist : (plans : List Plan) →
    (requestsAll false plans).Sublist (requestsAll true plans)
  | [] => by
    rw [requestsAll, requestsAll]
  | plan :: plans => by
    rw [requestsAll, requestsAll]
    exact (requests_sublist plan).append (requestsAll_sublist plans)

end

/-- Sublists that are equal after appending are equal piece by piece. -/
lemma append_eq_iff_of_sublist {γ : Type} {xs xs' ys ys' : List γ} (hx : xs.Sublist xs')
    (hy : ys.Sublist ys') : xs ++ ys = xs' ++ ys' ↔ xs = xs' ∧ ys = ys' := by
  refine ⟨fun h => ?_, fun ⟨h, h'⟩ => by rw [h, h']⟩
  have hlen := congrArg List.length h
  have hxle := hx.length_le
  have hyle := hy.length_le
  rw [List.length_append, List.length_append] at hlen
  exact ⟨hx.eq_of_length (by omega), hy.eq_of_length (by omega)⟩

mutual

/-- The passes agree on a plan when it is flat, and only then. -/
lemma requests_eq_iff : (plan : Plan) →
    (plan.requests false = plan.requests true ↔ plan.flat = true)
  | .place T children => by
    rw [Plan.requests, Plan.requests, Plan.flat, List.cons_inj_right]
    exact requestsAll_eq_iff children
  | .placeForOverwrite T => by
    simp [Plan.requests, Plan.flat]
  | .placeArray T count children => by
    rw [Plan.requests, Plan.requests, Plan.flat]
    by_cases hcount : count = 0
    · simp [hcount]
    · have hpos : count.toNat ≠ 0 := Arith.toNat_ne_zero hcount
      have hfalse : (count == 0) = false := by simpa using hcount
      rw [if_neg hcount, if_neg hcount, List.cons_inj_right, if_neg nofun, if_pos rfl, hfalse,
        Bool.false_or, ← requestsAll_eq_nil_iff true, eq_comm, List.flatten_eq_nil_iff]
      exact ⟨fun h => h _ (List.mem_replicate.2 ⟨hpos, rfl⟩),
        fun h xs hxs => (List.eq_of_mem_replicate hxs).trans h⟩
  | .placeForOverwriteArray T count => by
    simp [Plan.requests, Plan.flat]
  | .allocateSpace t => by
    simp [Plan.requests, Plan.flat]

/-- The passes agree on calls that are all flat. -/
lemma requestsAll_eq_iff : (plans : List Plan) →
    (requestsAll false plans = requestsAll true plans ↔ flatAll plans = true)
  | [] => by
    simp [requestsAll, flatAll]
  | plan :: plans => by
    rw [requestsAll, requestsAll, flatAll, Bool.and_eq_true, ← requests_eq_iff plan,
      ← requestsAll_eq_iff plans]
    exact append_eq_iff_of_sublist (requests_sublist plan) (requestsAll_sublist plans)

end

/-! ## Runs without exceptions -/

/-- Nothing throws. -/
def Env.calm (cfg : Config) : Env where
  cfg
  throws _ := false
  operatorNew _ := 0
  storage _ := 0
  storage_aligned _ := dvd_zero _

/-- A run of the plan on a fresh log. -/
def Plan.start (cfg : Config) (plan : Plan) (ctx : C) :
    EStateM.Result Abort (World Event (Scope C Unit)) SizeT :=
  plan.run (.calm cfg) 0 ⟨0, [], ⟨ctx, ()⟩⟩

/-- The requests that the plan issues on a context. -/
def Plan.issued (cfg : Config) (plan : Plan) (ctx : C) : List Request :=
  requestsIn (final (plan.start cfg ctx)).log

/-- No assertion stops the run, and it leaves the context `ctx'`. -/
def Plan.Completes (cfg : Config) (plan : Plan) (ctx ctx' : C) : Prop :=
  ∃ p w, plan.start cfg ctx = .ok p w ∧ w.vars.ctx = ctx'

/-- A run on a fresh log answers the requests of its pass. -/
lemma answers_start : Meets (plan.run (.calm cfg) 0 : Code C Unit SizeT)
    (Answers (.calm cfg) (plan.requests (Context.isConstructContext C))) :=
  answers_run 0 plan

/-- A run completes when its requests are answered. -/
lemma Plan.completes_iff {ctx ctx' : C} : plan.Completes cfg ctx ctx' ↔
    answerAll cfg (plan.requests (Context.isConstructContext C)) ctx = .ok ctx' := by
  constructor
  · rintro ⟨p, w, hstart, rfl⟩
    obtain ⟨es, -, hctx, -⟩ := answers_start.ok hstart
    exact hctx
  · intro h
    cases hstart : plan.start cfg ctx with
    | ok p w =>
      obtain ⟨es, -, hctx, -⟩ := answers_start.ok hstart
      exact ⟨p, w, hstart, Except.ok.inj (hctx.symm.trans h)⟩
    | error e w =>
      obtain ⟨es, -, -, ⟨-, t, ht⟩ | hctx⟩ := answers_start.error hstart
      · cases ht
      · exact nomatch h.symm.trans hctx

/-- A run that completes has issued all requests of its pass. -/
lemma Plan.issued_of_completes {ctx ctx' : C} (h : plan.Completes cfg ctx ctx') :
    plan.issued cfg ctx = plan.requests (Context.isConstructContext C) := by
  obtain ⟨p, w, hstart, -⟩ := h
  obtain ⟨es, hlog, -, hes⟩ := answers_start.ok hstart
  rw [Plan.issued, hstart]
  change requestsIn w.log = _
  rw [hlog]
  exact hes

/-! ## The contexts of the library -/

/-- `measure_context` answers as in a measure pass over the requests. -/
lemma answerAll_measure {qs : List Request} {ctx : MeasureContext} :
    answerAll cfg qs ctx = MeasureContext.allocateAll cfg qs ctx := by
  induction qs generalizing ctx with
  | nil => rfl
  | cons q qs ih =>
    rw [answerAll, MeasureContext.allocateAll]
    exact bind_congr fun r => ih

/-- `construct_context` answers as in a construct pass over the requests. -/
lemma answerAll_construct {qs : List Request} {ctx : ConstructContext} :
    answerAll cfg qs ctx = (ConstructContext.allocateAll cfg qs ctx).map Prod.snd := by
  induction qs generalizing ctx with
  | nil => rfl
  | cons q qs ih =>
    rw [answerAll, ConstructContext.allocateAll]
    change (ConstructContext.allocateSpace0 cfg q.ALIGN q.size ctx >>= _) = _
    cases ConstructContext.allocateSpace0 cfg q.ALIGN q.size ctx with
    | error e => rfl
    | ok r =>
      change answerAll cfg qs r.2 = _
      rw [ih]
      change _ = Except.map _ (ConstructContext.allocateAll cfg qs r.2 >>= _)
      cases ConstructContext.allocateAll cfg qs r.2 with
      | error e => rfl
      | ok r => rfl

/-- Without assertions the measure pass completes. -/
lemma completes_measure_release : ∃ mctx, plan.Completes cfg.release (MeasureContext.init cfg) mctx := by
  obtain ⟨mctx, hmctx⟩ := MeasureContext.simulates_init.allocateAll rfl
    (Request.denotes_blocks (plan.requests false)) (.inl (rfl : cfg.release.ndebug = true))
  exact ⟨mctx, Plan.completes_iff.2 (answerAll_measure.trans hmctx)⟩

/-- Without assertions the construct pass completes. -/
lemma completes_construct_release {ctx : ConstructContext} :
    ∃ cctx, plan.Completes cfg.release ctx cctx := by
  obtain ⟨⟨as, cctx⟩, hcctx⟩ := ConstructContext.exists_allocateAll
    (Request.denotes_blocks (plan.requests true)) (Arith.eq_ofNat ctx.mCurrent)
    (.inl (rfl : cfg.release.ndebug = true))
  refine ⟨cctx, Plan.completes_iff.2 (answerAll_construct.trans ?_)⟩
  change Except.map _ (ConstructContext.allocateAll cfg.release (plan.requests true) ctx) = _
  rw [hcctx]
  rfl

/-- With assertions compiled out, so that nothing stops them early, both passes issue the same
requests. -/
def Plan.SameRequests (cfg : Config) (plan : Plan) : Prop :=
  ∀ mem size, plan.issued cfg.release (MeasureContext.init cfg) =
    plan.issued cfg.release (ConstructContext.init mem size)

/-- In every block that `operator new` can return for the measured size, `m_current` is not past `m_end`
and no assertion has failed, wherever a run of the construct pass ends or an exception ends it, in a build
with assertions or without. -/
def Plan.NeverPasses (cfg : Config) (plan : Plan) : Prop :=
  ∃ mctx, plan.Completes cfg.release (MeasureContext.init cfg) mctx ∧
    ∀ base : SizeT, base ≠ 0 → allocRawAligned cfg mctx.requiredSize base = true →
      base.toNat + mctx.requiredSize.toNat < 2 ^ 64 →
      ∀ (env : Env) (w : World Event (Scope ConstructContext Unit)), env.cfg.release = cfg.release →
        w.vars.ctx = .init base mctx.requiredSize →
        (∀ expr, outcome (plan.run env 0 w) ≠ .error (.assertion expr)) ∧
          (final (plan.run env 0 w)).vars.ctx.mCurrent ≤ (final (plan.run env 0 w)).vars.ctx.mEnd

/-- The address space has room for a block of the measured size behind the first `MAX_NEW_ALIGNMENT`
bytes, and behind this block for any one of the requests. -/
def Plan.LeavesRoom (cfg : Config) (plan : Plan) : Prop :=
  ∀ mctx, plan.Completes cfg.release (MeasureContext.init cfg) mctx → ∀ q ∈ plan.requests false,
    cfg.maxNewAlignment.value.toNat + mctx.requiredSize.toNat + q.ALIGN.value.toNat + q.size.toNat ≤
      2 ^ 64

/-- Both passes of `build_unique` complete, and at every address that passes the assertions of `alloc_raw`
for the measured size, null included, the exact end of the sizes that are requested is in the block. -/
def Plan.StaysInside (cfg : Config) (plan : Plan) : Prop :=
  ∃ mctx, plan.Completes cfg (MeasureContext.init cfg) mctx ∧
    ∀ base, allocRawAligned cfg mctx.requiredSize base = true →
      base.toNat + mctx.requiredSize.toNat < 2 ^ 64 →
      (∃ cctx, plan.Completes cfg (ConstructContext.init base mctx.requiredSize) cctx) ∧
        finish base.toNat ((plan.issued cfg
          (ConstructContext.init base mctx.requiredSize)).map Request.block) ≤
            base.toNat + mctx.requiredSize.toNat

/-- Flat plans are those that the passes agree on. -/
lemma sameRequests_iff : plan.SameRequests cfg ↔ plan.flat = true := by
  obtain ⟨mctx, hmctx⟩ : ∃ mctx, plan.Completes cfg.release (MeasureContext.init cfg) mctx :=
    completes_measure_release
  rw [Plan.SameRequests, ← requests_eq_iff plan, Plan.issued_of_completes hmctx]
  have hconstruct : ∀ mem size,
      plan.issued cfg.release (ConstructContext.init mem size) = plan.requests true := by
    intro mem size
    obtain ⟨cctx, hcctx⟩ : ∃ cctx, plan.Completes cfg.release (ConstructContext.init mem size) cctx :=
      completes_construct_release
    exact Plan.issued_of_completes hcctx
  exact ⟨fun h => (h 0 0).trans (hconstruct 0 0), fun h mem size => h.trans (hconstruct mem size).symm⟩

/-! ## The cursor -/

/-- A run of the construct pass leaves the cursor of the requests that it has answered. -/
lemma run_construct (env : Env) (w : World Event (Scope ConstructContext Unit)) (plan : Plan) :
    (∃ done, done <+: plan.requests true ∧
        answerAll env.cfg done w.vars.ctx = .ok (final (plan.run env 0 w)).vars.ctx) ∧
      ∀ e, outcome (plan.run env 0 w) = .error e →
        e = .exception ∨ answerAll env.cfg (plan.requests true) w.vars.ctx = .error e := by
  have hrun : Meets (plan.run env 0 : Code ConstructContext Unit SizeT)
      (Answers env (plan.requests true)) := answers_run 0 plan
  obtain ⟨es, -, h⟩ := hrun w
  cases hout : outcome (plan.run env 0 w) with
  | ok a =>
    rw [hout] at h
    exact ⟨⟨_, List.prefix_rfl, h.1⟩, nofun⟩
  | error e =>
    rw [hout] at h
    refine ⟨h.1, fun e' he => ?_⟩
    cases he
    exact h.2.imp_left And.left

/-- Requests that were answered have addresses. -/
lemma exists_addresses {qs : List Request} {ctx ctx' : ConstructContext}
    (h : answerAll cfg qs ctx = .ok ctx') :
    ∃ as, ConstructContext.allocateAll cfg qs ctx = .ok (as, ctx') := by
  rw [answerAll_construct] at h
  cases hall : ConstructContext.allocateAll cfg qs ctx with
  | error e =>
    rw [hall] at h
    cases h
  | ok r =>
    rw [hall] at h
    obtain rfl : r.2 = ctx' := Except.ok.inj h
    exact ⟨r.1, rfl⟩

/-- Requests that were answered moved the cursor past their blocks. -/
lemma mCurrent_answerAll {qs : List Request} {ctx ctx' : ConstructContext}
    (h : answerAll cfg qs ctx = .ok ctx') : ctx' = { ctx with
      mCurrent := BitVec.ofNat 64 (finish ctx.mCurrent.toNat (qs.map Request.block)) } := by
  obtain ⟨as, hall⟩ := exists_addresses h
  exact (ConstructContext.allocateAll_ok (Request.denotes_blocks qs) (Arith.eq_ofNat _) hall).2

/-- With assertions, requests that were answered and whose steps cannot wrap have not left the block. -/
lemma finish_le_of_answerAll {qs : List Request} {ctx ctx' : ConstructContext} {x : ℕ}
    (h : answerAll cfg qs ctx = .ok ctx') (hdebug : cfg.ndebug = false)
    (hx : ctx.mCurrent = BitVec.ofNat 64 x) (hle : x ≤ ctx.mEnd.toNat)
    (hroom : ∀ q ∈ qs, ctx.mEnd.toNat + q.ALIGN.value.toNat + q.size.toNat ≤ 2 ^ 64) :
    finish x (qs.map Request.block) ≤ ctx.mEnd.toNat := by
  obtain ⟨as, hall⟩ := exists_addresses h
  refine ConstructContext.finish_le_of_allocateAll (Request.denotes_blocks qs) hdebug hx hle ?_ hall
  intro b hb
  obtain ⟨q, hq, rfl⟩ := List.mem_map.1 hb
  exact hroom q hq

/-- Where nothing throws, a construct pass that no assertion stops completes. -/
lemma completes_of_assertions {ctx : ConstructContext}
    (h : ∀ expr, outcome (plan.start cfg ctx) ≠ .error (.assertion expr)) :
    ∃ cctx, plan.Completes cfg ctx cctx := by
  have hrelays : Relays (.calm cfg) (plan.run (.calm cfg) 0 : Code ConstructContext Unit SizeT) :=
    blames_run neverThrows_construct 0 plan
  have hcalm : outcome (plan.start cfg ctx) ≠ .error .exception :=
    hrelays.ne_error fun ⟨_, _, _, hthrows⟩ => nomatch hthrows
  cases hstart : plan.start cfg ctx with
  | ok p w => exact ⟨_, p, w, hstart, rfl⟩
  | error e w =>
    rw [hstart] at h hcalm
    cases e with
    | exception => exact absurd rfl hcalm
    | assertion expr => exact absurd rfl (h expr)

/-- A construct pass whose requests end in the block. -/
lemma run_inside {env : Env} {w : World Event (Scope ConstructContext Unit)} {base r : SizeT}
    (hw : w.vars.ctx = .init base r) (hfit : base.toNat + r.toNat < 2 ^ 64)
    (hfin : finish base.toNat ((plan.requests true).map Request.block) ≤ base.toNat + r.toNat) :
    (∀ expr, outcome (plan.run env 0 w) ≠ .error (.assertion expr)) ∧
      (final (plan.run env 0 w)).vars.ctx.mCurrent ≤ (final (plan.run env 0 w)).vars.ctx.mEnd := by
  obtain ⟨⟨done, ⟨rest, hrest⟩, hdone⟩, hwhy⟩ := run_construct env w plan
  rw [hw] at hdone hwhy
  refine ⟨fun expr hexpr => ?_, ?_⟩
  · obtain ⟨r', hr'⟩ : ∃ r', ConstructContext.allocateAll env.cfg (plan.requests true)
        (.init base r) = .ok r' :=
      ConstructContext.exists_allocateAll (Request.denotes_blocks (plan.requests true))
        ConstructContext.mCurrent_init (.inr (ConstructContext.mEnd_init hfit ▸ hfin))
    rcases hwhy _ hexpr with h | h
    · cases h
    · rw [answerAll_construct, hr'] at h
      cases h
  · have hle : finish base.toNat (done.map Request.block) ≤ base.toNat + r.toNat := by
      rw [← hrest, List.map_append, finish_append] at hfin
      exact (le_finish _ _).trans hfin
    rw [mCurrent_answerAll hdone, BitVec.le_def, ConstructContext.mEnd_init hfit]
    exact (Nat.mod_le _ _).trans hle

variable {T : HeadType cfg} {children : List Plan}

/-- The measured blocks of a plan with a head. -/
lemma blocks_place : ((Plan.place T.toCxxType children).requests false).map Request.block =
    T.block :: (requestsAll false children).map Request.block := by
  rw [Plan.requests]
  rfl

/-- What the measure pass without assertions returns. -/
lemma requiredSize_release {mctx : MeasureContext}
    (h : plan.Completes cfg.release (MeasureContext.init cfg) mctx) : mctx.Simulates
      (Estimate.run cfg.maxNewAlignment.nat ((plan.requests false).map Request.block)) :=
  have hall : MeasureContext.allocateAll cfg.release (plan.requests false)
      (MeasureContext.init cfg.release) = .ok mctx :=
    answerAll_measure.symm.trans (Plan.completes_iff.1 h)
  have sim := MeasureContext.simulates_run (Request.denotes_blocks (plan.requests false)) hall
  sim

/-- Sums that do not wrap keep the cursor in the block. -/
lemma neverPasses_of_representable (hflat : (Plan.place T.toCxxType children).flat = true)
    (rep : Representable cfg (((Plan.place T.toCxxType children).requests false).map Request.block)) :
    (Plan.place T.toCxxType children).NeverPasses cfg := by
  have heq := (requests_eq_iff _).2 hflat
  have den := Request.denotes_blocks ((Plan.place T.toCxxType children).requests false)
  obtain ⟨mctx, hmctx⟩ : ∃ mctx, (Plan.place T.toCxxType children).Completes cfg.release
    (MeasureContext.init cfg) mctx := completes_measure_release
  have hr := (requiredSize_release hmctx).toNat_requiredSize
  rw [Nat.mod_eq_of_lt rep, blocks_place] at hr
  rw [blocks_place] at den
  refine ⟨mctx, hmctx, fun base _ hbase hfit env w _ hw => run_inside hw hfit ?_⟩
  rw [← heq, blocks_place]
  exact finish_le_of_allocRawAligned den hr hbase

/-- With room above the block, no step of the construct pass wraps, and the assertion notices that the
measured size is too small. -/
lemma representable_of_neverPasses (room : (Plan.place T.toCxxType children).LeavesRoom cfg)
    (hflat : (Plan.place T.toCxxType children).flat = true)
    (never : (Plan.place T.toCxxType children).NeverPasses cfg) :
    Representable cfg (((Plan.place T.toCxxType children).requests false).map Request.block) := by
  have heq := (requests_eq_iff _).2 hflat
  have den := Request.denotes_blocks ((Plan.place T.toCxxType children).requests false)
  obtain ⟨mctx, hmctx, hnever⟩ := never
  have hroom := room mctx hmctx
  have hpos : 0 < cfg.maxNewAlignment.value.toNat := powersOfTwo.coe_pos cfg.maxNewAlignment.nat
  have hfit : cfg.maxNewAlignment.value.toNat + mctx.requiredSize.toNat < 2 ^ 64 := by
    have hhead := hroom (TypedRequest.object T.toCxxType).request (by simp [Plan.requests])
    have halign := powersOfTwo.coe_pos (TypedRequest.object T.toCxxType).request.ALIGN.nat
    rw [Alignment.coe_nat] at halign
    omega
  -- the block behind the first `MAX_NEW_ALIGNMENT` bytes, in a build with assertions
  obtain ⟨cctx, hcctx⟩ := completes_of_assertions (hnever cfg.maxNewAlignment.value
    (fun hzero => hpos.ne' (congrArg BitVec.toNat hzero)) (allocRawAligned_of_dvd dvd_rfl) hfit
    (.calm { cfg with ndebug := false }) ⟨0, [], ⟨.init _ _, ()⟩⟩ rfl rfl).1
  have hanswered : answerAll { cfg with ndebug := false } ((Plan.place T.toCxxType children).requests true)
      (.init cfg.maxNewAlignment.value mctx.requiredSize) = .ok cctx := Plan.completes_iff.1 hcctx
  have hend := ConstructContext.mEnd_init hfit
  have hfin := finish_le_of_answerAll hanswered rfl ConstructContext.mCurrent_init
    (hend ▸ Nat.le_add_right _ _) (fun q hq => hend ▸ hroom q (heq ▸ hq))
  rw [hend, ← heq] at hfin
  exact representable_of_finish_le den (requiredSize_release hmctx) dvd_rfl hfin

/-- Sums that do not wrap keep the exact end of the requests in the block. -/
lemma staysInside_of_representable (hflat : (Plan.place T.toCxxType children).flat = true)
    (rep : Representable cfg (((Plan.place T.toCxxType children).requests false).map Request.block)) :
    (Plan.place T.toCxxType children).StaysInside cfg := by
  have heq := (requests_eq_iff _).2 hflat
  have den := Request.denotes_blocks ((Plan.place T.toCxxType children).requests false)
  rw [blocks_place] at rep den
  obtain ⟨mctx, hmctx, sim⟩ := MeasureContext.exists_run den headed_block rep
  have hr : mctx.requiredSize.toNat = (Estimate.run cfg.maxNewAlignment.nat
      (T.block :: (requestsAll false children).map Request.block)).size := by
    rw [sim.toNat_requiredSize, Nat.mod_eq_of_lt rep]
  refine ⟨mctx, Plan.completes_iff.2 (answerAll_measure.trans hmctx), fun base hbase hfit => ?_⟩
  have hfin := finish_le_of_allocRawAligned den hr hbase
  rw [← blocks_place, heq] at hfin
  obtain ⟨⟨as, cctx⟩, hcctx⟩ := ConstructContext.exists_allocateAll
    (Request.denotes_blocks ((Plan.place T.toCxxType children).requests true))
    ConstructContext.mCurrent_init (.inr (ConstructContext.mEnd_init hfit ▸ hfin))
  have hcompletes : (Plan.place T.toCxxType children).Completes cfg
      (ConstructContext.init base mctx.requiredSize) cctx := by
    refine Plan.completes_iff.2 (answerAll_construct.trans ?_)
    exact congrArg (Except.map Prod.snd) hcctx
  refine ⟨⟨cctx, hcompletes⟩, ?_⟩
  rw [Plan.issued_of_completes hcompletes]
  exact hfin

/-- A block at address zero is enough to notice that a sum wrapped. -/
lemma representable_of_staysInside (hflat : (Plan.place T.toCxxType children).flat = true)
    (inside : (Plan.place T.toCxxType children).StaysInside cfg) :
    Representable cfg (((Plan.place T.toCxxType children).requests false).map Request.block) := by
  have heq := (requests_eq_iff _).2 hflat
  have den := Request.denotes_blocks ((Plan.place T.toCxxType children).requests false)
  obtain ⟨mctx, hmctx, hinside⟩ := inside
  have sim := MeasureContext.simulates_run den
    (answerAll_measure.symm.trans (Plan.completes_iff.1 hmctx))
  have hword := mctx.requiredSize.isLt
  have hzero : (0 : SizeT).toNat = 0 := rfl
  obtain ⟨⟨cctx, hcctx⟩, hfin⟩ :=
    hinside 0 (allocRawAligned_of_dvd (dvd_zero _)) (by rwa [hzero, Nat.zero_add])
  have hissued : (Plan.place T.toCxxType children).issued cfg
      (ConstructContext.init 0 mctx.requiredSize) =
        (Plan.place T.toCxxType children).requests false :=
    (Plan.issued_of_completes hcctx).trans heq.symm
  rw [hissued, hzero] at hfin
  exact representable_of_finish_le den sim (dvd_zero _) hfin

/-- The exact end of the requests stays in the block just when the sums of the measure pass do not wrap. -/
theorem staysInside_iff (cfg : Config) (T : HeadType cfg) (children : List Plan) :
    ((Plan.place T.toCxxType children).SameRequests cfg ∧
        (Plan.place T.toCxxType children).StaysInside cfg) ↔
      (Plan.place T.toCxxType children).flat = true ∧
        Representable cfg
          (((Plan.place T.toCxxType children).requests false).map Request.block) := by
  rw [sameRequests_iff]
  exact ⟨fun ⟨hflat, inside⟩ => ⟨hflat, representable_of_staysInside hflat inside⟩,
    fun ⟨hflat, rep⟩ => ⟨hflat, staysInside_of_representable hflat rep⟩⟩

/-- The passes over a plan issue the same requests just when the plan is flat. If also the sums of the
measure pass do not wrap, the construct pass of `build_unique` never moves `m_current` past `m_end`; only
then, if the address space has room above the block. -/
theorem passes_agree_iff (cfg : Config) :
    (∀ plan : Plan, plan.SameRequests cfg ↔ plan.flat = true) ∧
      ∀ (T : HeadType cfg) (children : List Plan),
        ((Plan.place T.toCxxType children).flat = true →
          Representable cfg
            (((Plan.place T.toCxxType children).requests false).map Request.block) →
          (Plan.place T.toCxxType children).NeverPasses cfg) ∧
        ((Plan.place T.toCxxType children).LeavesRoom cfg →
          ((Plan.place T.toCxxType children).SameRequests cfg ∧
              (Plan.place T.toCxxType children).NeverPasses cfg ↔
            (Plan.place T.toCxxType children).flat = true ∧
              Representable cfg
                (((Plan.place T.toCxxType children).requests false).map Request.block))) := by
  refine ⟨fun plan => sameRequests_iff, fun T children => ⟨neverPasses_of_representable, fun room => ?_⟩⟩
  rw [sameRequests_iff]
  exact ⟨fun ⟨hflat, never⟩ => ⟨hflat, representable_of_neverPasses room hflat never⟩,
    fun ⟨hflat, rep⟩ => ⟨hflat, neverPasses_of_representable hflat rep⟩⟩

/-- An array of one element whose builder places another object. -/
def nestedArray : Plan :=
  .place lineHead.toCxxType [.placeArray lineHead.toCxxType 1 [.placeForOverwrite lineHead.toCxxType]]

/-- An array whose bytes and those of the head are `2 ^ 64`. -/
def wrappedArray : Plan :=
  .place lineHead.toCxxType [.placeForOverwriteArray lineHead.toCxxType 1152921504606846975]

/-- The measure pass over `nestedArray` finds two lines. -/
lemma requiredSize_nestedArray {mctx : MeasureContext}
    (h : nestedArray.Completes debug16.release (MeasureContext.init debug16) mctx) : mctx = ⟨32, 16, 0⟩ :=
  Except.ok.inj ((answerAll_measure.symm.trans (Plan.completes_iff.1 h)).symm.trans rfl)

/-- For an array of three lines, and for the array whose element places a line. -/
theorem passes_agree_lines :
    (Plan.place lineHead.toCxxType [.placeForOverwriteArray lineHead.toCxxType 3]).SameRequests debug16 ∧
      (Plan.place lineHead.toCxxType [.placeForOverwriteArray lineHead.toCxxType 3]).NeverPasses debug16 ∧
      ¬(nestedArray.SameRequests debug16 ∧ nestedArray.NeverPasses debug16) := by
  obtain ⟨hsame, hnever⟩ := passes_agree_iff debug16
  have hroom : nestedArray.LeavesRoom debug16 := by
    intro mctx hmctx
    obtain rfl := requiredSize_nestedArray hmctx
    decide
  refine ⟨(hsame _).2 (by decide), (hnever lineHead _).1 (by decide) (by decide), fun h => ?_⟩
  obtain ⟨hflat, -⟩ := ((hnever lineHead _).2 hroom).1 h
  exact absurd hflat (by decide)

/-- The measure pass over `nestedArray` asks for two lines, the construct pass for three, and the last one
leaves the block. The passes over `wrappedArray` agree, but its measured size is 0, and
the head already fails the assertion. -/
theorem passes_disagree_nestedArray :
    ¬((∀ plan : Plan, plan.SameRequests debug16) ∧ ∀ (T : HeadType debug16) (children : List Plan),
      (Plan.place T.toCxxType children).NeverPasses debug16) ∧
    (¬nestedArray.SameRequests debug16 ∧ ¬nestedArray.NeverPasses debug16) ∧
      wrappedArray.SameRequests debug16 ∧ ¬wrappedArray.NeverPasses debug16 := by
  have hsame : ¬nestedArray.SameRequests debug16 := by
    rw [sameRequests_iff]
    decide
  refine ⟨fun hall => hsame (hall.1 nestedArray), ⟨hsame, ?_⟩, sameRequests_iff.2 (by decide), ?_⟩
  · rintro ⟨mctx, hmctx, hnever⟩
    obtain rfl := requiredSize_nestedArray hmctx
    have hpast := (hnever 4096 (by decide) (by decide) (by decide) (.calm debug16.release)
      ⟨0, [], ⟨.init 4096 32, ()⟩⟩ rfl rfl).2
    revert hpast
    decide
  · rintro ⟨mctx, hmctx, hnever⟩
    have hsize : mctx.requiredSize = 0 :=
      BitVec.eq_of_toNat_eq ((requiredSize_release hmctx).toNat_requiredSize.trans (by decide))
    rw [hsize] at hnever
    exact (hnever 4096 (by decide) (by decide) (by decide) (.calm debug16)
      ⟨0, [], ⟨.init 4096 0, ()⟩⟩ rfl rfl).1 _ rfl

end Saco.Build
