import Saco.Layout.Simulation

/-!
# `required_size`

How the number that `measure_context` returns relates to what `construct_context` consumes from a base
address that is a multiple of `MAX_NEW_ALIGNMENT`. `requiredSize_worst_case`: the measured size is the
maximum over these bases. `measure_slack`: in every state of the measure pass the slack for each base
is at most the largest alignment less `MAX_NEW_ALIGNMENT`.

The construct pass is folded with assertions compiled out, so that it runs from every base, also from
one whose block would reach past the top of the address space.
-/

namespace Saco.Layout
open Arith Bump

/-- The same build with assertions compiled out. -/
def Config.release (cfg : Config) : Config := { cfg with ndebug := true }

/-- The largest alignment of a sequence of requests, at least `MAX_NEW_ALIGNMENT`. -/
def largestAlignment (cfg : Config) (qs : List Request) : ℕ :=
  (qs.map fun q => q.ALIGN.value.toNat).foldl max cfg.maxNewAlignment.value.toNat

variable {cfg : Config} {qs : List Request}

/-- The free alignment of the estimate is the largest alignment. -/
lemma coe_free_run :
    ((Estimate.run cfg.maxNewAlignment.nat (qs.map Request.block)).free : ℕ) =
      largestAlignment cfg qs := by
  induction qs using List.reverseRecOn with
  | nil => rfl
  | append_singleton qs q ih =>
    rw [largestAlignment] at ih
    rw [List.map_append, List.map_singleton, Estimate.run_concat, Estimate.free_advance,
      largestAlignment, List.map_append, List.map_singleton, List.foldl_concat, ← ih]
    rfl

/-- No alignment of a machine word reaches `2 ^ 64`, so none exceeds half of it. -/
lemma free_run_le (cfg : Config) {bs : List (Block powersOfTwo)}
    (den : List.Forall₂ Request.Denotes qs bs) :
    ((Estimate.run cfg.maxNewAlignment.nat bs).free : ℕ) ≤ 2 ^ 63 := by
  have hmono : ∀ e : Estimate powersOfTwo cfg.maxNewAlignment.nat, (e.free : ℕ) ≤ 2 ^ 63 →
      ((bs.foldl Estimate.advance e).free : ℕ) ≤ 2 ^ 63 := by
    induction den with
    | nil => exact fun e he => he
    | @cons q b qs bs dq _ ih =>
      intro e he
      refine ih _ ?_
      rw [Estimate.free_advance, dq.align]
      cases max_choice e.free q.ALIGN.nat with
      | inl h => rwa [h]
      | inr h =>
        rw [h]
        exact q.ALIGN.le_half
  exact hmono _ cfg.maxNewAlignment.le_half

/-- A sum of the measure pass that wrapped is read back `2 ^ 64` smaller, more than the padding can make
up for: the cursor leaves the measured block. -/
lemma representable_of_finish_le {bs : List (Block powersOfTwo)} {mctx : MeasureContext} {b : ℕ}
    (den : List.Forall₂ Request.Denotes qs bs)
    (sim : mctx.Simulates (Estimate.run cfg.maxNewAlignment.nat bs))
    (hb : (cfg.maxNewAlignment.nat : ℕ) ∣ b) (hfin : finish b bs ≤ b + mctx.requiredSize.toNat) :
    Representable cfg bs := by
  have hlower := (Estimate.tracks_run hb bs).lower
  have hfree := free_run_le cfg den
  rw [sim.toNat_requiredSize] at hfin
  by_contra hwrap
  rw [Representable, not_lt] at hwrap
  omega

/-- The largest alignment is at most half of the address space. -/
lemma largestAlignment_le (cfg : Config) (qs : List Request) : largestAlignment cfg qs ≤ 2 ^ 63 := by
  rw [← coe_free_run]
  exact free_run_le cfg (Request.denotes_blocks qs)

/-- The head that `build_unique` guarantees: a non-empty request that is not over-aligned. -/
lemma headed_cons {q : Request} (hsize : q.size ≠ 0)
    (halign : q.ALIGN.value ≤ cfg.maxNewAlignment.value) :
    Headed cfg ((q :: qs).map Request.block) := by
  exact ⟨toNat_pos hsize, Alignment.le_iff.1 halign⟩

/-- A construct pass over `qs` from the base `b` moves `m_current` by `n`, whatever the end of the block
is. -/
def Consumes (cfg : Config) (qs : List Request) (b n : SizeT) : Prop :=
  ∀ size, ∃ as cctx, ConstructContext.allocateAll cfg.release qs (.init b size) = .ok (as, cctx) ∧
    cctx.mCurrent - b = n

/-- The construct pass consumes what the cursor does, modulo `2 ^ 64`. -/
lemma consumes_finish (cfg : Config) (qs : List Request) (b : SizeT) :
    Consumes cfg qs b (BitVec.ofNat 64 (finish b.toNat (qs.map Request.block) - b.toNat)) := by
  intro size
  refine ⟨_, _, ConstructContext.allocateAll_eq (Request.denotes_blocks qs)
    ConstructContext.mCurrent_init (.inl rfl), ?_⟩
  dsimp only
  rw [← ofNat_sub (le_finish _ _), ← eq_ofNat]

section Slack

variable {mctx : MeasureContext} {b : SizeT}
  (sim : mctx.Simulates (Estimate.run cfg.maxNewAlignment.nat (qs.map Request.block)))
  (rep : Representable cfg (qs.map Request.block))

include sim rep

/-- The extra padding is less than the largest alignment. -/
lemma extraPadding_le :
    mctx.mExtraPadding.toNat + cfg.maxNewAlignment.value.toNat ≤ largestAlignment cfg qs := by
  have hextra := (Estimate.run cfg.maxNewAlignment.nat (qs.map Request.block)).extra_le
  rw [Representable, Estimate.size] at rep
  rw [sim.extra, toNat_ofNat_of_lt (by omega), ← coe_free_run]
  exact hextra

/-- The measured size exceeds the consumed bytes by at most the largest alignment less
`MAX_NEW_ALIGNMENT`, and by just the extra padding where the base has the largest alignment. -/
lemma slack_le (hb : cfg.maxNewAlignment.value.toNat ∣ b.toNat) : ∃ n, Consumes cfg qs b n ∧
    n ≤ mctx.requiredSize ∧
    (mctx.requiredSize - n).toNat + cfg.maxNewAlignment.value.toNat ≤ largestAlignment cfg qs ∧
    (largestAlignment cfg qs ∣ b.toNat →
      n = mctx.mOffset ∧ mctx.requiredSize - n = mctx.mExtraPadding) := by
  have tr := Estimate.tracks_run (M := cfg.maxNewAlignment.nat) hb (qs.map Request.block)
  have hupper := tr.upper
  have hlower := tr.lower
  have hge := le_finish b.toNat (qs.map Request.block)
  rw [Representable, Estimate.size] at rep
  rw [Estimate.size] at hupper hlower
  refine ⟨_, consumes_finish cfg qs b, ?_⟩
  rw [sim.requiredSize, Estimate.size, ofNat_sub (by omega)]
  refine ⟨?_, ?_, fun hA => ?_⟩
  · rw [BitVec.le_def, toNat_ofNat_of_lt (by omega), toNat_ofNat_of_lt rep]
    omega
  · rw [toNat_ofNat_of_lt (by omega), ← coe_free_run]
    rw [Alignment.coe_nat] at hlower
    omega
  · rw [← coe_free_run] at hA
    have hexact := tr.exact hA
    rw [hexact, Nat.add_sub_cancel_left, Nat.add_sub_cancel_left, sim.offset, sim.extra]
    exact ⟨rfl, rfl⟩

end Slack

/-- The measured size is the worst case over the bases that are multiples of `MAX_NEW_ALIGNMENT`:
no base consumes more, and one below the largest alignment consumes as much. -/
theorem requiredSize_worst_case (cfg : Config) (q : Request) (qs : List Request)
    (hsize : q.size ≠ 0) (halign : q.ALIGN.value ≤ cfg.maxNewAlignment.value)
    (rep : Representable cfg ((q :: qs).map Request.block)) :
    ∃ mctx, MeasureContext.allocateAll cfg (q :: qs) (.init cfg) = .ok mctx ∧
      (∀ b : SizeT, cfg.maxNewAlignment.value.toNat ∣ b.toNat →
        ∃ n ≤ mctx.requiredSize, Consumes cfg (q :: qs) b n) ∧
      ∃ b : SizeT, cfg.maxNewAlignment.value.toNat ∣ b.toNat ∧
        b.toNat < largestAlignment cfg (q :: qs) ∧
        Consumes cfg (q :: qs) b mctx.requiredSize := by
  obtain ⟨mctx, hmctx, sim⟩ :=
    MeasureContext.exists_run (Request.denotes_blocks _) (headed_cons hsize halign) rep
  refine ⟨mctx, hmctx, fun b hb => ?_, ?_⟩
  · obtain ⟨n, hn, hle, -⟩ := slack_le sim rep hb
    exact ⟨n, hle, hn⟩
  · obtain ⟨b, hdvd, hlt, hworst⟩ :=
      Estimate.exists_worst (M := cfg.maxNewAlignment.nat) ((q :: qs).map Request.block)
    rw [coe_free_run] at hlt
    have hle := largestAlignment_le cfg (q :: qs)
    have hb : (BitVec.ofNat 64 b).toNat = b := Nat.mod_eq_of_lt (by omega)
    refine ⟨BitVec.ofNat 64 b, by rwa [hb], by rwa [hb], ?_⟩
    have hconsumes := consumes_finish cfg (q :: qs) (BitVec.ofNat 64 b)
    rwa [hb, hworst, Nat.add_sub_cancel_left, ← sim.requiredSize] at hconsumes

def align16 : Alignment := ⟨16, by decide⟩

/-- A platform with 16-byte `operator new` and assertions on. -/
def debug16 : Config := ⟨false, align16⟩

/-- A byte followed by two cache lines. -/
def cacheLines : List Request := [⟨⟨1, by decide⟩, 1⟩, ⟨⟨64, by decide⟩, 128⟩]

/-- Some base below 64 makes the cache lines cost every byte that was measured. -/
theorem requiredSize_worst_case_cacheLines :
    ∃ mctx, MeasureContext.allocateAll debug16 cacheLines (.init debug16) = .ok mctx ∧
      ∃ b : SizeT, b.toNat < 64 ∧ Consumes debug16 cacheLines b mctx.requiredSize := by
  obtain ⟨mctx, hmctx, -, b, -, hlt, hb⟩ := requiredSize_worst_case debug16 ⟨⟨1, by decide⟩, 1⟩
    [⟨⟨64, by decide⟩, 128⟩] (by decide) (by decide) (by decide)
  exact ⟨mctx, hmctx, b, hlt, hb⟩

/-- In every state that the measure pass reaches, after any prefix `pre` of the requests: the free
alignment is the largest alignment so far; for a request that raises it the subtraction
`ALIGN - padding - m_free_alignment` does not go below zero; and for every base the measured size
exceeds the consumed bytes by at most the largest alignment less `MAX_NEW_ALIGNMENT`. -/
theorem measure_slack (cfg : Config) (q : Request) (qs pre post : List Request)
    (hsize : q.size ≠ 0) (halign : q.ALIGN.value ≤ cfg.maxNewAlignment.value)
    (rep : Representable cfg ((q :: qs).map Request.block)) (hsplit : q :: qs = pre ++ post) :
    ∃ mctx, MeasureContext.allocateAll cfg pre (.init cfg) = .ok mctx ∧
      mctx.mFreeAlignment.toNat = largestAlignment cfg pre ∧
      (∀ ALIGN : Alignment, mctx.mFreeAlignment < ALIGN.value →
        (mctx.padding ALIGN).toNat + mctx.mFreeAlignment.toNat ≤ ALIGN.value.toNat) ∧
      mctx.mExtraPadding.toNat + cfg.maxNewAlignment.value.toNat ≤ largestAlignment cfg pre ∧
      ∀ b : SizeT, cfg.maxNewAlignment.value.toNat ∣ b.toNat → ∃ n, Consumes cfg pre b n ∧
        n ≤ mctx.requiredSize ∧
        (mctx.requiredSize - n).toNat + cfg.maxNewAlignment.value.toNat ≤
          largestAlignment cfg pre ∧
        (largestAlignment cfg pre ∣ b.toNat →
          n = mctx.mOffset ∧ mctx.requiredSize - n = mctx.mExtraPadding) := by
  have rep' : Representable cfg (pre.map Request.block) := by
    rw [hsplit, List.map_append] at rep
    exact rep.of_append
  obtain ⟨mctx, hmctx, sim⟩ : ∃ mctx, MeasureContext.allocateAll cfg pre (.init cfg) = .ok mctx ∧
      mctx.Simulates (Estimate.run cfg.maxNewAlignment.nat (pre.map Request.block)) := by
    cases pre with
    | nil => exact ⟨_, rfl, MeasureContext.simulates_init⟩
    | cons p pre =>
      obtain ⟨rfl, -⟩ := List.cons_eq_cons.1 hsplit
      exact MeasureContext.exists_run (Request.denotes_blocks _) (headed_cons hsize halign) rep'
  exact ⟨mctx, hmctx, sim.free.trans coe_free_run, fun _ => sim.padding_add_free_le,
    extraPadding_le sim rep', fun _ => slack_le sim rep'⟩

/-- Four lines of sixteen bytes, then a cache line. -/
def linesThenCacheLine : List Request := [⟨align16, 64⟩, ⟨⟨64, by decide⟩, 64⟩]

/-- They leave 48 bytes of extra padding, all of them slack in a block that starts at a cache line. -/
theorem measure_slack_linesThenCacheLine :
    MeasureContext.allocateAll debug16 linesThenCacheLine (.init debug16) = .ok ⟨128, 64, 48⟩ ∧
      (48 : SizeT).toNat + 16 ≤ 64 ∧ Consumes debug16 linesThenCacheLine 4096 128 ∧
      (176 - 128 : SizeT).toNat + 16 ≤ 64 := by
  obtain ⟨mctx, hmctx, -, -, hextra, hbase⟩ := measure_slack debug16 ⟨align16, 64⟩
    [⟨⟨64, by decide⟩, 64⟩] linesThenCacheLine [] (by decide) (by decide) (by decide) rfl
  obtain rfl : mctx = ⟨128, 64, 48⟩ := Except.ok.inj (hmctx.symm.trans rfl)
  obtain ⟨n, hconsumes, -, hslack, hdvd⟩ := hbase 4096 (by decide)
  obtain ⟨rfl, -⟩ := hdvd (by decide)
  exact ⟨hmctx, hextra, hconsumes, hslack⟩

end Saco.Layout
