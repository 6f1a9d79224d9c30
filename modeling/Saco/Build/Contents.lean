import Saco.Build.Exact
import Saco.Exec.Memory

/-!
# What the objects of a block hold

Constructors write to the bytes of their own object. After a run of `build_unique` every object of the
tree still holds what its constructor wrote, whatever was built after it, and no byte outside of the block
has changed (`buildUnique_contents`).
-/

namespace Saco.Build
open Arith Bump Exec Layout

/-- The bytes of an object. -/
def Object.region (o : Object) : Set SizeT := {a | o.address ≤ a.toNat ∧ a.toNat < o.stop}

instance (o : Object) (a : SizeT) : Decidable (a ∈ o.region) :=
  inferInstanceAs (Decidable (_ ∧ _))

/-- What the constructors leave in memory that held `m`. -/
def memoryAfter {β : Type} (bytes : Object → ℕ → β) (done : List Placement) (m : SizeT → β) :
    SizeT → β :=
  writeAll Object.region (fun o a => bytes o (a.toNat - o.address)) (objectsIn done) m

/-- Every object holds its bytes, and only the block has changed. -/
structure Holds {β : Type} (bytes : Object → ℕ → β) (mem size : SizeT) (done : List Placement)
    (m : SizeT → β) : Prop where
  object : ∀ o ∈ objectsIn done, ∀ i < o.T.sizeof.toNat,
    memoryAfter bytes done m (BitVec.ofNat 64 (o.address + i)) = bytes o i
  outside : ∀ a : SizeT, a.toNat < mem.toNat ∨ mem.toNat + size.toNat ≤ a.toNat →
    memoryAfter bytes done m a = m a

/-- Objects that are apart share no byte. -/
lemma notMem_region {o o' : Object} (h : o.extent.Apart o'.extent) :
    ∀ a ∈ o.region, a ∉ o'.region := by
  intro a ha ha'
  obtain ⟨hlo, hhi⟩ := ha
  obtain ⟨hlo', hhi'⟩ := ha'
  cases h with
  | inl h => exact (hhi.trans_le h).not_ge hlo'
  | inr h => exact (hhi'.trans_le h).not_ge hlo

/-- Packed objects keep their bytes. -/
lemma PackedIn.holds {β : Type} {mem size : SizeT} {done : List Placement}
    (packed : PackedIn mem size done) (hfit : mem.toNat + size.toNat < 2 ^ 64)
    (bytes : Object → ℕ → β) (m : SizeT → β) : Holds bytes mem size done m := by
  have hwithin : ∀ o ∈ objectsIn done, mem.toNat ≤ o.address ∧ o.stop ≤ mem.toNat + size.toNat := by
    intro o ho
    exact packed.within _ (List.mem_map_of_mem ho)
  refine ⟨fun o ho i hi => ?_, fun a ha => ?_⟩
  · have hapart := List.pairwise_map.1 packed.apart
    have hstop : o.stop = o.address + o.T.sizeof.toNat := rfl
    obtain ⟨-, hle⟩ := hwithin o ho
    have haddress : (BitVec.ofNat 64 (o.address + i)).toNat = o.address + i :=
      toNat_ofNat_of_lt (by omega)
    have hmem : BitVec.ofNat 64 (o.address + i) ∈ o.region := by
      constructor
      · rw [haddress]
        exact Nat.le_add_right _ _
      · rw [haddress, hstop]
        exact Nat.add_lt_add_left hi _
    -- no object built later touches the region of `o`
    rw [memoryAfter, writeAll_of_mem (hapart.imp notMem_region) ho hmem, haddress,
      Nat.add_sub_cancel_left]
  · refine writeAll_of_notMem fun o ho hmem => ?_
    obtain ⟨hlo, hhi⟩ := hmem
    obtain ⟨hlo', hhi'⟩ := hwithin o ho
    omega

/-- A tree that `build_unique` has built, or has started to build when an exception ended it. -/
theorem buildUnique_contents {S β : Type} (env : Env) (T : HeadType env.cfg) (children : List Plan)
    (fits : (Plan.place T.toCxxType children).Fits env.cfg) :
    ∃ mctx, MeasureContext.allocateAll env.cfg ((Plan.place T.toCxxType children).requests false)
        (.init env.cfg) = .ok mctx ∧
      (env.Supplies mctx.requiredSize →
        Meets (buildUnique env T.toCxxType children : Program Abort Event S SizeT)
          (Safely
            (fun obj es => es = (Plan.place T.toCxxType children).measured ++
                .obtain obj (.raw mctx.requiredSize) ::
                  (Plan.place T.toCxxType children).constructed obj ∧
              ∀ (bytes : Object → ℕ → β) (m : SizeT → β), Holds bytes obj mctx.requiredSize
                ((Plan.place T.toCxxType children).placements 0 obj.toNat) m)
            fun es => es <+: (Plan.place T.toCxxType children).measured ∨
              ∃ time done, done <+:
                  (Plan.place T.toCxxType children).placements 0 (env.operatorNew time).toNat ∧
                es = (Plan.place T.toCxxType children).measured ++
                  .obtain (env.operatorNew time) (.raw mctx.requiredSize) ::
                    (done.map Placement.event ++ [.free (env.operatorNew time)]) ∧
                ∀ (bytes : Object → ℕ → β) (m : SizeT → β),
                  Holds bytes (env.operatorNew time) mctx.requiredSize done m)) := by
  obtain ⟨mctx, hmctx, hr⟩ := exists_measured fits
  refine ⟨mctx, hmctx, fun supplies => ?_⟩
  refine Safely.mono (logs_buildUnique fits hmctx hr supplies) ?_ ?_
  · intro obj es hbuilt
    obtain ⟨⟨time, rfl⟩, hes, packed⟩ := hbuilt
    exact ⟨hes, packed.holds (supplies.fits time)⟩
  · intro es hlost
    rcases hlost with hes | ⟨time, done, hdone, hes, packed⟩
    · exact .inl hes
    · exact .inr ⟨time, done, hdone, hes, packed.holds (supplies.fits time)⟩

/-- The four lines of `threeLines` and its head. -/
theorem buildUnique_contents_lines :
    Meets (buildUnique (throwsAt 7) lineHead.toCxxType threeLines : Program Abort Event Unit SizeT)
      (Safely
        (fun obj es => es = (Plan.place lineHead.toCxxType threeLines).measured ++
            .obtain obj (.raw 64) :: (Plan.place lineHead.toCxxType threeLines).constructed obj ∧
          ∀ (bytes : Object → ℕ → ℕ) (m : SizeT → ℕ), Holds bytes obj 64
            ((Plan.place lineHead.toCxxType threeLines).placements 0 obj.toNat) m)
        fun es => es <+: (Plan.place lineHead.toCxxType threeLines).measured ∨
          ∃ time done, done <+: (Plan.place lineHead.toCxxType threeLines).placements 0
              ((throwsAt 7).operatorNew time).toNat ∧
            es = (Plan.place lineHead.toCxxType threeLines).measured ++
              .obtain ((throwsAt 7).operatorNew time) (.raw 64) ::
                (done.map Placement.event ++ [.free ((throwsAt 7).operatorNew time)]) ∧
            ∀ (bytes : Object → ℕ → ℕ) (m : SizeT → ℕ),
              Holds bytes ((throwsAt 7).operatorNew time) 64 done m) := by
  obtain ⟨mctx, hmctx, hcontents⟩ := buildUnique_contents (S := Unit) (β := ℕ) (throwsAt 7) lineHead
    threeLines ⟨rfl, by decide⟩
  obtain rfl : mctx = ⟨64, 16, 0⟩ := Except.ok.inj (hmctx.symm.trans rfl)
  have haligned : allocRawAligned debug16 64 4096 = true := by decide
  have hfits : (4096 : SizeT).toNat + (64 : SizeT).toNat < 2 ^ 64 := by decide
  exact hcontents ⟨fun _ => haligned, fun _ => hfits⟩

end Saco.Build
