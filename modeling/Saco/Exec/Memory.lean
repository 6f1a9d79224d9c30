import Mathlib.Data.Set.Basic

/-!
# Writes to memory

A write gives new values to the places of a region and leaves the others as they are. Writes to disjoint
regions do not disturb each other: after any number of them every region holds what was written to it
(`writeAll_of_mem`), and no other place has changed (`writeAll_of_notMem`).
-/

namespace Exec

variable {ι κ β : Type} {region : ι → Set κ} [∀ i a, Decidable (a ∈ region i)] {values : ι → κ → β}
  {m : κ → β} {i : ι} {is : List ι} {a : κ}

/-- Write the values of `i` to its region. -/
def write (region : ι → Set κ) [∀ i a, Decidable (a ∈ region i)] (values : ι → κ → β) (m : κ → β)
    (i : ι) : κ → β :=
  fun a => if a ∈ region i then values i a else m a

/-- One write after the other. -/
def writeAll (region : ι → Set κ) [∀ i a, Decidable (a ∈ region i)] (values : ι → κ → β) (is : List ι)
    (m : κ → β) : κ → β :=
  is.foldl (write region values) m

/-- What no region contains is not written. -/
lemma writeAll_of_notMem (h : ∀ i ∈ is, a ∉ region i) : writeAll region values is m a = m a := by
  induction is generalizing m with
  | nil => rfl
  | cons i is ih =>
    obtain ⟨hi, his⟩ := List.forall_mem_cons.1 h
    have hwrite : write region values m i a = m a := if_neg hi
    exact (ih his).trans hwrite

/-- The last write to a place counts, and there is only one. -/
lemma writeAll_of_mem (h : is.Pairwise fun i j => ∀ a ∈ region i, a ∉ region j) (hi : i ∈ is)
    (ha : a ∈ region i) : writeAll region values is m a = values i a := by
  induction is generalizing m with
  | nil => cases hi
  | cons j is ih =>
    obtain ⟨hj, his⟩ := List.pairwise_cons.1 h
    cases hi with
    | head =>
      -- the places written after `i` are elsewhere
      have hwrite : write region values m i a = values i a := if_pos ha
      have hlater : ∀ k ∈ is, a ∉ region k := fun k hk => hj k hk a ha
      exact (writeAll_of_notMem hlater).trans hwrite
    | tail _ hi => exact ih his hi

end Exec
