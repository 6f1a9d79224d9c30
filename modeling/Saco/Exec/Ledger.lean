import Mathlib.Data.List.Count

/-!
# Ledgers and shared handles

`settle` keeps the books over what is acquired and released: releasing what is not held is an error.
When the books end empty, everything was released as often as it was acquired (`count_settle`).

`Handles` are reference counted handles of one resource. The last of them to be released disposes of
the resource, which happens once in a run of any length (`Handles.run_cases`).
-/

namespace Exec

/-! ## Ledgers -/

/-- What enters a ledger. -/
inductive Move (α : Type) where
  | acquire (a : α)
  | release (a : α)
  deriving DecidableEq

section Ledger

variable {α E : Type} [DecidableEq α] {ms : List (Move α)} {held held' : List α}

/-- What is held after a list of moves. -/
def settle : List (Move α) → List α → Option (List α)
  | [], held => some held
  | .acquire a :: ms, held => settle ms (a :: held)
  | .release a :: ms, held => if a ∈ held then settle ms (held.erase a) else none

/-- What was released or is still held is what was acquired or held before. -/
lemma count_settle (h : settle ms held = some held') (a : α) :
    ms.count (.release a) + held'.count a = ms.count (.acquire a) + held.count a := by
  induction ms generalizing held with
  | nil =>
    cases h
    rfl
  | cons m ms ih =>
    cases m with
    | acquire b =>
      have hrest := ih h
      have hne : Move.acquire b ≠ Move.release a := nofun
      rw [List.count_cons_of_ne hne]
      by_cases hab : b = a
      · subst hab
        rw [List.count_cons_self] at hrest ⊢
        omega
      · have hne' : Move.acquire b ≠ Move.acquire a := fun heq => hab (Move.acquire.inj heq)
        rw [List.count_cons_of_ne hab] at hrest
        rw [List.count_cons_of_ne hne']
        exact hrest
    | release b =>
      rw [settle] at h
      split at h
      case isTrue hb =>
        have hrest := ih h
        have hne : Move.release b ≠ Move.acquire a := nofun
        rw [List.count_cons_of_ne hne]
        by_cases hab : b = a
        · subst hab
          have hpos := List.count_pos_iff.2 hb
          rw [List.count_erase_self] at hrest
          rw [List.count_cons_self]
          omega
        · have hne' : Move.release b ≠ Move.release a := fun heq => hab (Move.release.inj heq)
          rw [List.count_erase_of_ne (Ne.symm hab)] at hrest
          rw [List.count_cons_of_ne hne']
          exact hrest
      case isFalse => cases h

/-- The events of a log that concern the ledger leave nothing held. -/
def Settled (move : E → Option (Move α)) (es : List E) : Prop :=
  settle (es.filterMap move) [] = some []

/-- In a settled log everything is released as often as it is acquired. -/
lemma Settled.countP {move : E → Option (Move α)} {es : List E} (h : Settled move es)
    (acquires releases : α → E → Bool)
    (hacquires : ∀ e a, move e = some (.acquire a) ↔ acquires a e = true)
    (hreleases : ∀ e a, move e = some (.release a) ↔ releases a e = true) (a : α) :
    es.countP (releases a) = es.countP (acquires a) := by
  have hcount := count_settle h a
  have hrel : (es.filterMap move).count (.release a) = es.countP (releases a) := by
    rw [List.count_filterMap]
    refine List.countP_congr fun e _ => ?_
    rw [beq_iff_eq, hreleases]
  have hacq : (es.filterMap move).count (.acquire a) = es.countP (acquires a) := by
    rw [List.count_filterMap]
    refine List.countP_congr fun e _ => ?_
    rw [beq_iff_eq, hacquires]
  rw [hrel, hacq] at hcount
  exact hcount

end Ledger

/-! ## Handles -/

/-- What can be done with a handle. -/
inductive HandleOp where
  | copy
  | release

/-- How many handles there are, and what has been logged. -/
structure Handles (E : Type) where
  useCount : ℕ
  log : List E

namespace Handles

variable {E : Type} {dispose log : List E} {h h' : Handles E}

/-- Only a handle that exists can be copied or released. The last one disposes of the resource. -/
def step (dispose : List E) : HandleOp → Handles E → Option (Handles E)
  | _, ⟨0, _⟩ => none
  | .copy, ⟨n + 1, log⟩ => some ⟨n + 2, log⟩
  | .release, ⟨1, log⟩ => some ⟨0, log ++ dispose⟩
  | .release, ⟨n + 2, log⟩ => some ⟨n + 1, log⟩

/-- Operations, one after the other. -/
def run (dispose : List E) : List HandleOp → Handles E → Option (Handles E)
  | [], h => some h
  | op :: ops, h => (step dispose op h).bind (run dispose ops)

/-- As long as a handle exists the resource is untouched, and afterwards it has been disposed of. -/
def Shares (dispose log : List E) (h : Handles E) : Prop :=
  (0 < h.useCount ∧ h.log = log) ∨ (h.useCount = 0 ∧ h.log = log ++ dispose)

/-- One operation on the handles. -/
lemma Shares.step {op : HandleOp} (hs : Shares dispose log h) (hstep : step dispose op h = some h') :
    Shares dispose log h' := by
  obtain ⟨n, log'⟩ := h
  rcases hs with ⟨hpos, rfl⟩ | ⟨hzero, rfl⟩
  · cases n with
    | zero => exact absurd hpos (Nat.lt_irrefl 0)
    | succ n =>
      cases op with
      | copy =>
        cases hstep
        exact .inl ⟨Nat.succ_pos _, rfl⟩
      | release =>
        cases n with
        | zero =>
          cases hstep
          exact .inr ⟨rfl, rfl⟩
        | succ n =>
          cases hstep
          exact .inl ⟨Nat.succ_pos _, rfl⟩
  · obtain rfl : n = 0 := hzero
    cases op <;> cases hstep

/-- Any operations, one after the other. -/
lemma Shares.run {ops : List HandleOp} (hs : Shares dispose log h)
    (hrun : run dispose ops h = some h') : Shares dispose log h' := by
  induction ops generalizing h with
  | nil =>
    cases hrun
    exact hs
  | cons op ops ih =>
    rw [Handles.run] at hrun
    cases hstep : Handles.step dispose op h with
    | none =>
      rw [hstep] at hrun
      cases hrun
    | some h₁ =>
      rw [hstep] at hrun
      exact ih (hs.step hstep) hrun

/-- Every run that begins with one handle. -/
lemma run_cases {ops : List HandleOp} (hrun : run dispose ops ⟨1, log⟩ = some h) :
    Shares dispose log h :=
  Shares.run (.inl ⟨Nat.one_pos, rfl⟩) hrun

/-- The only handle is released. -/
lemma run_release : run dispose [.release] ⟨1, log⟩ = some ⟨0, log ++ dispose⟩ := rfl

end Handles

end Exec
