import Saco.Exec.Ledger

/-!
# The accounts of many owners

`Turns move es before after`: a ledger that holds `before` holds `after` once the events `es` are entered,
in any order. What is held beside it stays (`Turns.frame`), so that the ledger of a log with many owners
is the sum of their accounts.

An owner has some handles. It accounts for what it owns as long as there is one, and then for what its
disposal leaves behind.
-/

namespace Exec

section Turns

variable {α E : Type} [DecidableEq α] {ms ms' : List (Move α)} {held held' rest : List α}

/-- The moves of one log after those of another. -/
lemma settle_append :
    settle (ms ++ ms') held = (settle ms held).bind (settle ms') := by
  induction ms generalizing held with
  | nil => rfl
  | cons m ms ih =>
    cases m with
    | acquire a => exact ih
    | release a =>
      simp only [List.cons_append, settle]
      split
      case isTrue => exact ih
      case isFalse => rfl

/-- What is held besides makes no difference. -/
lemma settle_frame (h : settle ms held = some held') :
    settle ms (held ++ rest) = some (held' ++ rest) := by
  induction ms generalizing held with
  | nil =>
    cases h
    rfl
  | cons m ms ih =>
    cases m with
    | acquire a => exact ih h
    | release a =>
      rw [settle] at h ⊢
      split at h
      case isTrue ha =>
        -- `erase` takes the first occurrence, which is not in `rest`
        rw [if_pos (List.mem_append_left rest ha), List.erase_append_left rest ha]
        exact ih h
      case isFalse => cases h

/-- The order of what is held makes no difference. -/
lemma settle_perm {held₁ held₂ : List α} (hp : held₁.Perm held₂) (h : settle ms held₁ = some held') :
    ∃ held'', settle ms held₂ = some held'' ∧ held'.Perm held'' := by
  induction ms generalizing held₁ held₂ with
  | nil =>
    cases h
    exact ⟨held₂, rfl, hp⟩
  | cons m ms ih =>
    cases m with
    | acquire a => exact ih (hp.cons a) h
    | release a =>
      rw [settle] at h
      split at h
      case isTrue ha =>
        rw [settle, if_pos (hp.mem_iff.1 ha)]
        exact ih (hp.erase a) h
      case isFalse => cases h

/-- The events of a log turn what is held before it into what is held after it. -/
def Turns (move : E → Option (Move α)) (es : List E) (before after : List α) : Prop :=
  ∃ held, settle (es.filterMap move) before = some held ∧ held.Perm after

variable {move : E → Option (Move α)} {es es' : List E} {before between after : List α}

/-- Without events nothing changes. -/
lemma Turns.nil : Turns move [] held held := ⟨held, rfl, .refl held⟩

/-- What is held afterwards may be listed in another order. -/
lemma Turns.perm {after' : List α} (h : Turns move es before after) (hp : after.Perm after') :
    Turns move es before after' := by
  obtain ⟨held, hsettle, hheld⟩ := h
  exact ⟨held, hsettle, hheld.trans hp⟩

/-- What is held before may be listed in another order. -/
lemma Turns.perm_left {before' : List α} (h : Turns move es before after)
    (hp : before.Perm before') : Turns move es before' after := by
  obtain ⟨held, hsettle, hheld⟩ := h
  obtain ⟨held', hsettle', hheld'⟩ := settle_perm hp hsettle
  exact ⟨held', hsettle', hheld'.symm.trans hheld⟩

/-- What is held besides stays. -/
lemma Turns.frame (h : Turns move es before after) (rest : List α) :
    Turns move es (before ++ rest) (after ++ rest) := by
  obtain ⟨held, hsettle, hheld⟩ := h
  exact ⟨held ++ rest, settle_frame hsettle, hheld.append_right rest⟩

/-- One log after the other. -/
lemma Turns.append (h : Turns move es before between) (h' : Turns move es' between after) :
    Turns move (es ++ es') before after := by
  obtain ⟨held, hsettle, hheld⟩ := h
  obtain ⟨held', hsettle', hheld'⟩ := h'.perm_left hheld.symm
  refine ⟨held', ?_, hheld'⟩
  rw [List.filterMap_append, settle_append, hsettle]
  exact hsettle'

/-- A log that starts and ends with nothing is settled. -/
lemma Turns.settled (h : Turns move es [] []) : Settled move es := by
  obtain ⟨held, hsettle, hheld⟩ := h
  rw [Settled, hsettle, hheld.eq_nil]

end Turns

/-! ## Owners -/

/-- An owner, and the number of its handles. -/
structure Held (O : Type) where
  owner : O
  useCount : ℕ

section Held

variable {α E O : Type} {held : Held O} {owners : List (Held O)} {i : ℕ}

/-- What an owner accounts for. -/
def Held.account (owns leaves : O → List α) (held : Held O) : List α :=
  if held.useCount = 0 then leaves held.owner else owns held.owner

/-- Replacing one owner replaces its account. -/
lemma exists_rest (account : Held O → List α) (h : owners[i]? = some held) (held' : Held O) :
    ∃ rest, (owners.flatMap account).Perm (account held ++ rest) ∧
      ((owners.set i held').flatMap account).Perm (account held' ++ rest) := by
  induction owners generalizing i with
  | nil => cases h
  | cons first owners ih =>
    cases i with
    | zero =>
      cases h
      exact ⟨owners.flatMap account, .refl _, .refl _⟩
    | succ i =>
      obtain ⟨rest, hbefore, hafter⟩ := ih h
      have hswap : ∀ mine : List α, (account first ++ (mine ++ rest)).Perm
          (mine ++ (account first ++ rest)) := fun mine => by
        rw [← List.append_assoc, ← List.append_assoc]
        exact List.perm_append_comm.append_right rest
      exact ⟨account first ++ rest, (hbefore.append_left _).trans (hswap _),
        (hafter.append_left _).trans (hswap _)⟩

variable [DecidableEq α] {move : E → Option (Move α)} {owns leaves : O → List α} {dispose : List E}

/-- The events `es` that a new owner came with. -/
lemma Turns.enter {log es : List E} {owner : O}
    (h : Turns move log [] (owners.flatMap (Held.account owns leaves)))
    (hes : Turns move es [] (owns owner)) :
    Turns move (log ++ es) [] ((owners ++ [(⟨owner, 1⟩ : Held O)]).flatMap (Held.account owns leaves)) := by
  have hnew : [(⟨owner, 1⟩ : Held O)].flatMap (Held.account owns leaves) = owns owner :=
    List.append_nil _
  rw [List.flatMap_append, hnew]
  exact h.append ((hes.frame _).perm List.perm_append_comm)

/-- An operation on a handle of one owner. -/
lemma Turns.handle {op : HandleOp} {log : List E} {handles : Handles E}
    (h : Turns move log [] (owners.flatMap (Held.account owns leaves))) (hheld : owners[i]? = some held)
    (hdispose : Turns move dispose (owns held.owner) (leaves held.owner))
    (hstep : Handles.step dispose op ⟨held.useCount, log⟩ = some handles) :
    Turns move handles.log []
      ((owners.set i (⟨held.owner, handles.useCount⟩ : Held O)).flatMap (Held.account owns leaves)) := by
  have hmine : ∃ es, handles.log = log ++ es ∧ Turns move es (held.account owns leaves)
      (Held.account owns leaves ⟨held.owner, handles.useCount⟩) := by
    obtain ⟨owner, useCount⟩ := held
    cases useCount with
    -- an operation needs a handle that is left
    | zero => cases op <;> cases hstep
    | succ n =>
      cases op with
      | copy =>
        cases hstep
        exact ⟨[], (List.append_nil log).symm, .nil⟩
      | release =>
        cases n with
        -- the last handle disposes of what is owned
        | zero =>
          cases hstep
          exact ⟨dispose, rfl, hdispose⟩
        | succ n =>
          cases hstep
          exact ⟨[], (List.append_nil log).symm, .nil⟩
  obtain ⟨es, hes, hturns⟩ := hmine
  obtain ⟨rest, hbefore, hafter⟩ :=
    exists_rest (Held.account owns leaves) hheld ⟨held.owner, handles.useCount⟩
  rw [hes]
  exact ((h.perm hbefore).append (hturns.frame rest)).perm hafter.symm

end Held

end Exec
