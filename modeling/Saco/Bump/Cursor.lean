import Mathlib.Order.Preorder.Chain
import Saco.Arith.Mask

/-!
# Bump allocation from a known base

A cursor runs through a list of blocks. Before each block it is rounded up to the alignment of the
block, then it moves past the block. `starts` lists where the blocks begin and `finish` is where the
cursor ends.

The alignments come from a fixed set any two members of which divide one another (`Alignments`); the
powers of two are the set that machines use. The two facts about a whole run that everything else
rests on are `starts_laid` (the blocks are aligned, in order and disjoint) and `finish_add`/`starts_add`
(moving the base by a common multiple of the alignments moves everything along).
-/

namespace Bump
open Arith

/-- A set of alignments, any two of which divide one another. -/
structure Alignments where
  carrier : Set ℕ
  pos : ∀ a ∈ carrier, 0 < a
  chain : IsChain (· ∣ ·) carrier

instance : CoeSort Alignments Type := ⟨fun S => S.carrier⟩

/-- The alignments of machines. -/
def powersOfTwo : Alignments where
  carrier := {a | a.isPowerOfTwo}
  pos _ ha := Nat.pos_of_isPowerOfTwo ha
  chain a ha b hb _ := (le_total a b).imp (dvd_of_le ha hb) (dvd_of_le hb ha)

variable {S : Alignments}

/-- Alignments are positive. -/
lemma Alignments.coe_pos (S : Alignments) (a : S) : 0 < (a : ℕ) := S.pos a a.2

/-- A smaller alignment divides a larger one. -/
lemma Alignments.dvd (S : Alignments) {a b : S} (h : a ≤ b) : (a : ℕ) ∣ b := by
  cases S.chain.total a.2 b.2 with
  | inl hab => exact hab
  | inr hba => rw [Nat.le_antisymm h (Nat.le_of_dvd (S.coe_pos a) hba)]

/-- A block to be placed: its alignment and its size. -/
structure Block (S : Alignments) where
  align : S
  size : ℕ

/-- The alignment of a block is positive. -/
lemma Block.align_pos (q : Block S) : 0 < (q.align : ℕ) := S.coe_pos q.align

/-- Where the cursor stands after a block. -/
def advance (x : ℕ) (q : Block S) : ℕ := alignUp q.align x + q.size

/-- Where the cursor stands after a list of blocks. -/
def finish (x : ℕ) (qs : List (Block S)) : ℕ := qs.foldl advance x

/-- Where the blocks of a list begin. -/
def starts : ℕ → List (Block S) → List ℕ
  | _, [] => []
  | x, q :: qs => alignUp q.align x :: starts (advance x q) qs

/-- Without requests the cursor stays. -/
@[simp] lemma finish_nil {x : ℕ} : finish x ([] : List (Block S)) = x := rfl

/-- The first request moves the cursor for the others. -/
@[simp] lemma finish_cons {x : ℕ} {q : Block S} {qs : List (Block S)} :
    finish x (q :: qs) = finish (advance x q) qs := rfl

/-- The second part starts where the first one ended. -/
@[simp] lemma finish_append {x : ℕ} {ps qs : List (Block S)} :
    finish x (ps ++ qs) = finish (finish x ps) qs := List.foldl_append

/-- The blocks `qs` begin at `as`: aligned, one after the other, all within `[lo, hi)`. -/
inductive Laid : ℕ → ℕ → List (Block S) → List ℕ → Prop where
  | nil {lo hi} :
    lo ≤ hi →
    Laid lo hi [] []
  | cons {lo hi q qs a as} :
    lo ≤ a →
    (q.align : ℕ) ∣ a →
    Laid (a + q.size) hi qs as →
    Laid lo hi (q :: qs) (a :: as)

/-- What is laid out ends behind its start. -/
lemma Laid.le {lo hi qs as} (laid : Laid (S := S) lo hi qs as) : lo ≤ hi := by
  induction laid with
  | nil h => exact h
  | cons h _ _ ih => omega

/-- Every block lies between the bounds, aligned. -/
lemma Laid.within {lo hi qs as} (laid : Laid (S := S) lo hi qs as) :
    List.Forall₂ (fun q a => lo ≤ a ∧ a + q.size ≤ hi) qs as := by
  induction laid with
  | nil _ => exact .nil
  | @cons lo hi q qs a as h _ laid ih =>
    refine .cons ⟨h, laid.le⟩ (ih.imp fun p b hp => ?_)
    omega

/-- The upper bound may be raised. -/
lemma Laid.mono {lo hi hi' qs as} (laid : Laid (S := S) lo hi qs as) (h : hi ≤ hi') :
    Laid lo hi' qs as := by
  induction laid with
  | nil hle => exact .nil (hle.trans h)
  | cons hle hdvd _ ih => exact .cons hle hdvd (ih h)

/-- The cursor moves by at least the size. -/
lemma le_advance (x : ℕ) (q : Block S) : x + q.size ≤ advance x q :=
  Nat.add_le_add_right (le_alignUp q.align_pos) _

/-- The cursor never moves back. -/
lemma le_finish (x : ℕ) (qs : List (Block S)) : x ≤ finish x qs := by
  induction qs generalizing x with
  | nil => rfl
  | cons q qs ih =>
    have h := le_advance x q
    have hqs := ih (advance x q)
    rw [finish_cons]
    omega

/-- A run of the cursor lays the blocks out. -/
lemma starts_laid {x : ℕ} {qs : List (Block S)} : Laid x (finish x qs) qs (starts x qs) := by
  induction qs generalizing x with
  | nil => exact .nil le_rfl
  | cons q qs ih => exact .cons (le_alignUp q.align_pos) dvd_alignUp ih

/-- A shift by a multiple of the alignment shifts the cursor. -/
lemma advance_add {c x : ℕ} {q : Block S} (h : (q.align : ℕ) ∣ c) :
    advance (c + x) q = c + advance x q := by
  rw [advance, alignUp_add_of_dvd q.align_pos h, Nat.add_assoc]
  rfl

/-- Moving the base by a multiple of every alignment moves the end along. -/
lemma finish_add {c x : ℕ} {qs : List (Block S)} (h : ∀ q ∈ qs, (q.align : ℕ) ∣ c) :
    finish (c + x) qs = c + finish x qs := by
  induction qs generalizing x with
  | nil => rfl
  | cons q qs ih =>
    obtain ⟨hq, hqs⟩ := List.forall_mem_cons.1 h
    rw [finish_cons, advance_add hq, ih hqs, finish_cons]

/-- The end moves along with a base that keeps its residue. -/
lemma finish_congr {c x y : ℕ} {qs : List (Block S)} (hqs : ∀ q ∈ qs, (q.align : ℕ) ∣ c)
    (h : x ≡ y [MOD c]) : finish x qs + y = finish y qs + x := by
  have hshift : ∀ {x y : ℕ}, x ≡ y [MOD c] → x ≤ y → finish x qs + y = finish y qs + x := by
    intro x y h hle
    have hdvd := (Nat.modEq_iff_dvd' hle).1 h
    have hadd := finish_add (x := x) fun q hq => (hqs q hq).trans hdvd
    rw [Nat.sub_add_cancel hle] at hadd
    omega
  cases Nat.le_total x y with
  | inl hle => exact hshift h hle
  | inr hle => exact (hshift h.symm hle).symm

/-- A shift by a multiple of all alignments shifts all starts. -/
lemma starts_add {c x : ℕ} {qs : List (Block S)} (h : ∀ q ∈ qs, (q.align : ℕ) ∣ c) :
    starts (c + x) qs = (starts x qs).map (c + ·) := by
  induction qs generalizing x with
  | nil => rfl
  | cons q qs ih =>
    obtain ⟨hq, hqs⟩ := List.forall_mem_cons.1 h
    rw [starts, starts, advance_add hq, ih hqs, alignUp_add_of_dvd q.align_pos hq, List.map_cons]

/-- Past a positive cursor, the end is at least every alignment that was requested. -/
lemma align_le_finish {x : ℕ} {q : Block S} {qs : List (Block S)} (hx : 0 < x) (hq : q ∈ qs) :
    (q.align : ℕ) ≤ finish x qs := by
  induction qs generalizing x with
  | nil => cases hq
  | cons p qs ih =>
    have hp := le_alignUp_of_pos p.align_pos hx
    have hadv : 0 < advance x p := by
      have := le_advance x p
      omega
    cases hq with
    | head => exact hp.trans ((Nat.le_add_right _ _).trans (le_finish _ qs))
    | tail _ hq => exact ih hadv hq

/-- The same from base zero, when the first block is at least as large as its alignment. -/
lemma align_le_finish_cons {head q : Block S} {qs : List (Block S)} (hpos : 0 < head.size)
    (hhead : (head.align : ℕ) ≤ head.size) (hq : q ∈ head :: qs) :
    (q.align : ℕ) ≤ finish 0 (head :: qs) := by
  have hadv := le_advance 0 head
  rw [finish_cons]
  cases hq with
  | head =>
    have hfin := le_finish (advance 0 head) qs
    exact hhead.trans (by omega)
  | tail _ hq => exact align_le_finish (by omega) hq

end Bump
