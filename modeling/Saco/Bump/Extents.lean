import Mathlib.Data.List.Perm.Basic
import Saco.Bump.Cursor

/-!
# Extents that do not overlap

An extent is a block together with the place where it was put. `Packed lo hi es` says that the extents
`es` are aligned, lie within `[lo, hi)` and are disjoint, in whatever order they are listed. The lemmas
pack windows next to each other, split a window into the elements of an array (`Packed.array`), and
string together the windows that a cursor leaves behind (`Packed.chain`).
-/

namespace Bump

variable {S : Alignments}

/-- A block at its place. -/
structure Extent (S : Alignments) extends Block S where
  start : ℕ

def Extent.stop (e : Extent S) : ℕ := e.start + e.size

/-- Two extents share no byte. -/
def Extent.Apart (e e' : Extent S) : Prop := e.stop ≤ e'.start ∨ e'.stop ≤ e.start

/-- Being apart does not depend on the order. -/
lemma Extent.Apart.symm {e e' : Extent S} (h : e.Apart e') : e'.Apart e := Or.symm h

/-- Extents that are aligned, between two bounds, and apart from one another. -/
structure Packed (lo hi : ℕ) (es : List (Extent S)) : Prop where
  aligned : ∀ e ∈ es, (e.align : ℕ) ∣ e.start
  within : ∀ e ∈ es, lo ≤ e.start ∧ e.stop ≤ hi
  apart : es.Pairwise Extent.Apart

variable {lo mid hi : ℕ} {e : Extent S} {es es' : List (Extent S)}

/-- Nothing is packed anywhere. -/
lemma Packed.nil : Packed lo hi ([] : List (Extent S)) := ⟨nofun, nofun, .nil⟩

/-- A single extent. -/
lemma Packed.one (haligned : (e.align : ℕ) ∣ e.start) (hlo : lo ≤ e.start) (hhi : e.stop ≤ hi) :
    Packed lo hi [e] := by
  refine ⟨fun e' he => ?_, fun e' he => ?_, List.pairwise_singleton _ _⟩
  · rw [List.mem_singleton.1 he]
    exact haligned
  · rw [List.mem_singleton.1 he]
    exact ⟨hlo, hhi⟩

/-- The bounds may be widened. -/
lemma Packed.mono {lo' hi' : ℕ} (h : Packed lo hi es) (hlo : lo' ≤ lo) (hhi : hi ≤ hi') :
    Packed lo' hi' es := by
  refine ⟨h.aligned, fun e he => ?_, h.apart⟩
  obtain ⟨hstart, hstop⟩ := h.within e he
  exact ⟨hlo.trans hstart, hstop.trans hhi⟩

/-- The order does not matter. -/
lemma Packed.perm (h : Packed lo hi es) (hperm : es.Perm es') : Packed lo hi es' := by
  refine ⟨fun e he => h.aligned e (hperm.mem_iff.2 he), fun e he => h.within e (hperm.mem_iff.2 he), ?_⟩
  exact (hperm.pairwise_iff Extent.Apart.symm).1 h.apart

/-- Extents may be left out. -/
lemma Packed.sublist (h : Packed lo hi es) (hsub : es'.Sublist es) : Packed lo hi es' :=
  ⟨fun e he => h.aligned e (hsub.subset he), fun e he => h.within e (hsub.subset he),
    h.apart.sublist hsub⟩

/-- Two windows next to each other. -/
lemma Packed.append (h : Packed lo mid es) (h' : Packed mid hi es') (hlo : lo ≤ mid) (hhi : mid ≤ hi) :
    Packed lo hi (es ++ es') := by
  have hleft := h.mono le_rfl hhi
  have hright := h'.mono hlo le_rfl
  refine ⟨fun e he => ?_, fun e he => ?_, ?_⟩
  · exact (List.mem_append.1 he).elim (hleft.aligned e) (hright.aligned e)
  · exact (List.mem_append.1 he).elim (hleft.within e) (hright.within e)
  · refine List.pairwise_append.2 ⟨h.apart, h'.apart, fun e he e' he' => .inl ?_⟩
    exact (h.within e he).2.trans (h'.within e' he').1

/-- The elements of an array fill the space of the array. -/
lemma Packed.array {q : Block S} {a n : ℕ} (halign : (q.align : ℕ) ∣ a)
    (hsize : (q.align : ℕ) ∣ q.size) :
    Packed a (a + q.size * n) ((List.range n).map fun i => (⟨q, a + q.size * i⟩ : Extent S)) := by
  induction n with
  | zero => exact .nil
  | succ n ih =>
    rw [List.range_succ, List.map_append, List.map_singleton]
    have hnext : a + q.size * n + q.size = a + q.size * (n + 1) := by
      rw [Nat.mul_succ, Nat.add_assoc]
    refine ih.append (.one ?_ le_rfl hnext.le) (Nat.le_add_right _ _) ?_
    · exact Nat.dvd_add halign (Dvd.dvd.mul_right hsize n)
    · exact Nat.add_le_add_left (Nat.mul_le_mul_left _ (Nat.le_succ n)) a

/-- One window after the other. -/
lemma Packed.chain {c : ℕ → ℕ} {f : ℕ → List (Extent S)} (hf : ∀ i, Packed (c i) (c (i + 1)) (f i))
    (hc : Monotone c) (n : ℕ) : Packed (c 0) (c n) ((List.range n).flatMap f) := by
  induction n with
  | zero => exact .nil
  | succ n ih =>
    rw [List.range_succ, List.flatMap_append, List.flatMap_singleton]
    exact ih.append (hf n) (hc (Nat.zero_le n)) (hc (Nat.le_succ n))

/-- What every element of an array adds behind the array. -/
lemma Packed.interleave {f : ℕ → List (Extent S)} {g : ℕ → Extent S} {n : ℕ}
    (hg : Packed lo mid ((List.range n).map g)) (hf : Packed mid hi ((List.range n).flatMap f))
    (hlo : lo ≤ mid) (hhi : mid ≤ hi) :
    Packed lo hi ((List.range n).flatMap fun i => f i ++ [g i]) := by
  refine (hg.append hf hlo hhi).perm (List.perm_append_comm.trans ?_)
  rw [List.map_eq_flatMap]
  exact List.flatMap_append_perm (List.range n) f fun i => [g i]

end Bump
