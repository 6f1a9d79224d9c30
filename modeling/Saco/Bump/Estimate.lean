import Saco.Bump.Cursor

/-!
# Bump allocation from an unknown base

How many bytes does a list of blocks need when the base is only known to be a multiple of `M`? An
`Estimate` follows the blocks with an offset from the base, the largest alignment `free` seen so far
(the offset and the cursor agree modulo `free`) and the padding `extra` that the worst base needs on
top of the offset.

`Tracks` relates an estimate to the cursor of a run from one base; `tracks_run` is the simulation and
bounds the slack on both sides. `exists_worst` adds that the bound is attained: each time `free` is
raised the base is moved by a multiple of the old `free`, which leaves everything placed before where
it was relative to the base.
-/

namespace Bump
open Arith

variable {S : Alignments} {M : S}

/-- What is known about a run whose base is a multiple of `M`. -/
structure Estimate (S : Alignments) (M : S) where
  offset : ℕ
  free : S
  extra : ℕ
  le_free : M ≤ free
  extra_le : extra + M ≤ free

namespace Estimate

def init : Estimate S M := ⟨0, M, 0, le_rfl, by omega⟩

/-- The bytes that the worst base needs. -/
def size (e : Estimate S M) : ℕ := e.offset + e.extra

/-- The padding of a raise of the alignment leaves room for the old alignment. -/
lemma padding_add_free_le (e : Estimate S M) {a : S} (h : e.free ≤ a) :
    alignUp a (alignUp e.free e.offset) - alignUp e.free e.offset + e.free ≤ a := by
  have hle := alignUp_add_le (S.dvd h) (S.coe_pos a) (dvd_alignUp (x := e.offset))
  have hge := le_alignUp (S.coe_pos a) (x := alignUp e.free e.offset)
  omega

/-- Place one block. A block aligned to more than `free` costs padding that depends on the base. -/
def advance (e : Estimate S M) (q : Block S) : Estimate S M :=
  if h : q.align ≤ e.free then
    { e with offset := alignUp q.align e.offset + q.size }
  else
    let old := alignUp e.free e.offset
    let start := alignUp q.align old
    { offset := start + q.size
      free := q.align
      extra := e.extra + (q.align - (start - old) - e.free)
      le_free := e.le_free.trans (not_le.1 h).le
      extra_le := by
        have hpad := e.padding_add_free_le (not_le.1 h).le
        have hextra := e.extra_le
        omega }

/-- Place a list of blocks. -/
def run (M : S) (qs : List (Block S)) : Estimate S M := qs.foldl advance init

/-- The last request comes last. -/
@[simp] lemma run_concat {qs : List (Block S)} {q : Block S} :
    run M (qs ++ [q]) = (run M qs).advance q := List.foldl_concat ..

/-- A request that is not over-aligned only moves the offset. -/
lemma advance_of_le {e : Estimate S M} {q : Block S} (h : q.align ≤ e.free) :
    e.advance q = { e with offset := Bump.advance e.offset q } := by
  rw [advance, dif_pos h]
  rfl

/-- The offset of an estimate is the cursor of a run from base zero. -/
@[simp] lemma offset_advance {e : Estimate S M} {q : Block S} :
    (e.advance q).offset = Bump.advance e.offset q := by
  rw [advance]
  split
  case isTrue => rfl
  case isFalse h =>
    dsimp only
    rw [alignUp_alignUp (S.coe_pos _) q.align_pos (S.dvd (not_le.1 h).le)]
    rfl

/-- The free alignment is the largest so far. -/
@[simp] lemma free_advance {e : Estimate S M} {q : Block S} :
    (e.advance q).free = max e.free q.align := by
  rw [advance]
  split
  case isTrue h => exact (max_eq_left h).symm
  case isFalse h => exact (max_eq_right (not_le.1 h).le).symm

/-- A raise adds what the padding leaves of the step in alignment. -/
lemma extra_advance_of_lt {e : Estimate S M} {q : Block S} (h : e.free < q.align) :
    (e.advance q).extra = e.extra + (q.align -
      (alignUp q.align (alignUp e.free e.offset) - alignUp e.free e.offset) - e.free) := by
  rw [advance, dif_neg (not_le.2 h)]

/-- A raise pays the padding and the extra padding out of the step in alignment. -/
lemma extra_advance {e : Estimate S M} {q : Block S} (h : e.free < q.align) :
    (e.advance q).extra + alignUp q.align e.offset + e.free =
      e.extra + alignUp e.free e.offset + q.align := by
  have hpad := e.padding_add_free_le h.le
  have hge := le_alignUp q.align_pos (x := alignUp e.free e.offset)
  rw [extra_advance_of_lt h]
  rw [alignUp_alignUp (S.coe_pos _) q.align_pos (S.dvd h.le)] at hpad hge ⊢
  omega

/-- The offset runs like a cursor from any estimate. -/
lemma offset_foldl {e : Estimate S M} {qs : List (Block S)} :
    (qs.foldl advance e).offset = finish e.offset qs := by
  induction qs generalizing e with
  | nil => rfl
  | cons q qs ih => rw [List.foldl_cons, ih, offset_advance, finish_cons]

/-- The offset is where a run from zero ends. -/
@[simp] lemma offset_run {qs : List (Block S)} : (run M qs).offset = finish 0 qs := offset_foldl

/-- No request is more aligned than the free alignment. -/
lemma align_le_free {qs : List (Block S)} {q : Block S} (hq : q ∈ qs) :
    q.align ≤ (run M qs).free := by
  induction qs using List.reverseRecOn with
  | nil => cases hq
  | append_singleton qs p ih =>
    rw [run_concat, free_advance]
    cases List.mem_append.1 hq with
    | inl hq => exact (ih hq).trans (le_max_left _ _)
    | inr hq =>
      rw [List.mem_singleton.1 hq]
      exact le_max_right _ _

/-- The size never shrinks. -/
lemma size_le_foldl {e : Estimate S M} {qs : List (Block S)} :
    e.size ≤ (qs.foldl advance e).size := by
  induction qs generalizing e with
  | nil => rfl
  | cons q qs ih =>
    refine le_trans ?_ (ih (e := e.advance q))
    rw [advance]
    split
    all_goals simp only [size]
    · exact Nat.add_le_add_right (Nat.le_add_right_of_le (le_alignUp q.align_pos)) _
    · have hfree := le_alignUp (S.coe_pos e.free) (x := e.offset)
      have halign := le_alignUp q.align_pos (x := alignUp e.free e.offset)
      omega

/-- An estimate follows the cursor `x` of a run from the base `b`. -/
structure Tracks (b : ℕ) (e : Estimate S M) (x : ℕ) : Prop where
  residue : x ≡ e.offset [MOD e.free]
  upper : x ≤ b + e.size
  lower : b + e.size + M ≤ x + e.free
  exact : (e.free : ℕ) ∣ b → x = b + e.offset

/-- An aligned base is tracked before the first request. -/
lemma tracks_init {b : ℕ} (hb : (M : ℕ) ∣ b) : Tracks b (init : Estimate S M) b where
  residue := (Nat.modEq_zero_iff_dvd.2 hb)
  upper := le_rfl
  lower := le_rfl
  exact _ := rfl

/-- A request that is not over-aligned: cursor and offset move alike. -/
lemma Tracks.advance_of_le {b x : ℕ} {e : Estimate S M} {q : Block S} (tr : Tracks b e x)
    (h : q.align ≤ e.free) : Tracks b (e.advance q) (Bump.advance x q) := by
  have hcongr := alignUp_congr q.align_pos (tr.residue.of_dvd (S.dvd h))
  rw [Estimate.advance_of_le h]
  refine ⟨?_, ?_, ?_, ?_⟩ <;> simp only [size, Bump.advance]
  · apply Nat.ModEq.add_right
    apply Nat.ModEq.add_right_cancel' e.offset
    rw [hcongr]
    exact tr.residue.add_left _
  · have := tr.upper
    simp only [size] at this
    omega
  · have := tr.lower
    simp only [size] at this
    omega
  · intro hb
    have := tr.exact hb
    omega

/-- An over-aligned request: the extra padding pays for what the cursor skips. -/
lemma Tracks.advance_of_lt {b x : ℕ} {e : Estimate S M} {q : Block S} (tr : Tracks b e x)
    (h : e.free < q.align) : Tracks b (e.advance q) (Bump.advance x q) := by
  have hfree := S.coe_pos e.free
  have hdvd := S.dvd h.le
  have hextra := extra_advance h
  -- first to the old alignment, where cursor and offset still move together
  have hcongr := alignUp_congr hfree tr.residue
  -- then on to the new one, where the cursor may skip less than the estimate allows for
  have hskip := alignUp_add_le hdvd q.align_pos (dvd_alignUp (a := e.free) (x := x))
  have hge := le_alignUp q.align_pos (x := alignUp e.free x)
  rw [alignUp_alignUp hfree q.align_pos hdvd] at hskip hge
  have hupper := tr.upper
  have hlower := tr.lower
  refine ⟨?_, ?_, ?_, ?_⟩ <;>
    simp only [size, offset_advance, free_advance, max_eq_right h.le, Bump.advance] at *
  · exact ((Nat.modEq_zero_iff_dvd.2 dvd_alignUp).trans
      (Nat.modEq_zero_iff_dvd.2 dvd_alignUp).symm).add_right _
  · omega
  · omega
  · intro hb
    rw [tr.exact (hdvd.trans hb), alignUp_add_of_dvd q.align_pos hb, Nat.add_assoc]

/-- One request. -/
lemma Tracks.advance {b x : ℕ} {e : Estimate S M} (tr : Tracks b e x) (q : Block S) :
    Tracks b (e.advance q) (Bump.advance x q) := by
  cases le_or_gt q.align e.free with
  | inl h => exact tr.advance_of_le h
  | inr h => exact tr.advance_of_lt h

/-- The estimate of a list of blocks tracks the run from every base that `M` divides. -/
theorem tracks_run {b : ℕ} (hb : (M : ℕ) ∣ b) (qs : List (Block S)) :
    Tracks b (run M qs) (finish b qs) := by
  induction qs using List.reverseRecOn with
  | nil => exact tracks_init hb
  | append_singleton qs q ih =>
    rw [run_concat, finish_append]
    exact ih.advance q

/-- Some base below the largest alignment needs every byte of the estimate. -/
theorem exists_worst (qs : List (Block S)) :
    ∃ b, (M : ℕ) ∣ b ∧ b < (run M qs).free ∧ finish b qs = b + (run M qs).size := by
  induction qs using List.reverseRecOn with
  | nil => exact ⟨0, dvd_zero _, S.coe_pos M, rfl⟩
  | append_singleton qs q ih =>
    obtain ⟨b, hMb, hb, hworst⟩ := ih
    have tr := tracks_run hMb qs
    rw [run_concat]
    set e := run M qs with he
    cases le_or_gt q.align e.free with
    | inl h =>
      -- the same base stays the worst one
      have hcongr := alignUp_congr q.align_pos (tr.residue.of_dvd (S.dvd h))
      refine ⟨b, hMb, by simpa [max_eq_left h] using hb, ?_⟩
      rw [Estimate.advance_of_le h]
      simp only [size, finish_append, finish_cons, finish_nil, Bump.advance] at hworst ⊢
      omega
    | inr h =>
      -- move the base by a multiple of the old alignment, so that the raise skips the most
      have hfree := S.coe_pos e.free
      have hdvd := S.dvd h.le
      have hcongr := alignUp_congr hfree tr.residue
      obtain ⟨d, hfd, hda, hskip⟩ := exists_alignUp_worst hfree hdvd q.align_pos
        (dvd_alignUp (a := e.free) (x := finish b qs))
      have hroom : d + e.free ≤ q.align := by
        obtain ⟨u, rfl⟩ := hfd
        obtain ⟨v, hv⟩ := hdvd
        rw [hv] at hda ⊢
        rw [← Nat.mul_succ]
        exact Nat.mul_le_mul_left _ (Nat.lt_of_mul_lt_mul_left hda)
      have hshift : finish (d + b) qs = d + finish b qs :=
        finish_add fun p hp => (S.dvd (align_le_free hp)).trans hfd
      have hextra := extra_advance h
      refine ⟨d + b, Nat.dvd_add ((S.dvd e.le_free).trans hfd) hMb, ?_, ?_⟩
      · rw [free_advance, max_eq_right h.le]
        omega
      · rw [finish_append, hshift, finish_cons, finish_nil, Bump.advance,
          ← alignUp_alignUp hfree q.align_pos hdvd, alignUp_add_of_dvd hfree hfd]
        rw [Nat.add_comm (alignUp _ _) d] at hskip
        simp only [size, offset_advance, Bump.advance] at hworst ⊢
        omega

/-- Every window of bases that is a multiple of all alignments wide has a worst one. -/
lemma exists_worst_from {a lo : ℕ} {qs : List (Block S)} (ha : 0 < a) (hM : (M : ℕ) ∣ a)
    (hqs : ∀ q ∈ qs, (q.align : ℕ) ∣ a) (hlo : (M : ℕ) ∣ lo) :
    ∃ d, (M : ℕ) ∣ d ∧ d < a ∧ finish (lo + d) qs = lo + d + (run M qs).size := by
  obtain ⟨b, hb, -, hworst⟩ := exists_worst (M := M) qs
  have hlt := Nat.mod_lt lo ha
  refine ⟨(b + (a - lo % a)) % a, ?_, Nat.mod_lt _ ha, ?_⟩
  · have hrest := Nat.dvd_sub hM ((Nat.dvd_mod_iff hM).2 hlo)
    exact (Nat.dvd_mod_iff hM).2 (Nat.dvd_add hb hrest)
  · have hmod : lo + (b + (a - lo % a)) % a ≡ b [MOD a] := by
      have hsplit := Nat.div_add_mod lo a
      have hsum : lo + (b + (a - lo % a)) = b + a * (lo / a + 1) := by
        rw [Nat.mul_succ]
        omega
      calc
        lo + (b + (a - lo % a)) % a ≡ lo + (b + (a - lo % a)) [MOD a] :=
          (Nat.mod_modEq _ _).add_left lo
        _ = b + a * (lo / a + 1) := hsum
        _ ≡ b [MOD a] := (Nat.modEq_zero_iff_dvd.2 (Nat.dvd_mul_right _ _)).add_left b
    have hcongr := finish_congr hqs hmod
    omega

end Estimate

end Bump
