import Mathlib.Logic.Function.Iterate
import Mathlib.Order.Monotone.Basic
import Saco.Build.Requests
import Saco.Bump.Extents
import Saco.Layout.Simulation

/-!
# Where a plan puts its objects

`Plan.placements` is what a construct pass does in exact arithmetic when its cursor stands at `x`: it asks
for space and builds objects, each at an address of its own. `packed_placements`: whatever the plan, its
objects are aligned, disjoint, and between the cursors before and after.
-/

namespace Saco.Build
open Arith Bump Exec Layout

/-- An object that a plan builds. -/
structure Object where
  depth : ℕ
  T : CxxType
  address : ℕ

/-- The bytes of an object. -/
def Object.extent (o : Object) : Extent powersOfTwo := ⟨(TypedRequest.object o.T).block, o.address⟩

def Object.stop (o : Object) : ℕ := o.extent.stop

/-- A step of the construct pass. -/
inductive Placement where
  | space (t : TypedRequest)
  | object (o : Object)

/-- What a placement logs. -/
def Placement.event : Placement → Event
  | .space t => .request t.request
  | .object o => .construct o.depth (BitVec.ofNat 64 o.address)

/-- The blocks that are asked for. -/
def blocksIn (ps : List Placement) : List (Block powersOfTwo) :=
  ps.filterMap fun
    | .space t => some t.block
    | .object _ => none

/-- The objects that are built. -/
def objectsIn (ps : List Placement) : List Object :=
  ps.filterMap fun
    | .space _ => none
    | .object o => some o

section

variable {ps ps' : List Placement} {t : TypedRequest} {o : Object}

/-- No blocks. -/
@[simp] lemma blocksIn_nil : blocksIn [] = [] := rfl

/-- A space is a block. -/
@[simp] lemma blocksIn_space : blocksIn (.space t :: ps) = t.block :: blocksIn ps := rfl

/-- An object takes no block of its own. -/
@[simp] lemma blocksIn_object : blocksIn (.object o :: ps) = blocksIn ps := rfl

/-- The blocks of two parts. -/
@[simp] lemma blocksIn_append : blocksIn (ps ++ ps') = blocksIn ps ++ blocksIn ps' :=
  List.filterMap_append

/-- No objects. -/
@[simp] lemma objectsIn_nil : objectsIn [] = [] := rfl

/-- A space is not an object. -/
@[simp] lemma objectsIn_space : objectsIn (.space t :: ps) = objectsIn ps := rfl

/-- The objects of two parts. -/
@[simp] lemma objectsIn_append : objectsIn (ps ++ ps') = objectsIn ps ++ objectsIn ps' :=
  List.filterMap_append

end

mutual

/-- The calls of `allocate_space` in the construct pass over a plan. -/
def Plan.typed : Plan → List TypedRequest
  | .place T children => .object T :: typedAll children
  | .placeForOverwrite T => [.object T]
  | .placeArray T count children =>
    if count = 0 then
      []
    else
      .array T count :: (List.replicate count.toNat (typedAll children)).flatten
  | .placeForOverwriteArray T count => if count = 0 then [] else [.array T count]
  | .allocateSpace t => [t]

def typedAll : List Plan → List TypedRequest
  | [] => []
  | plan :: plans => plan.typed ++ typedAll plans

end

/-- The exact extents that a plan asks for. -/
def Plan.blocks (plan : Plan) : List (Block powersOfTwo) := plan.typed.map TypedRequest.block

def blocksAll (plans : List Plan) : List (Block powersOfTwo) := (typedAll plans).map TypedRequest.block

mutual

/-- The steps of a construct pass whose cursor stands at `x`. -/
def Plan.placements (depth x : ℕ) : Plan → List Placement
  | .place T children =>
    .space (.object T) ::
      (placementsAll (depth + 1) (advance x (TypedRequest.object T).block) children ++
        [.object ⟨depth, T, alignUp T.alignof.nat x⟩])
  | .placeForOverwrite T => [.space (.object T), .object ⟨depth, T, alignUp T.alignof.nat x⟩]
  | .placeArray T count children =>
    if count = 0 then
      []
    else
      .space (.array T count) :: (List.range count.toNat).flatMap fun i =>
        placementsAll (depth + 1)
            ((finish · (blocksAll children))^[i] (advance x (TypedRequest.array T count).block)) children ++
          [.object ⟨depth, T, alignUp T.alignof.nat x + T.sizeof.toNat * i⟩]
  | .placeForOverwriteArray T count =>
    if count = 0 then
      []
    else
      .space (.array T count) :: (List.range count.toNat).map fun i =>
        .object ⟨depth, T, alignUp T.alignof.nat x + T.sizeof.toNat * i⟩
  | .allocateSpace t => [.space t]

/-- One call after the other. -/
def placementsAll (depth x : ℕ) : List Plan → List Placement
  | [] => []
  | plan :: plans => plan.placements depth x ++ placementsAll depth (finish x plan.blocks) plans

end

/-- From the cursor `x` on, every object is built in space that was asked for before. -/
inductive Ordered : ℕ → List Placement → Prop where
  | nil {x} :
    Ordered x []
  | space {x t ps} :
    Ordered (advance x t.block) ps →
    Ordered x (.space t :: ps)
  | object {x o ps} :
    o.stop ≤ x →
    Ordered x ps →
    Ordered x (.object o :: ps)

/-! ## The requests -/

mutual

/-- The requests of the construct pass, on machine words. -/
lemma request_typed : (plan : Plan) → plan.typed.map TypedRequest.request = plan.requests true
  | .place T children => by
    rw [Plan.typed, Plan.requests, List.map_cons, request_typedAll children]
  | .placeForOverwrite T => by
    rw [Plan.typed, Plan.requests]
    rfl
  | .placeArray T count children => by
    rw [Plan.typed, Plan.requests]
    split
    case isTrue => rfl
    case isFalse =>
      rw [List.map_cons, List.map_flatten, List.map_replicate, request_typedAll children]
      rfl
  | .placeForOverwriteArray T count => by
    rw [Plan.typed, Plan.requests]
    split
    case isTrue => rfl
    case isFalse => rfl
  | .allocateSpace t => by
    rw [Plan.typed, Plan.requests]
    rfl

/-- The typed requests of several calls are those of the construct pass. -/
lemma request_typedAll : (plans : List Plan) →
    (typedAll plans).map TypedRequest.request = requestsAll true plans
  | [] => by
    rw [typedAll, requestsAll]
    rfl
  | plan :: plans => by
    rw [typedAll, requestsAll, List.map_append, request_typed plan, request_typedAll plans]

end

variable {T : CxxType} {count : SizeT} {children plans : List Plan} {plan : Plan} {depth x : ℕ}

/-- The block of the object comes first. -/
lemma Plan.blocks_place : (Plan.place T children).blocks =
    (TypedRequest.object T).block :: blocksAll children := by
  rw [Plan.blocks, Plan.typed]
  rfl

/-- The blocks of the first call come first. -/
lemma blocksAll_cons : blocksAll (plan :: plans) = plan.blocks ++ blocksAll plans := by
  rw [blocksAll, typedAll, List.map_append]
  rfl

/-- One block for the array, then those of each element. -/
lemma Plan.blocks_placeArray (hcount : count ≠ 0) : (Plan.placeArray T count children).blocks =
    (TypedRequest.array T count).block ::
      (List.replicate count.toNat (blocksAll children)).flatten := by
  rw [Plan.blocks, Plan.typed, if_neg hcount, List.map_cons, List.map_flatten, List.map_replicate]
  rfl

/-- One block for the array, and none for its elements. -/
lemma Plan.blocks_placeForOverwriteArray (hcount : count ≠ 0) :
    (Plan.placeForOverwriteArray T count).blocks = [(TypedRequest.array T count).block] := by
  rw [Plan.blocks, Plan.typed, if_neg hcount]
  rfl

/-- A list of blocks again and again. -/
lemma finish_replicate {bs : List (Block powersOfTwo)} {n : ℕ} :
    finish x (List.replicate n bs).flatten = (finish · bs)^[n] x := by
  induction n generalizing x with
  | zero => rfl
  | succ n ih =>
    rw [List.replicate_succ, List.flatten_cons, finish_append, ih, Function.iterate_succ_apply]

/-- Parts with the same blocks. -/
lemma blocksIn_flatMap {f : ℕ → List Placement} {bs : List (Block powersOfTwo)}
    (hf : ∀ i, blocksIn (f i) = bs) (n : ℕ) :
    blocksIn ((List.range n).flatMap f) = (List.replicate n bs).flatten := by
  rw [blocksIn, List.filterMap_flatMap]
  change (List.range n).flatMap (fun i => blocksIn (f i)) = _
  simp only [hf, List.flatMap_def, List.map_const', List.length_range]

/-- Objects take no blocks. -/
lemma blocksIn_objects {f : ℕ → Object} {is : List ℕ} :
    blocksIn (is.map fun i => .object (f i)) = [] := by
  rw [blocksIn, List.filterMap_map]
  exact List.filterMap_eq_nil_iff.2 fun _ _ => rfl

mutual

/-- The steps ask for the blocks of the plan. -/
lemma blocksIn_placements (depth x : ℕ) : (plan : Plan) →
    blocksIn (plan.placements depth x) = plan.blocks
  | .place T children => by
    rw [Plan.placements, Plan.blocks_place, blocksIn_space, blocksIn_append, blocksIn_placementsAll,
      blocksIn_object, blocksIn_nil, List.append_nil]
  | .placeForOverwrite T => by
    rw [Plan.placements, Plan.blocks, Plan.typed]
    rfl
  | .placeArray T count children => by
    rw [Plan.placements]
    split
    case isTrue hcount =>
      rw [Plan.blocks, Plan.typed, if_pos hcount]
      rfl
    case isFalse hcount =>
      rw [Plan.blocks_placeArray hcount, blocksIn_space, blocksIn_flatMap]
      intro i
      rw [blocksIn_append, blocksIn_placementsAll, blocksIn_object, blocksIn_nil, List.append_nil]
  | .placeForOverwriteArray T count => by
    rw [Plan.placements]
    split
    case isTrue hcount =>
      rw [Plan.blocks, Plan.typed, if_pos hcount]
      rfl
    case isFalse hcount =>
      rw [Plan.blocks_placeForOverwriteArray hcount, blocksIn_space, blocksIn_objects]
  | .allocateSpace t => by
    rw [Plan.placements, Plan.blocks, Plan.typed]
    rfl

/-- The placements of several calls take the blocks of these calls. -/
lemma blocksIn_placementsAll (depth x : ℕ) : (plans : List Plan) →
    blocksIn (placementsAll depth x plans) = blocksAll plans
  | [] => by
    rw [placementsAll, blocksAll, typedAll]
    rfl
  | plan :: plans => by
    rw [placementsAll, blocksAll_cons, blocksIn_append, blocksIn_placements, blocksIn_placementsAll]

end

/-! ## The objects -/

/-- The extents of two parts. -/
lemma extents_append {ps ps' : List Placement} : (objectsIn (ps ++ ps')).map Object.extent =
    (objectsIn ps).map Object.extent ++ (objectsIn ps').map Object.extent := by
  rw [objectsIn_append, List.map_append]

/-- The extents of one part after the other. -/
lemma extents_flatMap {is : List ℕ} {f : ℕ → List Placement} :
    (objectsIn (is.flatMap f)).map Object.extent =
      is.flatMap fun i => (objectsIn (f i)).map Object.extent := by
  rw [objectsIn, List.filterMap_flatMap, List.map_flatMap]
  rfl

/-- The extents of the elements of an array. -/
lemma extents_objects {is : List ℕ} {f : ℕ → Object} :
    (objectsIn (is.map fun i => .object (f i))).map Object.extent = is.map fun i => (f i).extent := by
  rw [objectsIn, List.filterMap_map, List.map_filterMap]
  exact congrFun List.filterMap_eq_map is

/-- The cursor never moves back. -/
lemma cursor_le_advance (x : ℕ) (b : Block powersOfTwo) : x ≤ advance x b :=
  (Nat.le_add_right x b.size).trans (le_advance x b)

/-- An object fits the space that was taken for it. -/
lemma packed_object (T : CxxType) (depth x : ℕ) : Packed x (advance x (TypedRequest.object T).block)
    [(⟨depth, T, alignUp T.alignof.nat x⟩ : Object).extent] :=
  .one dvd_alignUp (le_alignUp (powersOfTwo.coe_pos _)) le_rfl

/-- The elements of an array lie side by side in the space that was taken for it. -/
lemma packed_elements (T : CxxType) (count : SizeT) (depth x : ℕ) :
    Packed x (advance x (TypedRequest.array T count).block) ((List.range count.toNat).map fun i =>
      (⟨depth, T, alignUp T.alignof.nat x + T.sizeof.toNat * i⟩ : Object).extent) := by
  have hpacked := Packed.array (S := powersOfTwo) (q := (TypedRequest.object T).block)
    (a := alignUp T.alignof.nat x) (n := count.toNat) dvd_alignUp T.alignof_dvd
  exact hpacked.mono (le_alignUp (powersOfTwo.coe_pos _)) le_rfl

/-- The cursors before the children of the elements of an array. -/
lemma monotone_cursor {bs : List (Block powersOfTwo)} : Monotone fun i => (finish · bs)^[i] x := by
  refine monotone_nat_of_le_succ fun i => ?_
  rw [Function.iterate_succ_apply']
  exact le_finish _ bs

/-- The children of every element are put behind the array. -/
lemma packed_array {bs : List (Block powersOfTwo)} {f : ℕ → List Placement} (depth x : ℕ)
    (hf : ∀ y, Packed y (finish y bs) ((objectsIn (f y)).map Object.extent)) :
    Packed x (finish (advance x (TypedRequest.array T count).block)
        (List.replicate count.toNat bs).flatten)
      ((objectsIn ((List.range count.toNat).flatMap fun i =>
        f ((finish · bs)^[i] (advance x (TypedRequest.array T count).block)) ++
          [.object ⟨depth, T, alignUp T.alignof.nat x + T.sizeof.toNat * i⟩])).map Object.extent) := by
  rw [finish_replicate, extents_flatMap]
  simp only [extents_append]
  -- the elements fill the array, and the children are a chain of blocks behind it
  refine (packed_elements T count depth x).interleave ?_ (cursor_le_advance _ _)
    (monotone_cursor (Nat.zero_le _))
  refine Packed.chain (fun i => ?_) monotone_cursor _
  rw [Function.iterate_succ_apply']
  exact hf _

mutual

/-- The objects of a plan are aligned and disjoint, and lie between the cursors. -/
lemma packed_placements (depth x : ℕ) : (plan : Plan) →
    Packed x (finish x plan.blocks) ((objectsIn (plan.placements depth x)).map Object.extent)
  | .place T children => by
    rw [Plan.placements, Plan.blocks_place, objectsIn_space, extents_append, finish_cons]
    -- in memory the children are behind the object, but they are built before it
    have hchildren := packed_placementsAll (depth + 1) (advance x (TypedRequest.object T).block) children
    have hpacked := (packed_object T depth x).append hchildren (cursor_le_advance _ _) (le_finish _ _)
    exact hpacked.perm List.perm_append_comm
  | .placeForOverwrite T => by
    rw [Plan.placements, Plan.blocks, Plan.typed]
    exact packed_object T depth x
  | .placeArray T count children => by
    rw [Plan.placements]
    split
    case isTrue => exact .nil
    case isFalse hcount =>
      rw [Plan.blocks_placeArray hcount, objectsIn_space, finish_cons]
      exact packed_array depth x fun y => packed_placementsAll (depth + 1) y children
  | .placeForOverwriteArray T count => by
    rw [Plan.placements]
    split
    case isTrue => exact .nil
    case isFalse hcount =>
      rw [Plan.blocks_placeForOverwriteArray hcount, objectsIn_space, extents_objects]
      exact packed_elements T count depth x
  | .allocateSpace t => by
    rw [Plan.placements]
    exact .nil

/-- The objects of several calls are packed behind the cursor. -/
lemma packed_placementsAll (depth x : ℕ) : (plans : List Plan) →
    Packed x (finish x (blocksAll plans)) ((objectsIn (placementsAll depth x plans)).map Object.extent)
  | [] => by
    rw [placementsAll]
    exact .nil
  | plan :: plans => by
    rw [placementsAll, blocksAll_cons, extents_append, finish_append]
    exact (packed_placements depth x plan).append
      (packed_placementsAll depth (finish x plan.blocks) plans) (le_finish _ _) (le_finish _ _)

end

/-! ## The order of the steps -/

section

variable {ps ps' : List Placement}

/-- One part after the other. -/
lemma Ordered.append (h : Ordered x ps) (h' : Ordered (finish x (blocksIn ps)) ps') :
    Ordered x (ps ++ ps') := by
  induction h with
  | nil => exact h'
  | space _ ih => exact .space (ih h')
  | object hstop _ ih => exact .object hstop (ih h')

/-- The beginning of what is ordered. -/
lemma Ordered.of_append (h : Ordered x (ps ++ ps')) : Ordered x ps := by
  induction ps generalizing x with
  | nil => exact .nil
  | cons p ps ih =>
    cases h with
    | space h => exact .space (ih h)
    | object hstop h => exact .object hstop (ih h)

/-- Objects end at or before the cursor. -/
lemma Ordered.stop_le (h : Ordered x ps) : ∀ o ∈ objectsIn ps, o.stop ≤ finish x (blocksIn ps) := by
  induction h with
  | nil => exact nofun
  | space _ ih => exact ih
  | @object x o ps hstop _ ih =>
    intro o' ho'
    cases ho' with
    | head => exact hstop.trans (le_finish _ _)
    | tail _ ho' => exact ih o' ho'

/-- Objects in space that was asked for. -/
lemma ordered_objects {is : List ℕ} {f : ℕ → Object} (h : ∀ i ∈ is, (f i).stop ≤ x) :
    Ordered x (is.map fun i => .object (f i)) := by
  induction is with
  | nil => exact .nil
  | cons i is ih =>
    obtain ⟨hi, his⟩ := List.forall_mem_cons.1 h
    exact .object hi (ih his)

/-- The steps of one element after the other. -/
lemma ordered_flatMap {f : ℕ → ℕ → List Placement} {bs : List (Block powersOfTwo)}
    (hblocks : ∀ i y, blocksIn (f i y) = bs) (n : ℕ) (hf : ∀ i < n, ∀ y, x ≤ y → Ordered y (f i y)) :
    Ordered x ((List.range n).flatMap fun i => f i ((finish · bs)^[i] x)) := by
  induction n with
  | zero => exact .nil
  | succ n ih =>
    rw [List.range_succ, List.flatMap_append, List.flatMap_singleton]
    refine (ih fun i hi => hf i (Nat.lt_succ_of_lt hi)).append ?_
    rw [blocksIn_flatMap (fun i => hblocks i _), finish_replicate]
    exact hf n (Nat.lt_succ_self n) _ (monotone_cursor (Nat.zero_le n))

end

/-- An element ends in the space of its array. -/
lemma stop_element {i : ℕ} (hi : i < count.toNat) :
    (⟨depth, T, alignUp T.alignof.nat x + T.sizeof.toNat * i⟩ : Object).stop ≤
      advance x (TypedRequest.array T count).block := by
  refine ((packed_elements T count depth x).within _ ?_).2
  exact List.mem_map.2 ⟨i, List.mem_range.2 hi, rfl⟩

mutual

/-- Every object lies in space that was taken before it was built. -/
lemma ordered_placements (depth x : ℕ) : (plan : Plan) → Ordered x (plan.placements depth x)
  | .place T children => by
    rw [Plan.placements]
    refine .space ((ordered_placementsAll _ _ children).append (.object ?_ .nil))
    exact le_finish _ _
  | .placeForOverwrite T => by
    rw [Plan.placements]
    exact .space (.object le_rfl .nil)
  | .placeArray T count children => by
    rw [Plan.placements]
    split
    case isTrue => exact .nil
    case isFalse =>
      refine .space (ordered_flatMap (f := fun i y => placementsAll (depth + 1) y children ++
        [.object ⟨depth, T, alignUp T.alignof.nat x + T.sizeof.toNat * i⟩]) (fun i y => ?_) _
        fun i hi y hy => ?_)
      · rw [blocksIn_append, blocksIn_placementsAll, blocksIn_object, blocksIn_nil, List.append_nil]
      · refine (ordered_placementsAll _ _ children).append (.object ?_ .nil)
        exact (stop_element hi).trans (hy.trans (le_finish _ _))
  | .placeForOverwriteArray T count => by
    rw [Plan.placements]
    split
    case isTrue => exact .nil
    case isFalse => exact .space (ordered_objects fun i hi => stop_element (List.mem_range.1 hi))
  | .allocateSpace t => by
    rw [Plan.placements]
    exact .space .nil

/-- The objects of several calls lie in space that was taken before them. -/
lemma ordered_placementsAll (depth x : ℕ) : (plans : List Plan) → Ordered x (placementsAll depth x plans)
  | [] => by
    rw [placementsAll]
    exact .nil
  | plan :: plans => by
    rw [placementsAll]
    refine (ordered_placements depth x plan).append ?_
    rw [blocksIn_placements]
    exact ordered_placementsAll depth _ plans

end

end Saco.Build
