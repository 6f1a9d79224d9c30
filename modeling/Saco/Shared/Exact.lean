import Saco.Build.Exact
import Saco.Shared.Ownership
import Saco.Shared.Paths

/-!
# What `build_shared` does, event by event

The logs of `build_shared` for a plan that fits, on both of its paths. A small object is measured once and
takes one allocation. A large one is measured twice, by `build_shared` and by `build_unique`, and takes a
second allocation for the control block; if that fails, the object is destroyed again. On either path a
run returns unless one of its steps throws.
-/

namespace Saco.Shared
open Arith Bump Build Exec Layout

variable {S : Type} {env : Env} {T : HeadType env.cfg} {children : List Plan} {size : SizeT}

/-- `plan` was measured, a `shared_buffer` of at least `size` bytes was obtained, and the plan was
constructed in its storage. -/
def BuiltEmbedded (env : Env) (T : CxxType) (plan : Plan) (size : SizeT) (m : Managed)
    (es : List Event) : Prop :=
  ∃ time N, size ≤ N ∧
    m = .buffer ⟨N, env.operatorNew time, env.storage (env.operatorNew time)⟩
      (setDtorFn T.hasVirtualDestructor (.init (env.storage (env.operatorNew time)))) ∧
    es = plan.measured ++ .obtain (env.operatorNew time) (.sharedBuffer N) ::
      plan.constructed (env.storage (env.operatorNew time)) ∧
    PackedIn (env.storage (env.operatorNew time)) size
      (plan.placements 0 (env.storage (env.operatorNew time)).toNat)

/-- An exception has ended this on the way, and the buffer was freed. -/
def LostEmbedded (env : Env) (plan : Plan) (size : SizeT) (es : List Event) : Prop :=
  es <+: plan.measured ∨ ∃ time N done, size ≤ N ∧
    done <+: plan.placements 0 (env.storage (env.operatorNew time)).toNat ∧
    es = plan.measured ++ .obtain (env.operatorNew time) (.sharedBuffer N) ::
      (done.map Placement.event ++ [.free (env.operatorNew time)]) ∧
    PackedIn (env.storage (env.operatorNew time)) size done

/-- `plan` was measured, built by `build_unique`, and a control block was obtained. -/
def BuiltConverted (env : Env) (plan : Plan) (size : SizeT) (m : Managed) (es : List Event) : Prop :=
  ∃ obj time es', m = .unique obj (env.operatorNew time) ∧ plan.BuiltUnique env size obj es' ∧
    es = plan.measured ++ (es' ++ [.obtain (env.operatorNew time) .controlBlock])

/-- An exception has ended this on the way. Where there was no memory for the control block, the object
was destroyed and its block freed. -/
def LostConverted (env : Env) (plan : Plan) (size : SizeT) (es : List Event) : Prop :=
  es <+: plan.measured ∨ ∃ es', es = plan.measured ++ es' ∧
    (plan.LostUnique env size es' ∨
      ∃ obj es'', plan.BuiltUnique env size obj es'' ∧ es' = es'' ++ [.destroy obj, .free obj])

/-! ## The embedded path -/

/-- In storage that is large enough. -/
lemma logs_buildIn {sp : SharedBuffer}
    (hfin : finish sp.storage.toNat (Plan.place T.toCxxType children).blocks ≤
      sp.storage.toNat + size.toNat) (hfit : sp.storage.toNat + size.toNat < 2 ^ 64)
    (hhead : T.alignof.value.toNat ∣ sp.storage.toNat) :
    Meets (buildIn env T.toCxxType children size sp : Program Abort Event S Managed)
      (Safely (fun m es => m = .buffer sp (setDtorFn T.hasVirtualDestructor sp.header) ∧
          es = (Plan.place T.toCxxType children).constructed sp.storage)
        fun es => ∃ done, done <+: (Plan.place T.toCxxType children).placements 0 sp.storage.toNat ∧
          es = done.map Placement.event ++ [.free sp.block]) := by
  have hdispose : ∀ header, Meets (forM (Managed.buffer sp header).dispose emit :
      Program Abort Event S Unit) fun _ r es _ => r = .ok () ∧ es = (Managed.buffer sp header).dispose :=
    fun header => Meets.emitAll _
  have hconstruct : Meets (unwinding Abort.unwinds (forM (Managed.buffer sp sp.header).dispose emit)
      (construct env T.toCxxType children sp.storage size) : Program Abort Event S SizeT)
      (Safely (fun p es => p = sp.storage ∧ es = (Plan.place T.toCxxType children).constructed sp.storage)
        fun es => ∃ done, done <+: (Plan.place T.toCxxType children).placements 0 sp.storage.toNat ∧
          es = done.map Placement.event ++ [.free sp.block]) := by
    refine Safely.unwinding (logs_construct hfin hfit hhead) (hdispose sp.header) fun es h => ?_
    obtain ⟨done, hdone, rfl⟩ := h
    exact ⟨done, hdone, rfl⟩
  refine Safely.bind hconstruct (fun object => ?_) (fun object es h => ?_) fun es h => h
  · exact .bind (enters_check.appends.unwinding (hdispose _).appends) fun _ => .pure
  · obtain ⟨rfl, rfl⟩ := h
    have hheader : ({ sp.header with object := sp.storage } : SharedBufferHeader) = sp.header := rfl
    have hobject : (setDtorFn T.hasVirtualDestructor sp.header).object = sp.header.object := by
      cases T.hasVirtualDestructor <;> rfl
    rw [hheader]
    have hcheck : Meets (check env.cfg "sp->object == original_address"
        ((setDtorFn T.hasVirtualDestructor sp.header).object == sp.header.object) :
          Program Abort Event S Unit) (Safely (fun _ es => es = []) fun _ => False) :=
      Safely.check (by rw [hobject, beq_self_eq_true])
    -- the check does not throw, so the buffer is never disposed of here
    refine Safely.thenReturn (Safely.unwinding hcheck (hdispose _) fun _ h => h.elim) fun _ es hes => ?_
    rw [hes, List.append_nil]
    exact ⟨rfl, rfl⟩

/-- The factory logs the block of a buffer, unless there is no memory. -/
lemma logs_sharedBufferFactory {N : SizeT} (hN : 0 < N) :
    Meets (sharedBufferFactory env N : Program Abort Event S SharedBuffer)
      (Safely (fun sp es => ∃ time,
          sp = ⟨N, env.operatorNew time, env.storage (env.operatorNew time)⟩ ∧
            es = [.obtain (env.operatorNew time) (.sharedBuffer N)]) fun es => es = []) := by
  refine Safely.thenReturn logs_operatorNew fun block es h => ?_
  obtain ⟨⟨time, rfl⟩, rfl⟩ := h
  rw [if_pos hN]
  exact ⟨time, rfl, rfl⟩

section Fits

variable {mctx : MeasureContext} (fits : (Plan.place T.toCxxType children).Fits env.cfg)
  (hmctx : MeasureContext.allocateAll env.cfg ((Plan.place T.toCxxType children).requests false)
    (.init env.cfg) = .ok mctx)
  (hr : mctx.requiredSize.toNat =
    (Estimate.run env.cfg.maxNewAlignment.nat (T.block :: blocksAll children)).size)

include hr in
/-- No measured size is zero. -/
lemma measured_pos : 0 < mctx.requiredSize := by
  have hfin : (T.block.align : ℕ) ≤ finish 0 (T.block :: blocksAll children) :=
    align_le_finish_headed (List.mem_cons_self ..)
  have hpos := T.block.align_pos
  rw [BitVec.lt_def, hr, Estimate.size, Estimate.offset_run]
  exact Nat.lt_of_lt_of_le hpos (hfin.trans (Nat.le_add_right _ _))

include fits hmctx hr

/-- The object is embedded in a buffer. -/
lemma logs_embedded (hsmall : ¬maxSize < mctx.requiredSize)
    (hstorage : ∀ time, (env.storage (env.operatorNew time)).toNat + mctx.requiredSize.toNat < 2 ^ 64) :
    Meets (buildShared env T.toCxxType children : Program Abort Event S Managed)
      (Safely (BuiltEmbedded env T.toCxxType (Plan.place T.toCxxType children) mctx.requiredSize)
        (LostEmbedded env (Plan.place T.toCxxType children) mctx.requiredSize)) := by
  have hpos := measured_pos hr
  -- the buffer has the size of the class, the object only what was measured
  obtain ⟨N, hN, hle⟩ := exists_dispatch env.cfg hpos (BitVec.not_lt.1 hsmall)
  rw [buildShared_eq]
  refine Safely.bind (logs_measure hmctx) (fun _ => ?_) (fun r es h => ?_) fun es h => .inl h
  · split
    case isTrue => exact books_convertUnique.appends
    case isFalse => exact books_embed.appends
  · obtain ⟨rfl, rfl⟩ := h
    rw [if_neg hsmall, embed, alloc_of_dispatch hN]
    have hNpos : 0 < N := Nat.lt_of_lt_of_le hpos hle
    refine Safely.bind (logs_sharedBufferFactory hNpos)
      (fun _ => books_buildIn.appends) (fun sp es h => ?_) fun es h => ?_
    · obtain ⟨time, rfl, rfl⟩ := h
      have haligned := env.storage_aligned (env.operatorNew time)
      have hbase : allocRawAligned env.cfg mctx.requiredSize (env.storage (env.operatorNew time)) = true :=
        allocRawAligned_of_dvd haligned
      have hfin := finish_le_measured fits hr hbase
      refine Safely.mono (logs_buildIn hfin (hstorage time) (head_align_dvd hr hbase))
        (fun m es h => ?_) fun es h => ?_
      · obtain ⟨rfl, rfl⟩ := h
        exact ⟨time, N, hle, rfl, rfl, packedIn_of_done hfin List.prefix_rfl⟩
      · obtain ⟨done, hdone, rfl⟩ := h
        exact .inr ⟨time, N, done, hle, hdone, rfl, packedIn_of_done hfin hdone⟩
    · rw [h, List.append_nil]
      exact .inl List.prefix_rfl

/-- The object is built by `build_unique` and converted. -/
lemma logs_converted (hlarge : maxSize < mctx.requiredSize)
    (supplies : env.Supplies mctx.requiredSize) :
    Meets (buildShared env T.toCxxType children : Program Abort Event S Managed)
      (Safely (BuiltConverted env (Plan.place T.toCxxType children) mctx.requiredSize)
        (LostConverted env (Plan.place T.toCxxType children) mctx.requiredSize)) := by
  rw [buildShared_eq]
  refine Safely.bind (logs_measure hmctx) (fun _ => ?_) (fun r es h => ?_) fun es h => .inl h
  · split
    case isTrue => exact books_convertUnique.appends
    case isFalse => exact books_embed.appends
  · obtain ⟨rfl, rfl⟩ := h
    rw [if_pos hlarge]
    refine Safely.bind (logs_buildUnique fits hmctx hr supplies) (fun _ => books_convert.appends)
      (fun obj es h => ?_) fun es h => .inr ⟨es, rfl, .inl h⟩
    -- without memory for the control block the deleter runs on the finished object
    have hcontrol : Meets (unwinding Abort.unwinds (sacoDelete obj) (operatorNew env .controlBlock) :
        Program Abort Event S SizeT)
        (Safely (fun p es => (∃ time, p = env.operatorNew time) ∧ es = [.obtain p .controlBlock])
          fun es => es = [.destroy obj, .free obj]) := by
      refine Safely.unwinding logs_operatorNew meets_sacoDelete fun es h => ?_
      rw [h, List.nil_append]
    refine Safely.mono (Safely.thenReturn hcontrol fun p es' hp => ?_) (fun _ _ h => h) fun es' hes' => ?_
    · obtain ⟨⟨time, rfl⟩, rfl⟩ := hp
      exact ⟨obj, time, es, rfl, h, rfl⟩
    · subst hes'
      exact .inr ⟨_, rfl, .inr ⟨obj, es, h, rfl⟩⟩

end Fits

/-! ## The result -/

end Saco.Shared
