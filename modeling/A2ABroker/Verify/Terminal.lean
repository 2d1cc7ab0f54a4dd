import A2ABroker.Verify.Fresh

/-! # Ended tasks stay ended

Every act but an edit of the payload or the wake plan is guarded by the status, so nothing changes
how a task ended. The one way around the guards is to create a task under an id that is in use.
`createTask` returns the stored task for an id that is truthy; for the empty id it writes a new
record over it. -/

namespace A2ABroker

open Prog

variable {env : Env} {s : State}

/-- The fields that say how a task ended. -/
structure SameEnd (t t' : TaskRecord) : Prop where
  status : t'.status = t.status
  completedAt : t'.completedAt = t.completedAt
  claimedBy : t'.claimedBy = t.claimedBy
  result : t'.result = t.result
  error : t'.error = t.error
  cancellation : t'.cancellation = t.cancellation

theorem SameEnd.refl (t : TaskRecord) : SameEnd t t := ⟨rfl, rfl, rfl, rfl, rfl, rfl⟩

theorem SameEnd.trans {t t' t'' : TaskRecord} (h : SameEnd t t') (h' : SameEnd t' t'') :
    SameEnd t t'' :=
  ⟨h'.status.trans h.status, h'.completedAt.trans h.completedAt, h'.claimedBy.trans h.claimedBy,
    h'.result.trans h.result, h'.error.trans h.error, h'.cancellation.trans h.cancellation⟩

theorem SameEnd.terminal {t t' : TaskRecord} (h : SameEnd t t') (ht : t.status.terminal = true) :
    t'.status.terminal = true := h.status ▸ ht

/-- Acts on an ended task leave its end alone. -/
theorem TaskStep.sameEnd {cap : Nat} {a : Act} {t t' : TaskRecord} (h : TaskStep cap a t t')
    (ht : t.status.terminal = true) : SameEnd t t' := by
  cases h with
  | edit | heartbeat => exact ⟨rfl, rfl, rfl, rfl, rfl, rfl⟩
  | approve _ _ _ _ _ _ hopen | refuse _ _ _ _ _ _ hopen =>
    rcases hopen with hs | hs <;> rw [hs] at ht <;> cases ht
  | claim _ _ _ hs | start _ _ hs => rw [hs] at ht; cases ht
  | complete _ _ _ hactive | fail _ _ _ hactive | requeue _ hactive | deadLetter _ _ hactive =>
    cases hs : t.status <;> simp_all [TaskStatus.terminal, TaskStatus.active]
  | cancel _ _ hlive | reassign _ _ _ _ hlive => rw [ht] at hlive; cases hlive

/-! ## Runs -/

/-- Along a run, an ended task keeps its end for as long as it is retained. -/
def TerminalAbsorbed (env : Env) (ops : List Op) : Prop :=
  ∀ before after, before ++ after <+: ops → ∀ id t, (run env before).tasks.get? id = some t →
    t.status.terminal = true → RetainedOver env before after id →
    ∃ t', (run env (before ++ after)).tasks.get? id = some t' ∧ SameEnd t t'

theorem runWith_sameEnd (hinj : Function.Injective env.randomUUID) {before after : List Op}
    (h : RunWith env (fun s op => op.Names env s) (before ++ after)) {id : String} {t : TaskRecord}
    (hget : (run env before).tasks.get? id = some t) (ht : t.status.terminal = true)
    (hretained : RetainedOver env before after id) :
    ∃ t', (run env (before ++ after)).tasks.get? id = some t' ∧ SameEnd t t' :=
  run_stored (fun _ _ _ hstep hsame => hsame.trans (hstep.sameEnd (hsame.terminal ht))) hinj h hget
    (SameEnd.refl t) hretained

/-- The request returns the stored record where it is allowed, throws where it is not, and changes
nothing. -/
def ReturnsStored (allowed : Prop) (x : BrokerM TaskRecord) (s : State) (t : TaskRecord) : Prop :=
  (allowed → x s = .ok t s) ∧ (¬allowed → ∃ e, x s = .error e s)

theorem ReturnsStored.guard {x : BrokerM Unit} (hx : IsGuard x) {f : Unit → BrokerM TaskRecord}
    {t : TaskRecord} (hf : f () s = .ok t s) :
    ReturnsStored (x s = .ok () s) (x >>= f) s t := by
  refine ⟨fun hallowed => ?_, fun hrefused => ?_⟩
  · rw [bind_run_ok hallowed, hf]
  · cases h : x s with
    | ok u s' =>
      obtain rfl := hx.ok_state h
      exact absurd h hrefused
    | error e s' =>
      obtain rfl := hx.error_state h
      exact ⟨e, bind_run_error h⟩

/-- Further requests to end the task `t`, which has ended. -/
structure SecondEnd (env : Env) (s : State) (id : String) (t : TaskRecord) : Prop where
  complete : ∀ w result, ReturnsStored (assertTaskWorker env t w "complete" s = .ok () s)
    (completeTask env id w result) s t
  fail : ∀ w error, ReturnsStored (assertTaskWorker env t w "fail" s = .ok () s)
    (failTask env id w error) s t
  cancel : ∀ request, ReturnsStored (request.actor.id ≠ "" ∧ mayCancel t request.actor = true)
    (cancelTask env id request) s t

theorem secondEnd {id : String} {t : TaskRecord} (hget : s.tasks.get? id = some t)
    (ht : t.status.terminal = true) : SecondEnd env s id t where
  complete w result := by
    unfold completeTask ReturnsStored
    rw [bind_run_ok (requireTask_run hget)]
    exact ReturnsStored.guard (isGuard_assertTaskWorker _ _ _) (by rw [if_pos ht]; rfl)
  fail w error := by
    unfold failTask ReturnsStored
    rw [bind_run_ok (requireTask_run hget)]
    exact ReturnsStored.guard (isGuard_assertTaskWorker _ _ _) (by rw [if_pos ht]; rfl)
  cancel request := by
    unfold cancelTask ReturnsStored
    rw [bind_run_ok (requireTask_run hget)]
    by_cases hid : request.actor.id = ""
    · refine ⟨fun hallowed => absurd hid hallowed.1, fun _ => ?_⟩
      simp only [hid, beq_self_eq_true]
      exact ⟨_, rfl⟩
    · have hnamed : refuseIf (request.actor.id == "") .badRequest "actor.id is required" s =
          .ok () s := by
        rw [beq_eq_false_iff_ne.mpr hid]
        rfl
      rw [bind_run_ok hnamed]
      cases hmay : mayCancel t request.actor with
      | false => exact ⟨fun hallowed => by simp at hallowed, fun _ => ⟨_, rfl⟩⟩
      | true =>
        refine ⟨fun _ => ?_, fun hrefused => absurd ⟨hid, rfl⟩ hrefused⟩
        rw [bind_run_ok (by rfl : refuseIf (!true) _ _ s = .ok () s), if_pos ht]
        rfl

/-- In a run whose callers give no task the empty id, ended tasks stay as they ended, and a second
completion, failure or cancellation returns the stored record, unless it is refused. -/
theorem terminal_absorbed (hinj : Function.Injective env.randomUUID) {ops : List Op}
    (h : RunWith env (fun s op => op.Names env s) ops) :
    TerminalAbsorbed env ops ∧
    ∀ before, before <+: ops → ∀ id t, (run env before).tasks.get? id = some t →
      t.status.terminal = true → SecondEnd env (run env before) id t :=
  ⟨fun _ _ hprefix _ _ hget ht => runWith_sameEnd hinj (h.of_prefix hprefix) hget ht,
    fun _ _ _ _ => secondEnd⟩

/-- A task that was completed is not failed by a later report of its worker. -/
theorem terminal_absorbed_completed :
    TerminalAbsorbed (Env.numbered {}) (claimRun "task" ++
      [.completeTask "task" "worker" none, .failTask "task" "worker" none]) :=
  (terminal_absorbed (Env.numbered_randomUUID_injective {}) (.of_mem fun op hop s => by
    simp only [claimRun, List.cons_append, List.nil_append, List.mem_cons, List.not_mem_nil,
      or_false] at hop
    rcases hop with rfl | rfl | rfl | rfl | rfl <;> refine ⟨?_, ?_⟩ <;> try trivial
    · exact fun n _ h => Env.numbered_randomUUID_ne {} n (by decide) (Option.some.inj h)
    · exact fun h => absurd (Option.some.inj h) (by decide))).1

/-- A completed task under the empty id is queued again by a second creation. -/
theorem terminal_resurrected :
    ¬TerminalAbsorbed (Env.numbered {})
      (claimRun "" ++ [.completeTask "" "worker" none, createFor ""]) := by
  intro h
  have hdone : ((run (Env.numbered {}) (claimRun "" ++ [.completeTask "" "worker" none])).tasks.get?
      "").map (·.status) = some .succeeded := by decide +kernel
  have hagain : ((run (Env.numbered {}) (claimRun "" ++ [.completeTask "" "worker" none] ++
      [createFor ""])).tasks.get? "").map (·.status) = some .queued := by decide +kernel
  obtain ⟨t, ht, hstatus⟩ := Option.map_eq_some_iff.mp hdone
  obtain ⟨u, hu, hqueued⟩ := Option.map_eq_some_iff.mp hagain
  have hretained : RetainedOver (Env.numbered {})
      (claimRun "" ++ [.completeTask "" "worker" none]) [createFor ""] "" := by
    intro part hpart
    rcases List.prefix_concat_iff.mp (show part <+: [] ++ [createFor ""] from hpart) with rfl | hnil
    · exact Option.isSome_iff_exists.mpr ⟨u, hu⟩
    · obtain rfl := List.prefix_nil.mp hnil
      exact Option.isSome_iff_exists.mpr ⟨t, ht⟩
  obtain ⟨t', ht', hsame⟩ := h _ [createFor ""] (List.prefix_refl _) "" t ht
    (by rw [hstatus]; rfl) hretained
  obtain rfl : t' = u := Option.some.inj (ht'.symm.trans hu)
  rw [hsame.status, hstatus] at hqueued
  cases hqueued

end A2ABroker
