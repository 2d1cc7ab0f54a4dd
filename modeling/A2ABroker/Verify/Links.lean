import A2ABroker.Lib.Links
import A2ABroker.Verify.Journal
import A2ABroker.Verify.References
import A2ABroker.Verify.Requeue

/-! # No dangling references

A task names its proposal, its exchange and its workers. They are looked up when the task is created
or reassigned, an act adds no name but that of a worker who passed `assertTaskWorker`, and retention
keeps whatever a task that it keeps names. So in every state of a run each name of a stored task is the
name of a stored record (`run_linked`), and the same holds of the exchange of a stored message. -/

namespace A2ABroker

open Prog

variable {env : Env} {s s' : State} {t u : TaskRecord} {α β : Type}

/-! ## Names -/

def TaskRecord.proposalNames (t : TaskRecord) : List String := presentIds [t.proposalId]

def TaskRecord.exchangeNames (t : TaskRecord) : List String := presentIds [t.exchangeId]

def TaskRecord.workerNames (t : TaskRecord) : List String :=
  t.targetNodeId :: t.target.id :: presentIds [t.assignedWorkerId, t.claimedBy]

/-- Whatever a stored task names is stored. -/
structure Linked (r : Records) : Prop where
  proposals : Table.Links TaskRecord.proposalNames r.tasks r.proposals
  exchanges : Table.Links TaskRecord.exchangeNames r.tasks r.exchanges
  workers : Table.Links TaskRecord.workerNames r.tasks r.workers

/-- Whatever the task names is stored. -/
structure TaskLinked (r : Records) (t : TaskRecord) : Prop where
  proposal : r.proposals.HasAll t.proposalNames
  exchange : r.exchanges.HasAll t.exchangeNames
  workers : r.workers.HasAll t.workerNames

/-- The record `t` names nothing that `u` does not name. -/
structure NamesNoMore (u t : TaskRecord) : Prop where
  proposal : t.proposalId = u.proposalId
  exchange : t.exchangeId = u.exchangeId
  workers : t.workerNames ⊆ u.workerNames

theorem mem_presentIds_iff {ids : List (Option String)} {x : String} :
    x ∈ presentIds ids ↔ some x ∈ ids ∧ x ≠ "" := by
  refine ⟨fun h => ?_, fun h => mem_presentIds h.1 h.2⟩
  obtain ⟨o, ho, hx⟩ := List.mem_filterMap.mp h
  split at hx
  · rename_i htruthy
    subst hx
    exact ⟨ho, by simpa [truthy] using htruthy⟩
  · cases hx

/-- A task that named nobody else may name the worker it is with. -/
theorem workerNames_subset (htarget : t.targetNodeId = u.targetNodeId) (hid : t.target = u.target)
    (hassigned : t.assignedWorkerId = u.assignedWorkerId)
    (hclaimed : ∀ w, t.claimedBy = some w → w ≠ "" → w ∈ u.workerNames) :
    t.workerNames ⊆ u.workerNames := by
  intro x hx
  simp only [TaskRecord.workerNames, List.mem_cons, mem_presentIds_iff, List.not_mem_nil,
    or_false] at hx
  rcases hx with rfl | rfl | ⟨h | h, hne⟩
  · exact List.mem_cons.mpr (.inl htarget)
  · exact List.mem_cons_of_mem _ (List.mem_cons.mpr (.inl (congrArg PartyRef.id hid)))
  · refine List.mem_cons_of_mem _ (List.mem_cons_of_mem _ (mem_presentIds ?_ hne))
    rw [h, hassigned]
    exact List.mem_cons_self
  · exact hclaimed x h.symm hne

/-- An act on a task names at most the worker who may act on it; a reassignment names others. -/
theorem TaskStep.namesNoMore {cap : Nat} {a : Act} (h : TaskStep cap a t u) (ha : a ≠ .reassign) :
    NamesNoMore t u := by
  have hkept : ∀ {v : TaskRecord}, v.targetNodeId = t.targetNodeId → v.target = t.target →
      v.assignedWorkerId = t.assignedWorkerId → (∀ w, v.claimedBy = some w → v.claimedBy =
        t.claimedBy ∨ WorkerMay t w) → v.workerNames ⊆ t.workerNames := by
    intro v htarget hid hassigned hclaimed
    refine workerNames_subset htarget hid hassigned fun w hw hne => ?_
    have hnamed : ∀ o, o = some w → o ∈ [t.assignedWorkerId, t.claimedBy] → w ∈ t.workerNames :=
      fun o ho hmem => List.mem_cons_of_mem _ (List.mem_cons_of_mem _ (mem_presentIds (ho ▸ hmem) hne))
    rcases hclaimed w hw with hsame | hmay
    · exact hnamed _ (hsame ▸ hw) (List.mem_cons_of_mem _ List.mem_cons_self)
    · have hassignee := hmay.assigned
      cases hset : t.assignedWorkerId with
      | none =>
        rw [hset] at hassignee
        exact List.mem_cons.mpr (.inl hassignee)
      | some x =>
        rw [hset] at hassignee
        exact hnamed _ (hset.trans (congrArg some hassignee.symm)) List.mem_cons_self
  cases h with
  | reassign => exact absurd rfl ha
  | edit | approve | start | heartbeat | deadLetter =>
    exact ⟨rfl, rfl, hkept rfl rfl rfl fun w _ => .inl rfl⟩
  | claim _ _ may | complete _ _ may | fail _ _ may =>
    exact ⟨rfl, rfl, hkept rfl rfl rfl fun w hw => .inr (Option.some.inj hw ▸ may)⟩
  | refuse | cancel | requeue => exact ⟨rfl, rfl, hkept rfl rfl rfl nofun⟩

/-! ## Statements -/

theorem Linked.task {r : Records} (h : Linked r) {k : String} (hget : r.tasks.get? k = some t) :
    TaskLinked r t :=
  ⟨h.proposals.of_get? hget, h.exchanges.of_get? hget, h.workers.of_get? hget⟩

theorem TaskLinked.mono {r : Records} (h : TaskLinked r u) (hnames : NamesNoMore u t) :
    TaskLinked r t where
  proposal := by
    have h := h.proposal
    rwa [TaskRecord.proposalNames, ← hnames.proposal] at h
  exchange := by
    have h := h.exchange
    rwa [TaskRecord.exchangeNames, ← hnames.exchange] at h
  workers := h.workers.mono hnames.workers

theorem Linked.setTask (h : Linked s.toRecords) (ht : TaskLinked s.toRecords t) :
    Linked (s.setTask t).toRecords :=
  ⟨h.proposals.set ht.proposal, h.exchanges.set ht.exchange, h.workers.set ht.workers⟩

/-- A retention pass keeps what the tasks it keeps name. -/
theorem Linked.retained {r : Records} (h : Linked r) (nowMs : Int) :
    Linked (applyRetentionPolicy env nowMs r) := by
  have hkept : ∀ {γ : Type} [Keyed γ] {old new : Table γ} {o : Option String},
      OptRefKept old new o → old.HasAll (presentIds [o]) → new.HasAll (presentIds [o]) := by
    intro γ _ old new o href hall k hk
    obtain ⟨ho, hne⟩ := mem_presentIds_iff.mp hk
    obtain ⟨a, ha⟩ := Option.isSome_iff_exists.mp (hall k hk)
    exact Option.isSome_iff_exists.mpr ⟨a, href k (List.mem_singleton.mp ho).symm hne a ha⟩
  have hold : ∀ {t}, t ∈ (applyRetentionPolicy env nowMs r).tasks.rows → t ∈ r.tasks.rows :=
    fun ht => (mem_pruneMapEntries.mp ht).1
  refine ⟨fun t ht => ?_, fun t ht => ?_, fun t ht k hk => ?_⟩
  · exact hkept (applyRetentionPolicy_task ht).proposal (h.proposals t (hold ht))
  · exact hkept (applyRetentionPolicy_task ht).exchange (h.exchanges t (hold ht))
  · obtain ⟨w, hw⟩ := Option.isSome_iff_exists.mp (h.workers t (hold ht) k hk)
    refine Option.isSome_iff_exists.mpr ⟨w, ?_⟩
    have hrefs := applyRetentionPolicy_task ht
    simp only [TaskRecord.workerNames, List.mem_cons, mem_presentIds_iff] at hk
    rcases hk with rfl | rfl | ⟨ho, hne⟩
    · exact hrefs.workers _ List.mem_cons_self w hw
    · exact hrefs.workers _ (List.mem_cons_of_mem _ List.mem_cons_self) w hw
    · exact hrefs.assignees (some k) (by simpa using ho) k rfl hne w hw

/-- What keeps the names of stored tasks good. -/
def KeepsLinks (s s' : State) : Prop := Linked s.toRecords → Linked s'.toRecords

theorem framed_keepsLinks (env : Env) : Framed env KeepsLinks where
  refl _ := id
  trans _ _ _ h h' := h' ∘ h
  tick _ := id
  draw _ := id
  exchange e _ := fun h => ⟨h.proposals, h.exchanges.target e, h.workers⟩
  message _ _ := fun h => ⟨h.proposals, h.exchanges, h.workers⟩
  proposal p _ := fun h => ⟨h.proposals.target p, h.exchanges, h.workers⟩
  artifact _ _ := fun h => ⟨h.proposals, h.exchanges, h.workers⟩
  validation _ _ := fun h => ⟨h.proposals, h.exchanges, h.workers⟩
  worker w _ := fun h => ⟨h.proposals, h.exchanges, h.workers.target w⟩
  tombstone _ _ := fun h => ⟨h.proposals, h.exchanges, h.workers⟩
  audit event s := by
    obtain ⟨_, _, _, _, hrun⟩ := recordAudit_run env event s
    rw [KeepsAt, hrun]
    exact fun h => ⟨h.proposals, h.exchanges, h.workers⟩
  workerStamp _ _ := id
  taskStamp _ _ := id
  persist s := by
    obtain ⟨_, _, h | h⟩ := persistState_final env s
    · rw [KeepsAt, h]
      exact id
    · rw [KeepsAt, h]
      exact fun h => h.retained _

instance : IsPreorder State KeepsLinks := (framed_keepsLinks (Env.numbered {})).isPreorder

/-- The record may be stored. -/
def Storable (s : State) (t : TaskRecord) : Prop := Linked s.toRecords → TaskLinked s.toRecords t

theorem storable {id : String} (hget : s.tasks.get? id = some u) (h : NamesNoMore u t) :
    Storable s t := fun hs => (hs.task hget).mono h

/-- A batch of records that may be stored. -/
theorem Batch.keepsLinks {x : BrokerM α} (hx : Batch env Storable s x) : KeepsAt KeepsLinks s x :=
  hx.keeps _ (framed_keepsLinks env) fun _ _ ht hs => hs.setTask (ht hs)

theorem setTaskRecord_keepsLinks (h : Storable s t) : KeepsAt KeepsLinks s (setTaskRecord t) :=
  fun hs => hs.setTask (h hs)

theorem Aside.keepsLinks {x : BrokerM α} (hx : Aside env x) : Keeps KeepsLinks x :=
  hx _ (framed_keepsLinks env)

/-! ## Task operations -/

theorem publishTask_keepsLinks (t : TaskRecord) (reason : TaskUpdateReason) :
    Keeps KeepsLinks (publishTask env t reason) :=
  Aside.persistState.keepsLinks.bind fun _ _ => fun h => h

/-- A stored record, its exchange and its audit event, then a save and the update. -/
theorem transition_keepsLinks {status : ExchangeStatus} {actorId : String} {action : AuditAction}
    {note : Option String} {reason : TaskUpdateReason} {f : Option ExchangeState → BrokerM β}
    (h : Storable s t) (hf : ∀ left, Keeps KeepsLinks (f left)) :
    KeepsAt KeepsLinks s (do
      let left ← recordTransition env t status actorId action note
      publishTask env t reason
      f left) := by
  refine (Batch.storeTask h (some status) actorId action note).keepsLinks.bind fun left s' _ _ => ?_
  exact (publishTask_keepsLinks t reason s').bind fun _ s'' _ _ => hf left s''

/-- The same for a record whose exchange is left alone. -/
theorem publish_keepsLinks {x : BrokerM α} {reason : TaskUpdateReason} {f : α → BrokerM β}
    (h : Storable s t) (hx : Aside env x) (hf : ∀ a, Keeps KeepsLinks (f a)) :
    KeepsAt KeepsLinks s (do
      setTaskRecord t
      let a ← x
      publishTask env t reason
      f a) := by
  refine (setTaskRecord_keepsLinks h).bind fun _ s' _ _ => ?_
  refine (hx.keepsLinks s').bind fun a s'' _ _ => ?_
  exact (publishTask_keepsLinks t reason s'').bind fun _ _ _ _ => hf a _

theorem clock_keepsLinks {f : Timestamp → BrokerM α}
    (h : KeepsAt KeepsLinks s.ticked (f (.iso (env.dateNow s.clockReads)))) :
    KeepsAt KeepsLinks s (isoNow env >>= f) := .step (isoNow_run env s) id h

theorem requireTask_keepsLinks {id : String} {f : TaskRecord → BrokerM α}
    (h : ∀ task, s.tasks.get? id = some task → KeepsAt KeepsLinks s (f task)) :
    KeepsAt KeepsLinks s (requireTask id >>= f) :=
  .guard (isGuard_requireTask _) fun task htask => h task (requireTask_ok htask)

section
variable (taskId w : String)

/-- The names of a task do not depend on its payload or its wake plan. -/
theorem namesNoMore_edit (t : TaskRecord) (payload : JsonObject) (wake : Option TaskWakeState)
    (updatedAt : Timestamp) : NamesNoMore t { t with payload, wake, updatedAt } :=
  ⟨rfl, rfl, List.Subset.refl _⟩

theorem planAcceptedTaskWake_keepsLinks (request : TaskWakePlanRequest) :
    KeepsAt KeepsLinks s (planAcceptedTaskWake env taskId request) := by
  unfold planAcceptedTaskWake
  refine requireTask_keepsLinks fun task hget => ?_
  refine .guard (isGuard_refuseIf _ _ _) fun _ _ => .guard (isGuard_refuseIf _ _ _) fun _ _ => ?_
  dsimp only
  split
  · refine .guard (isGuard_refuseIf _ _ _) fun _ _ => clock_keepsLinks ?_
    refine .bind (setTaskRecord_keepsLinks (storable hget (namesNoMore_edit _ _ _ _)))
      fun _ s' _ _ => ?_
    exact (Aside.persistState.keepsLinks.bind fun _ => .pure _) s'
  · exact clock_keepsLinks (publish_keepsLinks (storable hget (namesNoMore_edit _ _ _ _))
      (.appendAuditEvent _) fun _ => .pure _)

theorem recordTaskWakeDecision_keepsLinks (request : TaskWakeDecisionRequest) :
    KeepsAt KeepsLinks s (recordTaskWakeDecision env taskId request) := by
  unfold recordTaskWakeDecision
  refine requireTask_keepsLinks fun task hget => ?_
  split
  · exact refl_of KeepsLinks s
  · split
    · exact clock_keepsLinks (publish_keepsLinks
        (storable hget (namesNoMore_edit _ _ _ _)) (.appendAuditEvent _) fun _ => .pure _)
    · exact .guard (isGuard_refuseIf _ _ _) fun _ _ => refl_of KeepsLinks s

theorem updateTaskPayload_keepsLinks (payload : JsonObject) (actor : PartyRef)
    (note : Option String) :
    KeepsAt KeepsLinks s (updateTaskPayload env taskId payload actor note) := by
  unfold updateTaskPayload
  refine requireTask_keepsLinks fun task hget => ?_
  refine .guard (isGuard_refuseIf _ _ _) fun _ _ => clock_keepsLinks ?_
  exact publish_keepsLinks (storable hget (namesNoMore_edit _ _ _ _))
    (.appendAuditEvent _) fun _ => .pure _

/-- The workers that a reassigned task names were just looked up. -/
theorem reassignTaskLinked_keepsLinks (request : TaskReassignRequest) :
    KeepsAt KeepsLinks s (reassignTaskLinked env taskId request) := by
  unfold reassignTaskLinked
  refine requireTask_keepsLinks fun task hget => ?_
  refine .guard (isGuard_refuseIf _ _ _) fun _ _ => .guard (isGuard_refuseIf _ _ _) fun _ _ => ?_
  refine .guard (isGuard_refuseIf _ _ _) fun _ _ => ?_
  refine .guard (isGuard_requireWorker _) fun target htarget => ?_
  refine .guard (isGuard_requireWorker _) fun assigned hassigned => clock_keepsLinks ?_
  refine transition_keepsLinks (fun hs => ?_) fun _ => .pure _
  have hold := hs.task hget
  refine ⟨hold.proposal, hold.exchange, fun x hx => ?_⟩
  have hstored : ∀ {nodeId v}, requireWorker nodeId s = .ok v s → x = v.nodeId ∨ x = nodeId →
      (s.workers.get? x).isSome = true := by
    rintro nodeId v hv (rfl | rfl)
    · exact Option.isSome_iff_exists.mpr ⟨v, Table.get?_key_of_mem (Table.mem_of_get? (requireWorker_ok hv))⟩
    · exact Option.isSome_iff_exists.mpr ⟨v, requireWorker_ok hv⟩
  simp only [TaskRecord.workerNames, TaskRecord.reassigned, WorkerRecord.party, List.mem_cons,
    mem_presentIds_iff, List.not_mem_nil, or_false, reduceCtorEq, Option.some.injEq] at hx
  rcases hx with hx | hx | ⟨hx, -⟩
  · exact hstored htarget (.inr hx)
  · exact hstored htarget (.inl hx)
  · exact hstored hassigned (.inl hx)

theorem approveTask_keepsLinks (request : TaskApprovalRequest) :
    KeepsAt KeepsLinks s (approveTask env taskId request) := by
  unfold approveTask
  refine requireTask_keepsLinks fun task hget => ?_
  refine .guard (isGuard_refuseIf _ _ _) fun _ _ => .guard (isGuard_refuseIf _ _ _) fun _ _ => ?_
  refine .guard (isGuard_refuseIf _ _ _) fun _ _ => ?_
  split
  · exact refl_of KeepsLinks s
  · refine .guard (isGuard_refuseIf _ _ _) fun _ _ => clock_keepsLinks ?_
    refine .bind ((Aside.orRandomUUID _).keepsLinks s.ticked) fun approvalId s' hid _ => ?_
    have hget' : s'.tasks.get? taskId = some task := by
      rcases orRandomUUID_ok hid with ⟨-, rfl⟩ | ⟨-, -, rfl⟩ <;> exact hget
    exact transition_keepsLinks (storable hget' ⟨rfl, rfl, List.Subset.refl _⟩)
      fun _ => .pure _

/-! ### The worker's side -/

theorem claimTask_keepsLinks : KeepsAt KeepsLinks s (claimTask env taskId w) := by
  unfold claimTask
  refine requireTask_keepsLinks fun task hget => ?_
  refine .guard (isGuard_assertTaskWorker _ _ _) fun _ hmay => ?_
  refine .guard (isGuard_refuseIf _ _ _) fun _ hgate => ?_
  refine .guard (isGuard_assertTaskStatus _ _ _) fun _ hstatus => clock_keepsLinks ?_
  refine .step (randomUUID_run env _) (fun h => h) ?_
  refine transition_keepsLinks (storable hget
    ((TaskStep.claim _ _ (assertTaskWorker_ok hmay) ?_ fun hgated => ?_ :
      TaskStep 0 (.claim w) task _).namesNoMore nofun)) fun _ => .pure _
  · simpa using assertTaskStatus_ok hstatus
  · simpa [hgated, Option.isSome_iff_ne_none] using refuseIf_ok hgate

theorem startTask_keepsLinks : KeepsAt KeepsLinks s (startTask env taskId w) := by
  unfold startTask
  refine requireTask_keepsLinks fun task hget => ?_
  refine .guard (isGuard_assertTaskWorker _ _ _) fun _ _ => ?_
  refine .guard (isGuard_assertTaskStatus _ _ _) fun _ _ => clock_keepsLinks ?_
  exact transition_keepsLinks (storable hget
    ⟨rfl, rfl, List.Subset.refl _⟩) fun _ => .pure _

theorem heartbeatTask_keepsLinks : KeepsAt KeepsLinks s (heartbeatTask env taskId w) := by
  unfold heartbeatTask
  refine requireTask_keepsLinks fun task hget => ?_
  refine .guard (isGuard_assertTaskWorker _ _ _) fun _ _ => ?_
  refine .guard (isGuard_assertTaskStatus _ _ _) fun _ _ => ?_
  refine .step (dateNow_run env s) (fun h => h) ?_
  exact publish_keepsLinks (storable hget
    ⟨rfl, rfl, List.Subset.refl _⟩) (.sampleTaskHeartbeat _ _ _) fun _ => .pure _

/-- The completion of the proposal is an operation of its own, which may drop records that ended. A
task that has not ended stays. -/
theorem completeTask_keepsLinks (result : Option TaskResult) :
    KeepsAt KeepsLinks s (completeTask env taskId w result) := by
  unfold completeTask
  refine requireTask_keepsLinks fun task hget => ?_
  refine .guard (isGuard_assertTaskWorker _ _ _) fun _ hmay => ?_
  split
  · exact refl_of KeepsLinks s
  · unfold finishTask
    refine .guard (isGuard_refuseIf _ _ _) fun _ hactive => ?_
    have hactive : task.status.active = true := by simpa using refuseIf_ok hactive
    refine .guard (isGuard_assertCompletionEvidence _ _) fun _ _ => ?_
    refine .bind ((Aside.applyTaskCompletion _ _ _).keepsLinks s) fun _ s' hrun _ => ?_
    have hget' : s'.tasks.get? taskId = some task :=
      ((Aside.applyTaskCompletion _ _ _) _ (framed_keepsLive env) s).of_ok hrun taskId task hget
        (terminal_of_active hactive)
    refine clock_keepsLinks (transition_keepsLinks (storable hget'
      ((TaskStep.complete _ _ (assertTaskWorker_ok hmay) hactive :
        TaskStep 0 (.complete w) task _).namesNoMore nofun)) fun _ => .pure _)

theorem failTask_keepsLinks (error : Option TaskError) :
    KeepsAt KeepsLinks s (failTask env taskId w error) := by
  unfold failTask
  refine requireTask_keepsLinks fun task hget => ?_
  refine .guard (isGuard_assertTaskWorker _ _ _) fun _ hmay => ?_
  split
  · exact refl_of KeepsLinks s
  · unfold abandonTask
    refine .guard (isGuard_refuseIf _ _ _) fun _ hactive => clock_keepsLinks ?_
    have hactive : task.status.active = true := by simpa using refuseIf_ok hactive
    exact transition_keepsLinks (storable hget ((TaskStep.fail _ _
      (assertTaskWorker_ok hmay) hactive : TaskStep 0 (.fail w) task _).namesNoMore nofun))
      fun _ => (Aside.writeTombstone _ _ _).keepsLinks.bind fun _ => .pure _

end

/-! ### Cancellation -/

theorem cancelTaskRecord_keepsLinks {params : CancelParams} (h : Storable s t) :
    KeepsAt KeepsLinks s (cancelTaskRecord env t params) := by
  unfold cancelTaskRecord
  have hnames (now : Timestamp) : NamesNoMore t (t.canceledBy params now) :=
    ⟨rfl, rfl, workerNames_subset rfl rfl rfl nofun⟩
  refine clock_keepsLinks (transition_keepsLinks (fun hs => (h hs).mono (hnames _)) fun _ => ?_)
  exact (Aside.writeTombstone _ _ _).keepsLinks.bind fun _ => .pure _

theorem cancelChildren_keepsLinks {visit : TaskRecord → List String → BrokerM (List String)}
    (hvisit : ∀ t visited s, Storable s t → KeepsAt KeepsLinks s (visit t visited))
    (children : List TaskRecord) :
    ∀ visited, Keeps KeepsLinks (cancelChildren visit children visited) := by
  induction children with
  | nil => exact fun visited => .pure visited
  | cons child children ih =>
    intro visited s
    unfold cancelChildren
    refine .guard isGuard_get fun s₁ hs₁ => ?_
    cases hs₁
    split
    · exact ih visited s
    · rename_i task hget
      split
      · exact ih visited s
      · refine .bind (hvisit task visited s fun hs => hs.task hget) fun visited' s' _ _ => ?_
        exact ih visited' s'

theorem cancelTaskTree_keepsLinks (fuel : Nat) : ∀ (t : TaskRecord) (params : CancelParams)
    (visited : List String) (s : State), Storable s t →
      KeepsAt KeepsLinks s (cancelTaskTree env fuel t params visited) := by
  induction fuel with
  | zero => exact fun _ _ _ s _ => refl_of KeepsLinks s
  | succ fuel ih =>
    intro t params visited s ht
    unfold cancelTaskTree
    split
    · exact refl_of KeepsLinks s
    · refine .bind (cancelTaskRecord_keepsLinks ht) fun _ s₁ _ _ => ?_
      refine .guard isGuard_get fun s₂ _ => .bind ?_ fun _ s' _ _ => refl_of KeepsLinks s'
      refine cancelChildren_keepsLinks (fun child visited s' hchild => ?_) _ _ s₁
      exact (ih child _ visited s' hchild).bind fun _ s'' _ _ => refl_of KeepsLinks s''

theorem cancelTree_keepsLinks {params : CancelParams} (h : Storable s t) :
    KeepsAt KeepsLinks s (cancelTree env t params) := by
  unfold cancelTree
  refine .guard isGuard_get fun s₁ _ => ?_
  exact (cancelTaskTree_keepsLinks _ t params [] s h).bind fun _ s' _ _ => refl_of KeepsLinks s'

theorem cancelTask_keepsLinks (taskId : String) (request : TaskCancelRequest) :
    KeepsAt KeepsLinks s (cancelTask env taskId request) := by
  unfold cancelTask
  refine requireTask_keepsLinks fun task hget => ?_
  refine .guard (isGuard_refuseIf _ _ _) fun _ _ => .guard (isGuard_refuseIf _ _ _) fun _ _ => ?_
  split
  · exact refl_of KeepsLinks s
  · exact cancelTree_keepsLinks fun hs => hs.task hget

theorem rejectTaskApproval_keepsLinks (taskId : String) (request : TaskApprovalTerminalRequest) :
    KeepsAt KeepsLinks s (rejectTaskApproval env taskId request) := by
  unfold rejectTaskApproval
  refine requireTask_keepsLinks fun task hget => ?_
  refine .guard (isGuard_refuseIf _ _ _) fun _ _ => .guard (isGuard_refuseIf _ _ _) fun _ _ => ?_
  refine .guard (isGuard_refuseIf _ _ _) fun _ _ => .guard (isGuard_refuseIf _ _ _) fun _ _ => ?_
  split
  · exact refl_of KeepsLinks s
  · refine .guard (isGuard_refuseIf _ _ _) fun _ _ => clock_keepsLinks ?_
    refine .bind ((Aside.orRandomUUID _).keepsLinks s.ticked) fun approvalId s' hid _ => ?_
    have hget' : s'.tasks.get? taskId = some task := by
      rcases orRandomUUID_ok hid with ⟨-, rfl⟩ | ⟨-, -, rfl⟩ <;> exact hget
    refine .bind (cancelTree_keepsLinks (storable hget' ⟨rfl, rfl, List.Subset.refl _⟩))
      fun canceled s'' _ _ => ?_
    exact ((Aside.appendAuditEvent _).bind fun _ => Aside.persistState.bind fun _ =>
      .pure _).keepsLinks s''

/-! ### Creation -/

theorem requireNamedWorker_ok {nodeId : Option String} {a : Unit}
    (h : requireNamedWorker nodeId s = .ok a s') : s.workers.HasAll (presentIds [nodeId]) := by
  intro k hk
  obtain ⟨hk, hne⟩ := mem_presentIds_iff.mp hk
  obtain rfl := List.mem_singleton.mp hk
  unfold requireNamedWorker at h
  dsimp only at h
  rw [if_neg hne] at h
  obtain ⟨w, s₁, hw, -⟩ := bind_eq_ok h
  exact Option.isSome_iff_exists.mpr ⟨w, requireWorker_ok hw⟩

theorem requireNamedExchange_ok {id : Option String} {a : Unit}
    (h : requireNamedExchange id s = .ok a s') : s.exchanges.HasAll (presentIds [id]) := by
  intro k hk
  obtain ⟨hk, hne⟩ := mem_presentIds_iff.mp hk
  obtain rfl := List.mem_singleton.mp hk
  unfold requireNamedExchange at h
  dsimp only at h
  rw [if_neg hne] at h
  obtain ⟨e, s₁, he, -⟩ := bind_eq_ok h
  exact Option.isSome_iff_exists.mpr ⟨e, requireExchange_ok he⟩

theorem assertTaskProposalLink_ok {request : CreateTaskRequest} {a : Unit}
    (h : assertTaskProposalLink request s = .ok a s') :
    s.proposals.HasAll (presentIds [request.proposalId]) := by
  intro k hk
  obtain ⟨hk, hne⟩ := mem_presentIds_iff.mp hk
  unfold assertTaskProposalLink at h
  rw [← List.mem_singleton.mp hk] at h
  dsimp only at h
  rw [if_neg hne] at h
  obtain ⟨p, s₁, hp, -⟩ := bind_eq_ok h
  exact Option.isSome_iff_exists.mpr ⟨p, requireProposal_ok hp⟩

/-- A request whose references were looked up makes a task whose names are good. -/
theorem assertTaskReferences_ok {request : CreateTaskRequest} {a : Unit}
    (h : assertTaskReferences request s = .ok a s') (id : String) (now : Timestamp) :
    TaskLinked s.toRecords (newTask env request id now) := by
  unfold assertTaskReferences at h
  obtain ⟨_, hexchange, h⟩ := (isGuard_requireNamedExchange _).bind_eq_ok h
  obtain ⟨target, htarget, h⟩ := (isGuard_requireWorker _).bind_eq_ok h
  obtain ⟨_, hassigned, h⟩ := (isGuard_requireNamedWorker _).bind_eq_ok h
  refine ⟨assertTaskProposalLink_ok h, requireNamedExchange_ok hexchange, fun x hx => ?_⟩
  have htarget : (s.workers.get? request.target.id).isSome = true :=
    Option.isSome_iff_exists.mpr ⟨target, requireWorker_ok htarget⟩
  simp only [TaskRecord.workerNames, newTask, List.mem_cons, mem_presentIds_iff, List.not_mem_nil,
    or_false, reduceCtorEq, Option.some.injEq] at hx
  rcases hx with rfl | rfl | ⟨rfl, hne⟩
  · exact htarget
  · exact htarget
  · cases hid : request.assignedWorkerId with
    | none => exact htarget
    | some w =>
      rw [hid] at hne hassigned
      exact requireNamedWorker_ok hassigned w (mem_presentIds List.mem_cons_self hne)

theorem createTaskLinked_keepsLinks (request : CreateTaskRequest) :
    Keeps KeepsLinks (createTaskLinked env request) := by
  intro s
  unfold createTaskLinked
  refine .guard (isGuard_assertOk _) fun request' _ => ?_
  refine .guard (isGuard_assertTaskPayload _) fun _ _ => .guard isGuard_get fun s₁ hs₁ => ?_
  cases hs₁
  split
  · exact refl_of KeepsLinks s
  · refine .guard (isGuard_assertTaskReferences _) fun _ hrefs => ?_
    rw [insertTask_eq]
    refine clock_keepsLinks (.bind ((Aside.orRandomUUID _).keepsLinks s.ticked) fun id s' hid _ => ?_)
    have hlinked : TaskLinked s'.toRecords (newTask env request' id (.iso (env.dateNow s.clockReads))) := by
      rcases orRandomUUID_ok hid with ⟨-, rfl⟩ | ⟨-, -, rfl⟩ <;>
        exact assertTaskReferences_ok hrefs id _
    refine .bind (Batch.storeTask (fun _ => hlinked) _ _ _ _).keepsLinks fun left s'' _ _ => ?_
    exact (publishTask_keepsLinks _ _ s'').bind fun _ s₃ _ _ => refl_of KeepsLinks s₃

/-! ### The sweep -/

/-- A visited row is still stored as it was found: only rows before it were replaced. -/
theorem sweepTasks_keepsLinks (reasonOf : TaskRecord → Option String) (now : Timestamp)
    (tasks : List TaskRecord) : ∀ (sweep : Sweep) (s : State), (tasks.map key).Nodup →
      (∀ t ∈ tasks, s.tasks.get? t.id = some t) →
      KeepsAt KeepsLinks s (sweepTasks env reasonOf now tasks sweep) := by
  induction tasks with
  | nil => exact fun _ s _ _ => refl_of KeepsLinks s
  | cons t tasks ih =>
    intro sweep s hnodup hstored
    obtain ⟨hfresh, hnodup⟩ := List.nodup_cons.mp hnodup
    have hget := hstored t List.mem_cons_self
    have hrest : ∀ {s₁ : State} {u : TaskRecord}, u.id = t.id → s₁.tasks = s.tasks.set u →
        ∀ v ∈ tasks, s₁.tasks.get? v.id = some v := by
      intro s₁ u hid htasks v hv
      have hne : key u ≠ v.id := fun he => hfresh (List.mem_map.mpr ⟨v, hv, he.symm.trans hid⟩)
      rw [htasks, Table.get?_set_of_ne hne]
      exact hstored v (List.mem_cons_of_mem _ hv)
    unfold sweepTasks
    cases hreason : reasonOf t with
    | none => exact ih sweep s hnodup fun v hv => hstored v (List.mem_cons_of_mem _ hv)
    | some reason =>
      dsimp only
      split
      · obtain ⟨s₁, _, hrun, htasks, -⟩ := deadLetterTask_spec env t reason now s
        have hnames (e : TaskError) : NamesNoMore t (t.deadLettered e now) :=
          ⟨rfl, rfl, List.Subset.refl _⟩
        have hstep : KeepsAt KeepsLinks s (deadLetterTask env t reason now) := by
          refine .bind (Batch.storeTask (storable (u := t) hget (hnames _)) (some .failed) _ _
            _).keepsLinks fun _ s' _ _ => ?_
          exact ((Aside.writeTombstone _ _ _).bind fun _ => .pure _).keepsLinks s'
        exact .step hrun (hstep.of_ok hrun) (ih _ s₁ hnodup (hrest (u := t.deadLettered _ now) rfl
          htasks))
      · obtain ⟨s₁, hrun, htasks, -⟩ := requeueTask_spec env t reason now s
        have hnames : NamesNoMore t (t.requeued now) :=
          ⟨rfl, rfl, workerNames_subset rfl rfl rfl fun _ h => by cases h⟩
        have hstep : KeepsAt KeepsLinks s (requeueTask env t reason now) :=
          .bind (Batch.storeTask (storable (u := t) hget hnames) (some .queued) _ _ _).keepsLinks
            fun _ s' _ _ => refl_of KeepsLinks s'
        exact .step hrun (hstep.of_ok hrun) (ih _ s₁ hnodup (hrest (u := t.requeued now) rfl htasks))

theorem requeueStaleTasksDetailed_keepsLinks (olderThanMs : Int) (options : SweepOptions) :
    Keeps KeepsLinks (requeueStaleTasksDetailed env olderThanMs options) := by
  intro s
  have hnow : KeepsAt KeepsLinks s (sweepNow env options) := by
    unfold sweepNow
    split
    · exact refl_of KeepsLinks s
    · exact Aside.dateNow.keepsLinks s
  have hemits : ∀ reason tasks, Keeps KeepsLinks (emitTaskUpdates reason tasks) := by
    intro reason tasks s
    obtain ⟨updates, hrun⟩ := emitTaskUpdates_run reason tasks s
    rw [KeepsAt, hrun]
    exact fun h => h
  unfold requeueStaleTasksDetailed
  refine hnow.bind fun ms s₁ _ _ => .guard isGuard_get fun s₂ hs₂ => ?_
  cases hs₂
  refine .bind (sweepTasks_keepsLinks _ _ _ {} s₁ s₁.tasks.nodup fun t ht =>
    Table.get?_key_of_mem ht) fun sweep s' _ _ => ?_
  refine ((Aside.persistState.doWhen).keepsLinks s').bind fun _ s'' _ _ => ?_
  exact ((hemits _ _).bind fun _ => (hemits _ _).bind fun _ => .pure _) s''

/-! ### Exchanges -/

theorem mutateExchange_keepsLinks (e : ExchangeState) : Keeps KeepsLinks (mutateExchange e) :=
  fun _ h => ⟨h.proposals, h.exchanges.target e, h.workers⟩

theorem ensureExchangeTask_keepsLinks (e : ExchangeState) (m : ExchangeMessageRecord)
    (assignee : String) : Keeps KeepsLinks (ensureExchangeTask env e m assignee) := by
  intro s
  unfold ensureExchangeTask
  refine .guard isGuard_get fun s₁ _ => ?_
  refine .guard (isGuard_requireWorker _) fun _ _ => .guard (isGuard_requireWorker _) fun _ _ => ?_
  split
  · refine .bind ?_ fun _ s' _ _ => refl_of KeepsLinks s'
    unfold synchronizeTask
    split
    · exact refl_of KeepsLinks s
    · exact .bind (reassignTaskLinked_keepsLinks _ _) fun _ s' _ _ => refl_of KeepsLinks s'
  · exact .bind (createTaskLinked_keepsLinks _ s) fun _ s' _ _ => refl_of KeepsLinks s'

theorem cancelActiveExchangeTask_keepsLinks (e : ExchangeState) (reason : String) :
    Keeps KeepsLinks (cancelActiveExchangeTask env e reason) := by
  intro s
  unfold cancelActiveExchangeTask
  refine .guard isGuard_get fun s₁ hs₁ => ?_
  cases hs₁
  split
  · exact refl_of KeepsLinks s
  · rename_i t ht
    refine .bind (cancelTaskRecord_keepsLinks fun hs => ?_) fun _ s' _ _ => refl_of KeepsLinks s'
    have hget := (Option.filter_eq_some_iff.mp ht).1
    split at hget
    · obtain ⟨id, -, hget⟩ := Option.bind_eq_some_iff.mp hget
      exact hs.task hget
    · cases hget

theorem applyExchangeMessageDecision_keepsLinks (e : ExchangeState) (m : ExchangeMessageRecord) :
    Keeps KeepsLinks (applyExchangeMessageDecision env e m) := by
  unfold applyExchangeMessageDecision
  refine .bind (.of_isGuard isGuard_get) fun s => ?_
  dsimp only
  split
  · split
    · refine (mutateExchange_keepsLinks _).bind fun _ => ?_
      exact (ensureExchangeTask_keepsLinks _ _ _).bind fun _ => .pure _
    · exact .pure _
  · exact (mutateExchange_keepsLinks _).bind fun _ => ensureExchangeTask_keepsLinks _ _ _
  · exact (mutateExchange_keepsLinks _).bind fun _ => ensureExchangeTask_keepsLinks _ _ _
  · exact (mutateExchange_keepsLinks _).bind fun _ => cancelActiveExchangeTask_keepsLinks _ _
  · refine (mutateExchange_keepsLinks _).bind fun _ => ?_
    exact (cancelActiveExchangeTask_keepsLinks _ _).bind fun _ => .pure _

theorem addExchangeMessage_keepsLinks (id : String) (request : ExchangeMessageRequest) :
    Keeps KeepsLinks (addExchangeMessage env id request) := by
  have hpost : ∀ e, Keeps KeepsLinks (postMessage env e request) := by
    intro e
    refine Aside.isoNow.keepsLinks.bind fun _ => Aside.randomUUID.keepsLinks.bind fun _ => ?_
    refine Keeps.bind (fun s h => ⟨h.proposals, h.exchanges, h.workers⟩) fun _ => ?_
    exact (mutateExchange_keepsLinks _).bind fun _ => .pure _
  unfold addExchangeMessage
  refine .bind (.of_isGuard (isGuard_requireExchange _)) fun e => ?_
  refine .bind (.of_isGuard (isGuard_refuseIf _ _ _)) fun _ => ?_
  refine .bind (.of_isGuard (isGuard_refuseIf _ _ _)) fun _ => ?_
  refine .bind (.of_isGuard (isGuard_assertExchangeMessageActor _ _)) fun _ => ?_
  refine .bind (.of_isGuard (isGuard_requireNamedWorker _)) fun _ => ?_
  refine .bind (.of_isGuard (isGuard_requireNamedWorker _)) fun _ => ?_
  refine .bind (.of_isGuard (isGuard_requireParentMessage _ _)) fun _ => (hpost _).bind fun _ => ?_
  refine (applyExchangeMessageDecision_keepsLinks _ _).bind fun e' => ?_
  exact ((Aside.setExchangeRecord _).bind fun _ => (Aside.appendAuditEvent _).bind fun _ =>
    Aside.persistState.bind fun _ => .pure _).keepsLinks

/-! ## All operations -/

theorem exec_keepsLinks (env : Env) (s : State) (op : Op) : KeepsLinks s (exec env s op) := by
  have hdo : ∀ {α : Type} {x : BrokerM α}, KeepsAt KeepsLinks s x →
      KeepsLinks s (finalState (discard x s)) := by
    intro α x hx
    rw [finalState_discard]
    exact hx
  cases op with
  | registerWorker => exact hdo ((Aside.registerWorker _).keepsLinks s)
  | heartbeatWorker => exact hdo ((Aside.heartbeatWorker _ _).keepsLinks s)
  | createProposal => exact hdo ((Aside.createProposal _).keepsLinks s)
  | attachArtifact => exact hdo ((Aside.attachArtifact _ _).keepsLinks s)
  | submitValidationResult => exact hdo ((Aside.submitValidationResult _ _).keepsLinks s)
  | approveProposal => exact hdo ((Aside.approveProposal _ _).keepsLinks s)
  | rejectProposal => exact hdo ((Aside.rejectProposal _ _).keepsLinks s)
  | applyProposalLocally => exact hdo ((Aside.applyProposalLocally _ _).keepsLinks s)
  | createTask =>
    exact hdo (.bind (createTaskLinked_keepsLinks _ s) fun _ s' _ _ => refl_of KeepsLinks s')
  | planAcceptedTaskWake => exact hdo (planAcceptedTaskWake_keepsLinks _ _)
  | recordTaskWakeDecision => exact hdo (recordTaskWakeDecision_keepsLinks _ _)
  | updateTaskPayload => exact hdo (updateTaskPayload_keepsLinks _ _ _ _)
  | reassignTask =>
    exact hdo (.bind (reassignTaskLinked_keepsLinks _ _) fun _ s' _ _ => refl_of KeepsLinks s')
  | cancelTask => exact hdo (cancelTask_keepsLinks _ _)
  | approveTask => exact hdo (approveTask_keepsLinks _ _)
  | rejectTaskApproval => exact hdo (rejectTaskApproval_keepsLinks _ _)
  | claimTask => exact hdo (claimTask_keepsLinks _ _)
  | startTask => exact hdo (startTask_keepsLinks _ _)
  | heartbeatTask => exact hdo (heartbeatTask_keepsLinks _ _)
  | completeTask => exact hdo (completeTask_keepsLinks _ _ _)
  | failTask => exact hdo (failTask_keepsLinks _ _ _)
  | requeueStaleTasksDetailed => exact hdo (requeueStaleTasksDetailed_keepsLinks _ _ s)
  | startExchange => exact hdo ((Aside.startExchange _).keepsLinks s)
  | addExchangeMessage => exact hdo (addExchangeMessage_keepsLinks _ _ s)
  | acknowledgeTerminalTaskOutboxEvent | recordTerminalTaskOutboxReceiptStatus
  | ingestCrossBrokerTerminalBriefProjection =>
    exact exec_reports (framed_keepsLinks env) (fun _ _ h => h) (fun _ _ h => h)
      (fun _ _ h => h) trivial

/-! ## Runs -/

/-- Every message of the board is in the thread of a stored exchange. -/
theorem Board.Step.messages {m : Move} {b b' : Board} (h : Board.Step env m b b')
    (hb : Table.Links (fun m : ExchangeMessageRecord => [m.exchangeId]) b.messages b.exchanges) :
    Table.Links (fun m : ExchangeMessageRecord => [m.exchangeId]) b'.messages b'.exchanges := by
  cases h with
  | prune h =>
    obtain ⟨keep, hexchanges, hmessages, -⟩ := h.threads
    rw [hexchanges, hmessages]
    refine hb.retain fun m _ hkept k hk e he => ?_
    obtain rfl := List.mem_singleton.mp hk
    rw [show e.id = m.exchangeId from Table.key_of_get? he]
    exact hkept
  | openThread _ _ hm =>
    refine (hb.target _).set fun k hk => ?_
    obtain rfl := List.mem_singleton.mp hk
    rw [hm]
    exact Option.isSome_iff_exists.mpr ⟨_, Table.get?_set_self⟩
  | post _ _ hm =>
    refine (hb.target _).set fun k hk => ?_
    obtain rfl := List.mem_singleton.mp hk
    rw [hm]
    exact Option.isSome_iff_exists.mpr ⟨_, Table.get?_set_self (a := ExchangeState.posted _ _)⟩
  | relink | restore => exact hb.target _
  | _ => exact hb

/-- In every state of a run, each name of a stored task is the name of a stored record, and each
message is in the thread of a stored exchange. -/
theorem run_linked (env : Env) (ops : List Op) :
    Linked (run env ops).toRecords ∧ ∀ m ∈ (run env ops).exchangeMessages.rows,
      ((run env ops).exchanges.get? m.exchangeId).isSome = true := by
  constructor
  · induction ops using List.reverseRecOn with
    | nil => exact ⟨Table.Links.empty, Table.Links.empty, Table.Links.empty⟩
    | append_singleton ops op ih =>
      rw [run_concat]
      exact exec_keepsLinks env _ op ih
  · have hlinks : Table.Links (fun m : ExchangeMessageRecord => [m.exchangeId])
        (run env ops).board.messages (run env ops).board.exchanges :=
      run_board_law (P := fun b => Table.Links _ b.messages b.exchanges) Table.Links.empty
        (fun _ _ _ h hb => h.messages hb) ops
    exact fun m hm => hlinks m hm _ List.mem_cons_self

end A2ABroker
