import A2ABroker.Verify.Retention

/-! # References across a retention pass

A retention pass selects exchanges first, then tasks with the active tasks of those exchanges
protected, and then takes back the exchanges of the selected tasks. Everything that follows (messages,
proposals, artifacts, validations, workers) is selected from the final sets. So every reference of a
retained record is kept but one: an exchange that was taken back for a task does not protect its own
active task (`references_kept_iff`). An optional reference is one when it is not empty, as the broker
tests it. -/

namespace A2ABroker

variable {env : Env} {nowMs : Int} {r r' : Records}

/-! ## What may not be lost -/

/-- Rows that satisfy `live` stay. -/
def RowsKept [Keyed α] (old new : Table α) (live : α → Prop) : Prop :=
  ∀ a ∈ old.rows, live a → a ∈ new.rows

/-- The row that an id names is still there, if there was one. -/
def RefKept [Keyed α] (old new : Table α) (id : String) : Prop :=
  ∀ a, old.get? id = some a → new.get? id = some a

/-- The same for an optional reference. -/
def OptRefKept [Keyed α] (old new : Table α) (id : Option String) : Prop :=
  ∀ x, id = some x → x ≠ "" → RefKept old new x

/-- No record that is not terminal is lost. -/
structure LiveKept (r r' : Records) : Prop where
  exchanges : RowsKept r.exchanges r'.exchanges fun e => e.status.terminal = false
  tasks : RowsKept r.tasks r'.tasks fun t => t.status.terminal = false
  proposals : RowsKept r.proposals r'.proposals fun p => p.status.terminal = false

/-- The artifacts that a task lists, those of its result included. -/
def TaskRecord.artifactRefs (t : TaskRecord) : List String :=
  t.artifactIds ++ (t.result.elim [] fun res => res.artifactIds ++
    (res.validation.elim [] (·.artifactIds)) ++ (res.apply.elim [] (·.artifactIds)))

structure TaskRefsKept (r r' : Records) (t : TaskRecord) : Prop where
  exchange : OptRefKept r.exchanges r'.exchanges t.exchangeId
  proposal : OptRefKept r.proposals r'.proposals t.proposalId
  artifacts : ∀ x ∈ t.artifactRefs, RefKept r.artifacts r'.artifacts x
  workers : ∀ x ∈ [t.targetNodeId, t.target.id], RefKept r.workers r'.workers x
  assignees : ∀ x ∈ [t.assignedWorkerId, t.claimedBy], OptRefKept r.workers r'.workers x

structure ExchangeRefsKept (r r' : Records) (e : ExchangeState) : Prop where
  messages : RowsKept r.exchangeMessages r'.exchangeMessages fun m => m.exchangeId = e.id
  workers : ∀ x ∈ [e.targetNodeId, e.target.id], RefKept r.workers r'.workers x
  assignee : OptRefKept r.workers r'.workers e.assignedWorkerId

structure ProposalRefsKept (r r' : Records) (p : ChangeProposal) : Prop where
  listed : ∀ x ∈ p.artifactIds, RefKept r.artifacts r'.artifacts x
  attached : RowsKept r.artifacts r'.artifacts fun a => a.proposalId = p.id
  validations : RowsKept r.validations r'.validations fun v => v.proposalId = p.id
  workers : ∀ x ∈ [p.sourceNodeId, p.targetNodeId, p.source.id, p.target.id],
    RefKept r.workers r'.workers x

/-- Every reference of a retained record to a record that was there is kept. -/
structure ReferencesKept (r r' : Records) : Prop where
  tasks : ∀ t ∈ r'.tasks.rows, TaskRefsKept r r' t
  exchanges : ∀ e ∈ r'.exchanges.rows, ExchangeRefsKept r r' e
  activeTasks : ∀ e ∈ r'.exchanges.rows, OptRefKept r.tasks r'.tasks e.activeTaskId
  proposals : ∀ p ∈ r'.proposals.rows, ProposalRefsKept r r' p

/-! ## Pruning -/

theorem mem_pruneMapEntries [Keyed α] {t : Table α} {ids : List String} {a : α} :
    a ∈ (pruneMapEntries t ids).rows ↔ a ∈ t.rows ∧ key a ∈ ids := by
  rw [pruneMapEntries, Table.mem_rows_retain, List.contains_iff_mem]

theorem refKept_of_mem [Keyed α] {t : Table α} {ids : List String} {id : String} (h : id ∈ ids) :
    RefKept t (pruneMapEntries t ids) id := by
  intro a ha
  refine Table.get?_retain_eq_some.mpr ⟨ha, ?_⟩
  rw [Table.key_of_get? ha]
  simpa using h

theorem optRefKept_of_mem [Keyed α] {t : Table α} {ids : List String} {id : Option String}
    (h : ∀ x, id = some x → x ≠ "" → x ∈ ids) : OptRefKept t (pruneMapEntries t ids) id :=
  fun x hx hne => refKept_of_mem (h x hx hne)

theorem rowsKept_of_mem [Keyed α] {t : Table α} {ids : List String} {live : α → Prop}
    (h : ∀ a ∈ t.rows, live a → key a ∈ ids) : RowsKept t (pruneMapEntries t ids) live :=
  fun a ha hlive => mem_pruneMapEntries.mpr ⟨ha, h a ha hlive⟩

theorem retained_of_refKept [Keyed α] {t : Table α} {ids : List String} {id : String}
    (h : RefKept t (pruneMapEntries t ids) id) (hsome : (t.get? id).isSome) : id ∈ ids := by
  obtain ⟨a, ha⟩ := Option.isSome_iff_exists.mp hsome
  have hkept := (Table.get?_retain_eq_some.mp (h a ha)).2
  rw [Table.key_of_get? ha] at hkept
  simpa using hkept

/-! ## The selected ids -/

/-- The exchanges that are selected for themselves. -/
def selectedExchangeIds (env : Env) (nowMs : Int) (r : Records) : List String :=
  let policy := env.config.retention
  selectRetainedTerminalRecordIds env r.exchanges.rows (fun e => e.status.terminal) (·.id)
    (·.updatedAt) nowMs policy.terminalRetentionMs policy.maxTerminalExchanges []

/-- The tasks that are selected, with the active tasks of the selected exchanges protected. -/
def selectedTaskIds (env : Env) (nowMs : Int) (r : Records) : List String :=
  let policy := env.config.retention
  selectRetainedTerminalRecordIds env r.tasks.rows (fun t => t.status.terminal) (·.id)
    (fun t => t.completedAt.getD t.updatedAt) nowMs policy.terminalRetentionMs
    policy.maxTerminalTasks
    (presentIds ((r.exchanges.pick (selectedExchangeIds env nowMs r)).map (·.activeTaskId)))

theorem taskIds_eq : (selectRetained env nowMs r).taskIds = selectedTaskIds env nowMs r := rfl

theorem exchangeIds_eq : (selectRetained env nowMs r).exchangeIds =
    selectedExchangeIds env nowMs r ++
      presentIds ((r.tasks.pick (selectedTaskIds env nowMs r)).map (·.exchangeId)) := rfl

theorem selectRetained_activeTask {e : ExchangeState} {x : String} (he : e ∈ r.exchanges.rows)
    (hid : e.id ∈ selectedExchangeIds env nowMs r) (hx : e.activeTaskId = some x) (hne : x ≠ "") :
    x ∈ selectedTaskIds env nowMs r := by
  refine mem_selectRetained_of_protected (mem_presentIds ?_ hne)
  exact List.mem_map.mpr ⟨e, Table.mem_pick he hid, hx⟩

/-- An exchange that is kept but was not selected for itself is named by a kept task. -/
theorem readded_of_mem {x : String} (h : x ∈ (selectRetained env nowMs r).exchangeIds)
    (hnot : x ∉ selectedExchangeIds env nowMs r) :
    x ≠ "" ∧ ∃ t ∈ r.tasks.rows, t.id ∈ selectedTaskIds env nowMs r ∧ t.exchangeId = some x := by
  rw [exchangeIds_eq] at h
  rcases List.mem_append.mp h with h | h
  · exact absurd h hnot
  · obtain ⟨o, ho, hx⟩ := List.mem_filterMap.mp h
    obtain ⟨t, ht, rfl⟩ := List.mem_map.mp ho
    obtain ⟨id, hid, hget⟩ := List.mem_filterMap.mp ht
    obtain ⟨hmem, rfl⟩ := Table.get?_eq_some.mp hget
    split at hx
    · rename_i htruthy
      obtain ⟨y, hy, hne⟩ := truthy_eq_true.mp htruthy
      obtain rfl : y = x := Option.some.inj (hy.symm.trans hx)
      exact ⟨hne, t, hmem, hid, hx⟩
    · cases hx

theorem selectRetained_artifact_of_task {t : TaskRecord} {x : String} (ht : t ∈ r.tasks.rows)
    (hid : t.id ∈ (selectRetained env nowMs r).taskIds) (hx : x ∈ t.artifactRefs) :
    x ∈ (selectRetained env nowMs r).artifactIds :=
  List.mem_append_right _ (List.mem_flatMap.mpr ⟨t, Table.mem_pick ht hid, hx⟩)

theorem selectRetained_artifact_of_proposal {p : ChangeProposal} {x : String}
    (hp : p ∈ r.proposals.rows) (hid : p.id ∈ (selectRetained env nowMs r).proposalIds)
    (hx : x ∈ p.artifactIds) : x ∈ (selectRetained env nowMs r).artifactIds :=
  List.mem_append_left _ <| List.mem_append_left _ <|
    List.mem_flatMap.mpr ⟨p, Table.mem_pick hp hid, hx⟩

theorem selectRetained_attached {a : ArtifactRecord} (ha : a ∈ r.artifacts.rows)
    (hid : a.proposalId ∈ (selectRetained env nowMs r).proposalIds) :
    a.id ∈ (selectRetained env nowMs r).artifactIds := by
  refine List.mem_append_left _ (List.mem_append_right _ (List.mem_map.mpr ⟨a, ?_, rfl⟩))
  exact List.mem_filter.mpr ⟨ha, List.contains_iff_mem.mpr hid⟩

theorem selectRetained_validation {v : ValidationResult} (hv : v ∈ r.validations.rows)
    (hid : v.proposalId ∈ (selectRetained env nowMs r).proposalIds) :
    v.id ∈ (selectRetained env nowMs r).validationIds :=
  List.mem_map.mpr ⟨v, List.mem_filter.mpr ⟨hv, List.contains_iff_mem.mpr hid⟩, rfl⟩

theorem mem_workerIds {x : String} (h : x ∈ collectProtectedWorkerIds r
      (selectRetained env nowMs r).exchangeIds (selectRetained env nowMs r).taskIds
      (selectRetained env nowMs r).proposalIds) :
    x ∈ (selectRetained env nowMs r).workerIds := mem_selectRetained_of_protected h

theorem selectRetained_worker_of_exchange {e : ExchangeState} {x : String}
    (he : e ∈ r.exchanges.rows) (hid : e.id ∈ (selectRetained env nowMs r).exchangeIds)
    (hx : x ∈ e.targetNodeId :: e.target.id :: presentIds [e.assignedWorkerId]) :
    x ∈ (selectRetained env nowMs r).workerIds :=
  mem_workerIds <| List.mem_append_left _ <| List.mem_append_left _ <|
    List.mem_flatMap.mpr ⟨e, Table.mem_pick he hid, hx⟩

theorem selectRetained_worker_of_task {t : TaskRecord} {x : String} (ht : t ∈ r.tasks.rows)
    (hid : t.id ∈ (selectRetained env nowMs r).taskIds)
    (hx : x ∈ t.targetNodeId :: t.target.id :: presentIds [t.assignedWorkerId, t.claimedBy]) :
    x ∈ (selectRetained env nowMs r).workerIds :=
  mem_workerIds <| List.mem_append_left _ <| List.mem_append_right _ <|
    List.mem_flatMap.mpr ⟨t, Table.mem_pick ht hid, hx⟩

theorem selectRetained_worker_of_proposal {p : ChangeProposal} {x : String}
    (hp : p ∈ r.proposals.rows) (hid : p.id ∈ (selectRetained env nowMs r).proposalIds)
    (hx : x ∈ [p.sourceNodeId, p.targetNodeId, p.source.id, p.target.id]) :
    x ∈ (selectRetained env nowMs r).workerIds :=
  mem_workerIds <| List.mem_append_right _ <|
    List.mem_flatMap.mpr ⟨p, Table.mem_pick hp hid, hx⟩

/-! ## One pass -/

theorem applyRetentionPolicy_live : LiveKept r (applyRetentionPolicy env nowMs r) where
  exchanges := rowsKept_of_mem fun _ he hlive => selectRetained_exchange he hlive
  tasks := rowsKept_of_mem fun _ ht hlive => selectRetained_task ht hlive
  proposals := rowsKept_of_mem fun _ hp hlive => selectRetained_proposal hp hlive

theorem applyRetentionPolicy_task {t : TaskRecord}
    (h : t ∈ (applyRetentionPolicy env nowMs r).tasks.rows) :
    TaskRefsKept r (applyRetentionPolicy env nowMs r) t := by
  obtain ⟨ht, hid⟩ := mem_pruneMapEntries.mp h
  refine ⟨optRefKept_of_mem fun x hx hne => selectRetained_exchange_of_task ht hid hx hne,
    optRefKept_of_mem fun x hx hne => selectRetained_proposal_of_task ht hid hx hne,
    fun x hx => refKept_of_mem (selectRetained_artifact_of_task ht hid hx), fun x hx => ?_,
    fun o ho => optRefKept_of_mem fun x hx hne => ?_⟩
  · refine refKept_of_mem (selectRetained_worker_of_task ht hid ?_)
    simp only [List.mem_cons, List.not_mem_nil, or_false] at hx ⊢
    exact hx.elim .inl fun h => .inr (.inl h)
  · refine selectRetained_worker_of_task ht hid ?_
    exact List.mem_cons_of_mem _ (List.mem_cons_of_mem _ (mem_presentIds (hx ▸ ho) hne))

theorem applyRetentionPolicy_exchange {e : ExchangeState}
    (h : e ∈ (applyRetentionPolicy env nowMs r).exchanges.rows) :
    ExchangeRefsKept r (applyRetentionPolicy env nowMs r) e := by
  obtain ⟨he, hid⟩ := mem_pruneMapEntries.mp h
  refine ⟨rowsKept_of_mem fun m hm hmessage => ?_, fun x hx => ?_,
    optRefKept_of_mem fun x hx hne => ?_⟩
  · refine (selectRetained_message hm).mpr ?_
    rw [hmessage]
    exact hid
  · refine refKept_of_mem (selectRetained_worker_of_exchange he hid ?_)
    simp only [List.mem_cons, List.not_mem_nil, or_false] at hx ⊢
    exact hx.elim .inl fun h => .inr (.inl h)
  · refine selectRetained_worker_of_exchange he hid ?_
    exact List.mem_cons_of_mem _ (List.mem_cons_of_mem _
      (mem_presentIds (hx ▸ List.mem_cons_self) hne))

theorem applyRetentionPolicy_proposal {p : ChangeProposal}
    (h : p ∈ (applyRetentionPolicy env nowMs r).proposals.rows) :
    ProposalRefsKept r (applyRetentionPolicy env nowMs r) p := by
  obtain ⟨hp, hid⟩ := mem_pruneMapEntries.mp h
  exact ⟨fun x hx => refKept_of_mem (selectRetained_artifact_of_proposal hp hid hx),
    rowsKept_of_mem fun a ha hpa => selectRetained_attached ha (hpa ▸ hid),
    rowsKept_of_mem fun v hv hpv => selectRetained_validation hv (hpv ▸ hid),
    fun x hx => refKept_of_mem (selectRetained_worker_of_proposal hp hid hx)⟩

/-- No exchange that is not selected for itself is taken back for one of its tasks while its active
task is stored and not selected. -/
def ReaddedHaveTask (env : Env) (nowMs : Int) (r : Records) : Prop :=
  ∀ e ∈ r.exchanges.rows, e.id ∉ selectedExchangeIds env nowMs r → e.id ≠ "" →
    (∃ t ∈ r.tasks.rows, t.id ∈ selectedTaskIds env nowMs r ∧ t.exchangeId = some e.id) →
    ∀ x, e.activeTaskId = some x → x ≠ "" → (r.tasks.get? x).isSome →
      x ∈ selectedTaskIds env nowMs r

/-- A retention pass loses no live record and no record that a retained one refers to, exactly when
the exchanges it takes back find their active tasks selected. -/
theorem references_kept_iff (env : Env) (nowMs : Int) (r : Records) :
    LiveKept r (applyRetentionPolicy env nowMs r) ∧
        ReferencesKept r (applyRetentionPolicy env nowMs r) ↔
      ReaddedHaveTask env nowMs r := by
  constructor
  · rintro ⟨-, hrefs⟩ e he hnot hne ⟨t, ht, hid, hx⟩ x hactive hxne hsome
    have hkept : e.id ∈ (selectRetained env nowMs r).exchangeIds :=
      selectRetained_exchange_of_task ht hid hx hne
    have href := hrefs.activeTasks e (mem_pruneMapEntries.mpr ⟨he, hkept⟩) x hactive hxne
    exact retained_of_refKept href hsome
  · intro h
    refine ⟨applyRetentionPolicy_live, fun t => applyRetentionPolicy_task,
      fun e => applyRetentionPolicy_exchange, fun e he => ?_,
      fun p => applyRetentionPolicy_proposal⟩
    obtain ⟨hmem, hid⟩ := mem_pruneMapEntries.mp he
    intro x hx hne a ha
    refine refKept_of_mem ?_ a ha
    rw [taskIds_eq]
    by_cases hselected : e.id ∈ selectedExchangeIds env nowMs r
    · exact selectRetained_activeTask hmem hselected hx hne
    · obtain ⟨hidne, htask⟩ := readded_of_mem hid hselected
      exact h e hmem hselected hidne htask x hx hne (by rw [ha]; rfl)

/-! ## The task that is lost -/

section
variable (id : String) (status : TaskStatus)

/-- A task of the exchange `x`, last touched at time zero. -/
def taskOfX : TaskRecord where
  id
  exchangeId := some "x"
  parentTaskId := none
  referenceTaskIds := []
  intent := .chat
  requester := { id := "hub" }
  target := { id := "worker" }
  targetNodeId := "worker"
  assignedWorkerId := none
  workspace := none
  message := none
  proposalId := none
  artifactIds := []
  via := none
  policyContext := none
  payload := []
  status
  createdAt := .iso 0
  updatedAt := .iso 0
  taskOrigin := .api
  brokerOfRecord := none
  teamId := none

end

/-- A completed exchange whose active task is `done`. -/
def exchangeX : ExchangeState where
  id := "x"
  requester := { id := "hub" }
  target := { id := "worker" }
  targetNodeId := "worker"
  message := ""
  maxTurns := 8
  intent := .chat
  status := .completed
  rootMessageId := "m"
  latestMessageId := "m"
  messageCount := 0
  lastMessageAt := .iso 0
  activeTaskId := some "done"
  createdAt := .iso 0
  updatedAt := .iso 0

/-- The exchange with its active task and with a second task that is still queued. -/
def recordsX : Records where
  exchanges := Table.empty.set exchangeX
  tasks := (Table.empty.set (taskOfX "open" .queued)).set (taskOfX "done" .succeeded)

/-- The open task takes the exchange back, and the task that the exchange names is dropped. -/
theorem readded_exchange_loses_task :
    let env := Env.numbered
      { retention := { terminalRetentionMs := 1, maxTerminalExchanges := 0, maxTerminalTasks := 0 } }
    ¬(LiveKept recordsX (applyRetentionPolicy env 10 recordsX) ∧
      ReferencesKept recordsX (applyRetentionPolicy env 10 recordsX)) := by
  intro env h
  have hexchange : exchangeX ∈ (applyRetentionPolicy env 10 recordsX).exchanges.rows :=
    List.mem_cons_self
  have hbefore : recordsX.tasks.get? "done" = some (taskOfX "done" .succeeded) := rfl
  have hafter : (applyRetentionPolicy env 10 recordsX).tasks.get? "done" = none := rfl
  have hkept := h.2.activeTasks exchangeX hexchange "done" rfl (by decide) _ hbefore
  rw [hafter] at hkept
  cases hkept

end A2ABroker
