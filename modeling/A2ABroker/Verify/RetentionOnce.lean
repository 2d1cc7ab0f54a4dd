import A2ABroker.Verify.AuditRetention

/-! # A second retention pass

What a pass keeps is selected by the ids of the records. The ids that it selects are selected again
from the records that it left (`selectRetainedTerminalRecordIds_filter`): those outside the cap are
kept whatever else is there, and a cap chooses the same records when only records beyond it are
gone. So a second pass at the same time selects the same ids for each map (`selectRetained_pruned`),
and prunes nothing. -/

namespace A2ABroker

open Ranking

variable {env : Env} {nowMs : Int} {r : Records}

/-! ## Selecting again -/

/-- Candidates are sorted among each other as they are among all. -/
theorem sortedCopy_filter [Std.TransCmp env.localeCompare] {candidates : List Candidate}
    {p : Candidate → Bool} : sortedCopy (compareCandidates env) (candidates.filter p) =
      (sortedCopy (compareCandidates env) candidates).filter p :=
  (filter_insertionSort (r := sortOrder (compareCandidates env))).symm

section
variable {α : Type} {isTerminal : α → Bool} {getId : α → String} {getTimestamp : α → Timestamp}
  {cutoffMs : Int} {retentionMs maxTerminalRecords : Nat} {keep : String → Bool}

/-- A record is kept for good, or it competes for the places of the cap. -/
theorem scanTerminalRecords_cons (env : Env) (isTerminal : α → Bool) (getId : α → String)
    (getTimestamp : α → Timestamp) (cutoffMs : Int) (r : α) (retained : List String) :
    (∀ rs candidates,
      scanTerminalRecords env isTerminal getId getTimestamp cutoffMs (r :: rs)
          (retained, candidates) =
        scanTerminalRecords env isTerminal getId getTimestamp cutoffMs rs
          (getId r :: retained, candidates)) ∨
    ∃ ms, ∀ rs candidates,
      scanTerminalRecords env isTerminal getId getTimestamp cutoffMs (r :: rs)
          (retained, candidates) =
        scanTerminalRecords env isTerminal getId getTimestamp cutoffMs rs
          (retained, candidates ++ [⟨getId r, ms⟩]) := by
  by_cases hkept : (!isTerminal r || retained.contains (getId r)) = true
  · refine .inl fun rs candidates => ?_
    rw [scanTerminalRecords, if_pos hkept]
  · cases hms : parseRetentionTimestamp env (getTimestamp r) with
    | none =>
      refine .inl fun rs candidates => ?_
      rw [scanTerminalRecords, if_neg hkept, hms]
    | some ms =>
      by_cases hyoung : cutoffMs ≤ ms
      · refine .inl fun rs candidates => ?_
        rw [scanTerminalRecords, if_neg hkept, hms]
        exact congrArg _ (if_pos hyoung)
      · refine .inr ⟨ms, fun rs candidates => ?_⟩
        rw [scanTerminalRecords, if_neg hkept, hms]
        exact congrArg _ (if_neg hyoung)

/-- Taking away records that are not kept for good takes away candidates only. -/
theorem scanTerminalRecords_filter (rs : List α) (retained : List String)
    (candidates : List Candidate)
    (h : ∀ id ∈ (scanTerminalRecords env isTerminal getId getTimestamp cutoffMs rs
      (retained, candidates)).1, keep id = true) :
    scanTerminalRecords env isTerminal getId getTimestamp cutoffMs
        (rs.filter fun r => keep (getId r)) (retained, candidates.filter fun c => keep c.id) =
      ((scanTerminalRecords env isTerminal getId getTimestamp cutoffMs rs (retained, candidates)).1,
        (scanTerminalRecords env isTerminal getId getTimestamp cutoffMs rs
          (retained, candidates)).2.filter fun c => keep c.id) := by
  induction rs generalizing retained candidates with
  | nil => rfl
  | cons r rs ih =>
    obtain hkept | ⟨ms, hcandidate⟩ :=
      scanTerminalRecords_cons env isTerminal getId getTimestamp cutoffMs r retained
    · rw [hkept] at h ⊢
      have hr : keep (getId r) = true := h _ (mem_scanTerminalRecords_of_mem List.mem_cons_self)
      rw [List.filter_cons_of_pos (by exact hr), hkept, ih _ _ h]
    · rw [hcandidate] at h ⊢
      rw [← ih _ _ h, List.filter_append]
      cases hr : keep (getId r) with
      | true =>
        rw [List.filter_cons_of_pos (by exact hr), hcandidate,
          List.filter_cons_of_pos (by exact hr), List.filter_nil]
      | false =>
        rw [List.filter_cons_of_neg (by simp [hr]), List.filter_cons_of_neg (by simp [hr]),
          List.filter_nil, List.append_nil]

/-- Candidates go with their records. -/
theorem filterMap_filter_ids {rs : List α} {f : α → Option Candidate}
    (hf : ∀ r c, f r = some c → c.id = getId r) :
    (rs.filter fun r => keep (getId r)).filterMap f =
      (rs.filterMap f).filter fun c => keep c.id := by
  induction rs with
  | nil => rfl
  | cons r rs ih =>
    cases hr : keep (getId r) with
    | true =>
      rw [List.filter_cons_of_pos (by exact hr)]
      cases hc : f r with
      | none => rw [List.filterMap_cons_none hc, List.filterMap_cons_none hc, ih]
      | some c =>
        rw [List.filterMap_cons_some hc, List.filterMap_cons_some hc,
          List.filter_cons_of_pos (by rw [hf r c hc]; exact hr), ih]
    | false =>
      rw [List.filter_cons_of_neg (by simp [hr]), ih]
      cases hc : f r with
      | none => rw [List.filterMap_cons_none hc]
      | some c =>
        rw [List.filterMap_cons_some hc, List.filter_cons_of_neg (by rw [hf r c hc]; simp [hr])]

/-- The ids that a selection made are selected from the records that it keeps. -/
theorem selectRetainedTerminalRecordIds_filter [Std.TransCmp env.localeCompare] {records : List α}
    {protectedIds : List String}
    (h : ∀ id ∈ selectRetainedTerminalRecordIds env records isTerminal getId getTimestamp nowMs
      retentionMs maxTerminalRecords protectedIds, keep id = true) :
    selectRetainedTerminalRecordIds env (records.filter fun r => keep (getId r)) isTerminal getId
        getTimestamp nowMs retentionMs maxTerminalRecords protectedIds =
      selectRetainedTerminalRecordIds env records isTerminal getId getTimestamp nowMs retentionMs
        maxTerminalRecords protectedIds := by
  have hscan := scanTerminalRecords_filter records protectedIds []
    fun id hid => h id (List.mem_append_left _ hid)
  unfold selectRetainedTerminalRecordIds at h ⊢
  rw [List.filter_nil] at hscan
  rw [hscan]
  dsimp only at h ⊢
  generalize (scanTerminalRecords env isTerminal getId getTimestamp (nowMs - retentionMs) records
    (protectedIds, [])).2 = candidates at h ⊢
  rw [sortedCopy_filter, take_filter_of_kept]
  exact fun c hc => h c.id (List.mem_append_right _ (List.mem_map_of_mem hc))

end

/-! ## The ids of a second pass -/

section
variable {α : Type} [Keyed α] {t : Table α} {ids kept : List String}

/-- Records that are kept are found as before. -/
theorem pick_pruneMapEntries (h : ids ⊆ kept) : (pruneMapEntries t kept).pick ids = t.pick ids := by
  refine List.filterMap_congr fun id hid => ?_
  cases hget : t.get? id with
  | none => rw [pruneMapEntries, Table.get?_retain, hget, Option.filter_none]
  | some a => exact refKept_of_mem (h hid) a hget

/-- Rows that are kept are listed as before. -/
theorem filter_pruneMapEntries {p : α → Bool} (h : ∀ a ∈ t.rows, p a = true → key a ∈ kept) :
    (pruneMapEntries t kept).rows.filter p = t.rows.filter p := by
  show (t.rows.filter fun a => kept.contains (key a)).filter p = _
  rw [List.filter_filter]
  refine List.filter_congr fun a ha => ?_
  cases hp : p a with
  | false => rfl
  | true => exact List.contains_iff_mem.mpr (h a ha hp)

theorem pruneMapEntries_pruneMapEntries :
    pruneMapEntries (pruneMapEntries t ids) ids = pruneMapEntries t ids := by
  unfold pruneMapEntries
  conv_rhs => rw [← Table.retain_true (t := t.retain _)]
  exact Table.retain_congr fun a ha => (Table.mem_rows_retain.mp ha).2

end

attribute [ext] Retained

theorem proposalIds_eq : (selectRetained env nowMs r).proposalIds =
    let policy := env.config.retention
    selectRetainedTerminalRecordIds env r.proposals.rows (fun p => p.status.terminal) (·.id)
      (·.updatedAt) nowMs policy.terminalRetentionMs policy.maxTerminalProposals
      (presentIds ((r.tasks.pick (selectedTaskIds env nowMs r)).map (·.proposalId))) := rfl

theorem artifactIds_eq : (selectRetained env nowMs r).artifactIds =
    collectRetainedArtifactIds r (selectRetained env nowMs r).taskIds
      (selectRetained env nowMs r).proposalIds := rfl

theorem validationIds_eq : (selectRetained env nowMs r).validationIds =
    (r.validations.rows.filter
      fun v => (selectRetained env nowMs r).proposalIds.contains v.proposalId).map (·.id) := rfl

theorem messageIds_eq : (selectRetained env nowMs r).messageIds =
    (r.exchangeMessages.rows.filter
      fun m => (selectRetained env nowMs r).exchangeIds.contains m.exchangeId).map (·.id) := rfl

theorem workerIds_eq : (selectRetained env nowMs r).workerIds =
    let policy := env.config.retention
    selectRetainedWorkerIds env r.workers.rows nowMs policy.inactiveWorkerRetentionMs
      policy.maxInactiveWorkers
      (collectProtectedWorkerIds r (selectRetained env nowMs r).exchangeIds
        (selectRetained env nowMs r).taskIds (selectRetained env nowMs r).proposalIds) := rfl

theorem selectedExchangeIds_subset :
    selectedExchangeIds env nowMs r ⊆ (selectRetained env nowMs r).exchangeIds :=
  fun _ h => List.mem_append_left _ h

theorem collectRetainedArtifactIds_pruned :
    let k := selectRetained env nowMs r
    collectRetainedArtifactIds (applyRetentionPolicy env nowMs r) k.taskIds k.proposalIds =
      collectRetainedArtifactIds r k.taskIds k.proposalIds := by
  intro k
  have hproposals : (applyRetentionPolicy env nowMs r).proposals.pick k.proposalIds =
      r.proposals.pick k.proposalIds := pick_pruneMapEntries (List.Subset.refl _)
  have htasks : (applyRetentionPolicy env nowMs r).tasks.pick k.taskIds = r.tasks.pick k.taskIds :=
    pick_pruneMapEntries (List.Subset.refl _)
  have hattached : (applyRetentionPolicy env nowMs r).artifacts.rows.filter
        (fun a => k.proposalIds.contains a.proposalId) =
      r.artifacts.rows.filter fun a => k.proposalIds.contains a.proposalId :=
    filter_pruneMapEntries fun a ha hp => selectRetained_attached ha (List.contains_iff_mem.mp hp)
  unfold collectRetainedArtifactIds
  rw [hproposals, htasks, hattached]

theorem collectProtectedWorkerIds_pruned :
    let k := selectRetained env nowMs r
    collectProtectedWorkerIds (applyRetentionPolicy env nowMs r) k.exchangeIds k.taskIds
        k.proposalIds = collectProtectedWorkerIds r k.exchangeIds k.taskIds k.proposalIds := by
  intro k
  have hexchanges : (applyRetentionPolicy env nowMs r).exchanges.pick k.exchangeIds =
      r.exchanges.pick k.exchangeIds := pick_pruneMapEntries (List.Subset.refl _)
  have hproposals : (applyRetentionPolicy env nowMs r).proposals.pick k.proposalIds =
      r.proposals.pick k.proposalIds := pick_pruneMapEntries (List.Subset.refl _)
  have htasks : (applyRetentionPolicy env nowMs r).tasks.pick k.taskIds = r.tasks.pick k.taskIds :=
    pick_pruneMapEntries (List.Subset.refl _)
  unfold collectProtectedWorkerIds
  rw [hexchanges, htasks, hproposals]

section
variable [Std.TransCmp env.localeCompare]

theorem selectedExchangeIds_pruned :
    selectedExchangeIds env nowMs (applyRetentionPolicy env nowMs r) =
      selectedExchangeIds env nowMs r :=
  selectRetainedTerminalRecordIds_filter
    fun _ hid => List.contains_iff_mem.mpr (selectedExchangeIds_subset hid)

theorem selectedTaskIds_pruned : selectedTaskIds env nowMs (applyRetentionPolicy env nowMs r) =
    selectedTaskIds env nowMs r := by
  have hexchanges : (applyRetentionPolicy env nowMs r).exchanges.pick
      (selectedExchangeIds env nowMs r) = r.exchanges.pick (selectedExchangeIds env nowMs r) :=
    pick_pruneMapEntries selectedExchangeIds_subset
  unfold selectedTaskIds
  rw [selectedExchangeIds_pruned, hexchanges]
  exact selectRetainedTerminalRecordIds_filter fun _ hid => List.contains_iff_mem.mpr hid

theorem exchangeIds_pruned :
    (selectRetained env nowMs (applyRetentionPolicy env nowMs r)).exchangeIds =
      (selectRetained env nowMs r).exchangeIds := by
  have htasks : (applyRetentionPolicy env nowMs r).tasks.pick (selectedTaskIds env nowMs r) =
      r.tasks.pick (selectedTaskIds env nowMs r) := pick_pruneMapEntries (List.Subset.refl _)
  rw [exchangeIds_eq, exchangeIds_eq, selectedExchangeIds_pruned, selectedTaskIds_pruned, htasks]

theorem proposalIds_pruned :
    (selectRetained env nowMs (applyRetentionPolicy env nowMs r)).proposalIds =
      (selectRetained env nowMs r).proposalIds := by
  have htasks : (applyRetentionPolicy env nowMs r).tasks.pick (selectedTaskIds env nowMs r) =
      r.tasks.pick (selectedTaskIds env nowMs r) := pick_pruneMapEntries (List.Subset.refl _)
  rw [proposalIds_eq, selectedTaskIds_pruned, htasks]
  exact selectRetainedTerminalRecordIds_filter fun _ hid => List.contains_iff_mem.mpr hid

/-- A second pass keeps what the first one kept. -/
theorem selectRetained_pruned : selectRetained env nowMs (applyRetentionPolicy env nowMs r) =
    selectRetained env nowMs r := by
  have hexchanges := @exchangeIds_pruned env nowMs r _
  have htasks : (selectRetained env nowMs (applyRetentionPolicy env nowMs r)).taskIds =
      (selectRetained env nowMs r).taskIds := selectedTaskIds_pruned
  have hproposals := @proposalIds_pruned env nowMs r _
  have hvalidations : (applyRetentionPolicy env nowMs r).validations.rows.filter
        (fun v => (selectRetained env nowMs r).proposalIds.contains v.proposalId) =
      r.validations.rows.filter
        fun v => (selectRetained env nowMs r).proposalIds.contains v.proposalId :=
    filter_pruneMapEntries fun v hv hp => selectRetained_validation hv (List.contains_iff_mem.mp hp)
  have hmessages : (applyRetentionPolicy env nowMs r).exchangeMessages.rows.filter
        (fun m => (selectRetained env nowMs r).exchangeIds.contains m.exchangeId) =
      r.exchangeMessages.rows.filter
        fun m => (selectRetained env nowMs r).exchangeIds.contains m.exchangeId :=
    filter_pruneMapEntries fun m hm hp =>
      (selectRetained_message hm).mpr (List.contains_iff_mem.mp hp)
  refine Retained.ext hexchanges htasks hproposals ?_ ?_ ?_ ?_
  · rw [artifactIds_eq, htasks, hproposals, collectRetainedArtifactIds_pruned, artifactIds_eq]
  · rw [validationIds_eq, hproposals, hvalidations, validationIds_eq]
  · rw [messageIds_eq, hexchanges, hmessages, messageIds_eq]
  · rw [workerIds_eq, hexchanges, htasks, hproposals, collectProtectedWorkerIds_pruned]
    exact selectRetainedTerminalRecordIds_filter fun _ hid => List.contains_iff_mem.mpr hid

end

/-! ## The audit events of a second pass -/

/-- An event that is kept whatever else there is. -/
def keptForGood (env : Env) (k : Retained) (e : AuditEvent) : Bool :=
  isAuditEventRetained k e || (parseRetentionTimestamp env e.createdAt).isNone

/-- An event that competes for a place, of the heartbeats or of the others. -/
def auditCandidate (env : Env) (k : Retained) (heartbeat : Bool) (e : AuditEvent) :
    Option Candidate :=
  if isAuditEventRetained k e || isHeartbeatAuditEvent e.action e.targetType != heartbeat then none
  else (parseRetentionTimestamp env e.createdAt).map fun ms => ⟨e.id, ms⟩

theorem auditCandidate_id {k : Retained} {heartbeat : Bool} {e : AuditEvent} {c : Candidate}
    (h : auditCandidate env k heartbeat e = some c) : c.id = e.id := by
  unfold auditCandidate at h
  split at h
  · cases h
  · obtain ⟨ms, -, rfl⟩ := Option.map_eq_some_iff.mp h
    rfl

theorem selectRetainedAuditEventIds_eq {events : List AuditEvent}
    {auditRetentionMs maxAuditEvents maxHeartbeatAuditEvents : Nat} {k : Retained} :
    selectRetainedAuditEventIds env events nowMs auditRetentionMs maxAuditEvents
        maxHeartbeatAuditEvents k =
      (events.filter (keptForGood env k)).map (·.id) ++
        retainRecentCandidates env (nowMs - auditRetentionMs) maxAuditEvents
          (events.filterMap (auditCandidate env k false)) ++
        retainRecentCandidates env (nowMs - auditRetentionMs) maxHeartbeatAuditEvents
          (events.filterMap (auditCandidate env k true)) := rfl

section
variable [Std.TransCmp env.localeCompare]

theorem retainRecentCandidates_filter {cutoffMs : Int} {maxEvents : Nat}
    {candidates : List Candidate} {keep : String → Bool}
    (h : ∀ id ∈ retainRecentCandidates env cutoffMs maxEvents candidates, keep id = true) :
    retainRecentCandidates env cutoffMs maxEvents (candidates.filter fun c => keep c.id) =
      retainRecentCandidates env cutoffMs maxEvents candidates := by
  unfold retainRecentCandidates at h ⊢
  rw [sortedCopy_filter, List.filter_comm, take_filter_of_kept]
  exact fun c hc => h c.id (List.mem_map_of_mem hc)

theorem selectRetainedAuditEventIds_filter {events : List AuditEvent}
    {auditRetentionMs maxAuditEvents maxHeartbeatAuditEvents : Nat} {k : Retained}
    {keep : String → Bool}
    (h : ∀ id ∈ selectRetainedAuditEventIds env events nowMs auditRetentionMs maxAuditEvents
      maxHeartbeatAuditEvents k, keep id = true) :
    selectRetainedAuditEventIds env (events.filter fun e => keep e.id) nowMs auditRetentionMs
        maxAuditEvents maxHeartbeatAuditEvents k =
      selectRetainedAuditEventIds env events nowMs auditRetentionMs maxAuditEvents
        maxHeartbeatAuditEvents k := by
  rw [selectRetainedAuditEventIds_eq] at h ⊢
  have hkept : (events.filter fun e => keep e.id).filter (keptForGood env k) =
      events.filter (keptForGood env k) := by
    rw [List.filter_filter]
    refine List.filter_congr fun e he => ?_
    cases hq : keptForGood env k e with
    | false => rfl
    | true =>
      have hmem : e.id ∈ (events.filter (keptForGood env k)).map (·.id) :=
        List.mem_map_of_mem (List.mem_filter.mpr ⟨he, hq⟩)
      exact h e.id (List.mem_append_left _ (List.mem_append_left _ hmem))
  have hcandidates (heartbeat : Bool) :
      (events.filter fun e => keep e.id).filterMap (auditCandidate env k heartbeat) =
        (events.filterMap (auditCandidate env k heartbeat)).filter fun c => keep c.id :=
    filterMap_filter_ids fun _ _ => auditCandidate_id
  rw [selectRetainedAuditEventIds_eq, hkept, hcandidates, hcandidates,
    retainRecentCandidates_filter, retainRecentCandidates_filter]
  · exact fun id hid => h id (List.mem_append_right _ hid)
  · exact fun id hid => h id (List.mem_append_left _ (List.mem_append_right _ hid))

end

theorem applyRetentionPolicy_of_ids {k : Retained} {auditIds : List String}
    (hk : selectRetained env nowMs r = k)
    (haudit : selectRetainedAuditEventIds env r.auditEvents.rows nowMs
      env.config.retention.auditRetentionMs env.config.retention.maxAuditEvents
      env.config.retention.maxHeartbeatAuditEvents k = auditIds) :
    applyRetentionPolicy env nowMs r =
      { r with
        exchanges := pruneMapEntries r.exchanges k.exchangeIds
        exchangeMessages := pruneMapEntries r.exchangeMessages k.messageIds
        tasks := pruneMapEntries r.tasks k.taskIds
        proposals := pruneMapEntries r.proposals k.proposalIds
        artifacts := pruneMapEntries r.artifacts k.artifactIds
        validations := pruneMapEntries r.validations k.validationIds
        workers := pruneMapEntries r.workers k.workerIds
        auditEvents := pruneMapEntries r.auditEvents auditIds } := by
  subst hk haudit
  rfl

/-- A second pass removes nothing. -/
theorem retention_idempotent (env : Env) (hcompare : Std.TransCmp env.localeCompare) (nowMs : Int)
    (r : Records) : applyRetentionPolicy env nowMs (applyRetentionPolicy env nowMs r) =
      applyRetentionPolicy env nowMs r := by
  have haudit : selectRetainedAuditEventIds env (applyRetentionPolicy env nowMs r).auditEvents.rows
        nowMs env.config.retention.auditRetentionMs env.config.retention.maxAuditEvents
        env.config.retention.maxHeartbeatAuditEvents (selectRetained env nowMs r) =
      selectRetainedAuditEventIds env r.auditEvents.rows nowMs env.config.retention.auditRetentionMs
        env.config.retention.maxAuditEvents env.config.retention.maxHeartbeatAuditEvents
        (selectRetained env nowMs r) :=
    selectRetainedAuditEventIds_filter fun _ hid => List.contains_iff_mem.mpr hid
  rw [applyRetentionPolicy_of_ids selectRetained_pruned haudit]
  unfold applyRetentionPolicy
  simp only [pruneMapEntries_pruneMapEntries]

/-- Two heartbeats at the same time, with room for one. -/
theorem retention_idempotent_tie :
    let env := { Env.numbered { retention := { maxHeartbeatAuditEvents := 1 } } with
      localeCompare := compare }
    let r : Records := { auditEvents := (Table.empty.set (beatOf "w")).set (beatOf "v") }
    (applyRetentionPolicy env 10 r).auditEvents.rows = [beatOf "v"] ∧
    applyRetentionPolicy env 10 (applyRetentionPolicy env 10 r) =
      applyRetentionPolicy env 10 r := by
  intro env r
  exact ⟨by decide +kernel,
    retention_idempotent env (inferInstanceAs (Std.TransCmp (compare (α := String)))) 10 r⟩

end A2ABroker
