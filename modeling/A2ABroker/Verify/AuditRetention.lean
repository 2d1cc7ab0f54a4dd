import A2ABroker.Verify.References

/-! # Audit evidence under heartbeats

Heartbeat audit events and all the others, the evidence, compete for places of their own. What a
retention pass keeps of the evidence is computed from the evidence alone (`applyRetentionPolicy_evidence`),
so two contents that differ in their heartbeats keep the same evidence. -/

namespace A2ABroker

variable {env : Env} {nowMs : Int} {r : Records}

def AuditEvent.isHeartbeat (e : AuditEvent) : Bool := isHeartbeatAuditEvent e.action e.targetType

/-- The audit events that are not heartbeats, in order. -/
def evidence (t : Table AuditEvent) : List AuditEvent := t.rows.filter fun e => !e.isHeartbeat

/-- The events that compete for the places of the evidence. -/
def evidenceCandidates (env : Env) (k : Retained) (events : List AuditEvent) : List Candidate :=
  events.filterMap fun e =>
    if isAuditEventRetained k e || e.isHeartbeat then none
    else (parseRetentionTimestamp env e.createdAt).map fun ms => ⟨e.id, ms⟩

/-- Whether a retention pass keeps an event that is not a heartbeat, given the evidence. -/
def evidenceKept (env : Env) (nowMs : Int) (k : Retained) (events : List AuditEvent)
    (e : AuditEvent) : Bool :=
  let policy := env.config.retention
  isAuditEventRetained k e || (parseRetentionTimestamp env e.createdAt).isNone ||
    (retainRecentCandidates env (nowMs - policy.auditRetentionMs) policy.maxAuditEvents
      (evidenceCandidates env k events)).contains e.id

theorem evidenceCandidates_filter (k : Retained) (events : List AuditEvent) :
    evidenceCandidates env k (events.filter fun e => !e.isHeartbeat) =
      evidenceCandidates env k events := by
  rw [evidenceCandidates, List.filterMap_filter]
  refine List.filterMap_congr fun e _ => ?_
  cases e.isHeartbeat with
  | true => simp
  | false => simp

/-! ## The kept ids -/

theorem mem_retainRecentCandidates {cutoffMs : Int} {maxEvents : Nat} {candidates : List Candidate}
    {id : String} (h : id ∈ retainRecentCandidates env cutoffMs maxEvents candidates) :
    ∃ c ∈ candidates, c.id = id := by
  obtain ⟨c, hc, rfl⟩ := List.mem_map.mp h
  have hsorted := (List.mem_filter.mp (List.mem_of_mem_take hc)).1
  exact ⟨c, mem_sortedCopy.mp hsorted, rfl⟩

/-- An event of a table that is not a heartbeat is kept by the rule for evidence: ids are distinct,
so that no other event answers for it. -/
theorem contains_selectRetainedAuditEventIds {t : Table AuditEvent} {k : Retained} {e : AuditEvent}
    (he : e ∈ t.rows) (hnot : e.isHeartbeat = false) :
    let policy := env.config.retention
    (selectRetainedAuditEventIds env t.rows nowMs policy.auditRetentionMs policy.maxAuditEvents
      policy.maxHeartbeatAuditEvents k).contains e.id = evidenceKept env nowMs k t.rows e := by
  intro policy
  have hunique : ∀ e' ∈ t.rows, e'.id = e.id → e' = e := by
    intro e' he' hid
    have h := Table.get?_key_of_mem he
    rw [show key e = key e' from hid.symm, Table.get?_key_of_mem he'] at h
    exact Option.some.inj h
  rw [Bool.eq_iff_iff, List.contains_iff_mem]
  unfold selectRetainedAuditEventIds evidenceKept
  extract_lets cutoffMs stamp kept candidates
  rw [List.mem_append, List.mem_append, Bool.or_eq_true, List.contains_iff_mem]
  have hkept : e.id ∈ kept.map (·.id) ↔ (isAuditEventRetained k e || (stamp e).isNone) = true := by
    constructor
    · intro h
      obtain ⟨e', he', hid⟩ := List.mem_map.mp h
      obtain ⟨hmem, hp⟩ := List.mem_filter.mp he'
      rwa [← hunique e' hmem hid]
    · exact fun h => List.mem_map.mpr ⟨e, List.mem_filter.mpr ⟨he, h⟩, rfl⟩
  have hheartbeats : e.id ∉ retainRecentCandidates env cutoffMs policy.maxHeartbeatAuditEvents
      (candidates true) := by
    intro h
    obtain ⟨c, hc, hid⟩ := mem_retainRecentCandidates h
    obtain ⟨e', he', hcandidate⟩ := List.mem_filterMap.mp hc
    split at hcandidate
    · cases hcandidate
    · rename_i hcond
      obtain ⟨ms, -, rfl⟩ := Option.map_eq_some_iff.mp hcandidate
      obtain rfl := hunique e' he' hid
      have hheartbeat : isHeartbeatAuditEvent e'.action e'.targetType = false := hnot
      simp [hheartbeat] at hcond
  have hevidence : candidates false = evidenceCandidates env k t.rows := by
    refine List.filterMap_congr fun e' _ => ?_
    show (if isAuditEventRetained k e' || e'.isHeartbeat != false then none else _) = _
    rw [Bool.bne_false]
  rw [hkept, hevidence]
  exact ⟨fun h => h.elim id fun h => absurd h hheartbeats, .inl⟩

/-- What a retention pass leaves of the evidence follows from the evidence. -/
theorem applyRetentionPolicy_evidence (t : Table AuditEvent) :
    evidence (applyRetentionPolicy env nowMs { r with auditEvents := t }).auditEvents =
      (evidence t).filter (evidenceKept env nowMs (selectRetained env nowMs r) (evidence t)) := by
  have hkeep : ∀ e, evidenceKept env nowMs (selectRetained env nowMs r) (evidence t) e =
      evidenceKept env nowMs (selectRetained env nowMs r) t.rows e := by
    intro e
    unfold evidenceKept evidence
    rw [evidenceCandidates_filter]
  unfold evidence at *
  rw [List.filter_filter]
  show List.filter _ (List.filter _ t.rows) = _
  rw [List.filter_filter]
  refine List.filter_congr fun e he => ?_
  cases hheartbeat : e.isHeartbeat with
  | true => simp
  | false =>
    rw [hkeep e, ← contains_selectRetainedAuditEventIds he hheartbeat]
    simp only [Bool.not_false, Bool.true_and, Bool.and_true]
    rfl

/-- Two contents that differ in their heartbeat audit events only keep the same evidence. -/
theorem heartbeats_do_not_interfere (env : Env) (nowMs : Int) (r : Records)
    (t t' : Table AuditEvent) (h : evidence t = evidence t') :
    evidence (applyRetentionPolicy env nowMs { r with auditEvents := t }).auditEvents =
      evidence (applyRetentionPolicy env nowMs { r with auditEvents := t' }).auditEvents := by
  rw [applyRetentionPolicy_evidence, applyRetentionPolicy_evidence, h]

/-- The heartbeat of a worker, and a created proposal. -/
def beatOf (worker : String) : AuditEvent :=
  { id := "worker-heartbeat:" ++ worker, actorId := worker, action := .workerHeartbeat
    targetType := .worker, targetId := worker, proposalId := none, note := none
    createdAt := .iso 9 }

def proposalEvent : AuditEvent :=
  { id := "a", actorId := "hub", action := .proposalCreated, targetType := .proposal
    targetId := "p", proposalId := some "p", note := none, createdAt := .iso 8 }

/-- Two heartbeats beside one event, and with room for one event only. -/
theorem heartbeats_do_not_interfere_pair :
    let env := Env.numbered { retention := { maxAuditEvents := 1, maxHeartbeatAuditEvents := 1 } }
    let t := Table.empty.set proposalEvent
    let t' := (t.set (beatOf "v")).set (beatOf "w")
    evidence (applyRetentionPolicy env 10 { auditEvents := t }).auditEvents =
      evidence (applyRetentionPolicy env 10 { auditEvents := t' }).auditEvents ∧
    evidence (applyRetentionPolicy env 10 { auditEvents := t' }).auditEvents = [proposalEvent] := by
  intro env t t'
  exact ⟨heartbeats_do_not_interfere env 10 {} t t' (by decide), by decide +kernel⟩

end A2ABroker
