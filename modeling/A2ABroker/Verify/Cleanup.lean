import A2ABroker.Core.Cleanup
import A2ABroker.Lib.Text
import A2ABroker.Verify.RetentionOnce

/-! # What a cleanup deletes

The workers that a cleanup protects are those of the open tasks among the 2000 newest ones of any
status. A row of a worker that only older open tasks need has to keep its place by itself: it was seen
inside the window, or not too many other unprotected rows were seen after it. -/

namespace A2ABroker

open Ranking

/-! ## The places of a cap -/

section
variable {α : Type} (env : Env) (isTerminal : α → Bool) (getId : α → String)
  (getTimestamp : α → Timestamp) (cutoffMs : Int) (protectedIds : List String)

/-- A record that is not kept for good, as it competes for the places of the cap. -/
def retentionCandidate (r : α) : Option Candidate :=
  if !isTerminal r || protectedIds.contains (getId r) then none
  else ((parseRetentionTimestamp env (getTimestamp r)).filter (· < cutoffMs)).map (⟨getId r, ·⟩)

/-- The records that come before `r` in the ranking: of those that tie with it, the ones that come
before it in the table. -/
def rivals (records : List α) (r : α) (c : Candidate) : Nat :=
  let candidate := retentionCandidate env isTerminal getId getTimestamp cutoffMs protectedIds
  (records.takeWhile (getId · != getId r)).countP
      (fun q => (candidate q).any fun d => compareCandidates env c d != .lt) +
    (records.dropWhile (getId · != getId r)).countP
      (fun q => (candidate q).any fun d => compareCandidates env d c == .lt)

variable {env isTerminal getId getTimestamp cutoffMs protectedIds}

theorem retentionCandidate_eq_some {r : α} {c : Candidate} :
    retentionCandidate env isTerminal getId getTimestamp cutoffMs protectedIds r = some c ↔
      (isTerminal r = true ∧ protectedIds.contains (getId r) = false) ∧
        ∃ ms, parseRetentionTimestamp env (getTimestamp r) = some ms ∧ ms < cutoffMs ∧
          (⟨getId r, ms⟩ : Candidate) = c := by
  unfold retentionCandidate
  cases isTerminal r <;> cases protectedIds.contains (getId r) <;>
    simp [Option.filter_eq_some_iff, and_assoc]

theorem retentionCandidate_id {r : α} {c : Candidate}
    (h : retentionCandidate env isTerminal getId getTimestamp cutoffMs protectedIds r = some c) :
    c.id = getId r := by
  obtain ⟨-, ms, -, -, rfl⟩ := retentionCandidate_eq_some.mp h
  rfl

theorem scanTerminalRecords_step {r : α} {rs : List α} {retained : List String}
    {candidates : List Candidate}
    (h : retained.contains (getId r) = protectedIds.contains (getId r)) :
    scanTerminalRecords env isTerminal getId getTimestamp cutoffMs (r :: rs) (retained, candidates) =
      scanTerminalRecords env isTerminal getId getTimestamp cutoffMs rs
        ((retentionCandidate env isTerminal getId getTimestamp cutoffMs protectedIds r).elim
          (getId r :: retained, candidates) fun c => (retained, candidates ++ [c])) := by
  rw [scanTerminalRecords, h]
  unfold retentionCandidate
  congr 1
  by_cases hkept : (!isTerminal r || protectedIds.contains (getId r)) = true
  · rw [if_pos hkept, if_pos hkept, Option.elim_none]
  · rw [if_neg hkept, if_neg hkept]
    cases hms : parseRetentionTimestamp env (getTimestamp r) with
    | none => rfl
    | some ms =>
      dsimp only
      by_cases hyoung : cutoffMs ≤ ms
      · rw [if_pos hyoung, Option.filter_some, if_neg (by simpa using hyoung)]
        rfl
      · rw [if_neg hyoung, Option.filter_some, if_pos (by simpa using hyoung)]
        rfl

theorem retentionCandidate_congr {protectedIds' : List String}
    (h : ∀ id, id ∈ protectedIds' ↔ id ∈ protectedIds) :
    retentionCandidate env isTerminal getId getTimestamp cutoffMs protectedIds' =
      retentionCandidate env isTerminal getId getTimestamp cutoffMs protectedIds := by
  funext r
  have hcontains : protectedIds'.contains (getId r) = protectedIds.contains (getId r) := by
    rw [Bool.eq_iff_iff, List.contains_iff_mem, List.contains_iff_mem, h]
  unfold retentionCandidate
  rw [hcontains]

/-- Under different ids, a scan keeps the records that are no candidates for good. -/
theorem scanTerminalRecords_candidates {rs : List α} (hnodup : (rs.map getId).Nodup) :
    ∀ (retained : List String) (candidates : List Candidate),
      (∀ r ∈ rs, retained.contains (getId r) = protectedIds.contains (getId r)) →
      (scanTerminalRecords env isTerminal getId getTimestamp cutoffMs rs (retained, candidates)).2 =
        candidates ++ rs.filterMap
          (retentionCandidate env isTerminal getId getTimestamp cutoffMs protectedIds) ∧
      ∀ id, id ∈ (scanTerminalRecords env isTerminal getId getTimestamp cutoffMs rs
          (retained, candidates)).1 ↔
        id ∈ retained ∨ ∃ r ∈ rs, getId r = id ∧
          retentionCandidate env isTerminal getId getTimestamp cutoffMs protectedIds r = none := by
  induction rs with
  | nil => exact fun _ _ _ => ⟨(List.append_nil _).symm, fun _ => by simp [scanTerminalRecords]⟩
  | cons r rs ih =>
    intro retained candidates hsame
    rw [List.map_cons, List.nodup_cons] at hnodup
    have hother : ∀ q ∈ rs, getId q ≠ getId r := fun q hq heq =>
      hnodup.1 (heq ▸ List.mem_map_of_mem hq)
    have hrest : ∀ q ∈ rs, retained.contains (getId q) = protectedIds.contains (getId q) :=
      fun q hq => hsame q (.tail _ hq)
    rw [scanTerminalRecords_step (hsame r (.head _))]
    cases hc : retentionCandidate env isTerminal getId getTimestamp cutoffMs protectedIds r with
    | none =>
      obtain ⟨hcandidates, hkept⟩ := ih hnodup.2 (getId r :: retained) candidates fun q hq => by
        rw [List.contains_cons, beq_eq_false_iff_ne.mpr (hother q hq), Bool.false_or, hrest q hq]
      refine ⟨by rw [Option.elim_none, hcandidates, List.filterMap_cons_none hc], fun id => ?_⟩
      rw [Option.elim_none, hkept id, List.mem_cons, List.exists_mem_cons_iff]
      constructor
      · rintro ((rfl | h) | h)
        · exact .inr (.inl ⟨rfl, hc⟩)
        · exact .inl h
        · exact .inr (.inr h)
      · rintro (h | ⟨rfl, -⟩ | h)
        · exact .inl (.inr h)
        · exact .inl (.inl rfl)
        · exact .inr h
    | some c =>
      obtain ⟨hcandidates, hkept⟩ := ih hnodup.2 retained (candidates ++ [c]) hrest
      refine ⟨?_, fun id => ?_⟩
      · rw [Option.elim_some, hcandidates, List.filterMap_cons_some hc, List.append_assoc]
        rfl
      · rw [Option.elim_some, hkept id, List.exists_mem_cons_iff, hc]
        simp

/-- A candidate has a place under the cap when it has fewer rivals. -/
theorem mem_take_candidates_iff [Std.TransCmp env.localeCompare] {records : List α} {r : α}
    {c : Candidate} {n : Nat} (hnodup : (records.map getId).Nodup) (hr : r ∈ records)
    (hc : retentionCandidate env isTerminal getId getTimestamp cutoffMs protectedIds r = some c) :
    c ∈ (sortedCopy (compareCandidates env) (records.filterMap
        (retentionCandidate env isTerminal getId getTimestamp cutoffMs protectedIds))).take n ↔
      rivals env isTerminal getId getTimestamp cutoffMs protectedIds records r c < n := by
  obtain ⟨u, v, rfl⟩ := List.append_of_mem hr
  rw [List.map_append, List.map_cons] at hnodup
  have hu : ∀ q ∈ u, (getId q != getId r) = true := fun q hq => by
    have hdisjoint := List.disjoint_of_nodup_append hnodup (List.mem_map_of_mem hq)
    exact bne_iff_ne.mpr fun heq => hdisjoint (heq ▸ .head _)
  have hsplit : (u ++ r :: v).filterMap
      (retentionCandidate env isTerminal getId getTimestamp cutoffMs protectedIds) =
        u.filterMap (retentionCandidate env isTerminal getId getTimestamp cutoffMs protectedIds) ++
          c :: v.filterMap
            (retentionCandidate env isTerminal getId getTimestamp cutoffMs protectedIds) := by
    rw [List.filterMap_append, List.filterMap_cons_some hc]
  have hcandidates : ((u ++ r :: v).filterMap
      (retentionCandidate env isTerminal getId getTimestamp cutoffMs protectedIds)).Nodup := by
    rw [← List.map_cons, ← List.map_append] at hnodup
    refine List.pairwise_filterMap.mpr ((List.pairwise_map.mp hnodup).imp ?_)
    rintro q q' hne d hd d' hd' rfl
    exact hne ((retentionCandidate_id hd).symm.trans (retentionCandidate_id hd'))
  have hsort : ∀ l : List Candidate, sortedCopy (compareCandidates env) l =
      l.insertionSort (sortOrder (compareCandidates env)) := fun _ => rfl
  rw [hsort, hsplit, mem_take_insertionSort (hsplit ▸ hcandidates), List.countP_filterMap,
    List.countP_filterMap]
  unfold rivals
  dsimp only
  rw [List.takeWhile_append_of_pos hu, List.dropWhile_append_of_pos hu,
    List.takeWhile_cons_of_neg (by simp), List.dropWhile_cons_of_neg (by simp), List.append_nil,
    List.countP_cons]
  have hself : compareCandidates env c c = .eq := Std.ReflCmp.compare_self
  have hany : ∀ (f : Candidate → Bool) (o : Option Candidate), (o.map f).getD false = o.any f := by
    intro f o
    cases o <;> rfl
  have hbehind : ∀ b, decide (sortOrder (compareCandidates env) b c) =
      (compareCandidates env c b != .lt) := by
    intro b
    rw [Bool.eq_iff_iff, decide_eq_true_iff, bne_iff_ne]
    exact Iff.rfl
  have hahead : ∀ b, decide (¬sortOrder (compareCandidates env) c b) =
      (compareCandidates env b c == .lt) := by
    intro b
    rw [Bool.eq_iff_iff, decide_eq_true_iff, beq_iff_eq]
    exact not_not
  rw [if_neg (by rw [hc, Option.any_some, hself]; decide), Nat.add_zero]
  simp only [hany, hbehind, hahead]

/-- A record of a table is dropped when it is a candidate and has too many rivals. -/
theorem not_mem_selectRetained_iff [Std.TransCmp env.localeCompare] {records : List α} {r : α}
    {nowMs : Int} {retentionMs maxTerminalRecords : Nat} (hnodup : (records.map getId).Nodup)
    (hr : r ∈ records) :
    getId r ∉ selectRetainedTerminalRecordIds env records isTerminal getId getTimestamp nowMs
        retentionMs maxTerminalRecords protectedIds ↔
      ∃ c, retentionCandidate env isTerminal getId getTimestamp (nowMs - retentionMs) protectedIds
          r = some c ∧
        maxTerminalRecords ≤ rivals env isTerminal getId getTimestamp (nowMs - retentionMs)
          protectedIds records r c := by
  obtain ⟨hcandidates, hkept⟩ := @scanTerminalRecords_candidates α env isTerminal getId
    getTimestamp (nowMs - retentionMs) protectedIds records hnodup protectedIds [] fun _ _ => rfl
  have hunique : ∀ q ∈ records, getId q = getId r → q = r := fun q hq heq =>
    List.inj_on_of_nodup_map hnodup hq hr heq
  unfold selectRetainedTerminalRecordIds
  dsimp only
  rw [List.mem_append, not_or, hkept (getId r), hcandidates, List.nil_append]
  cases hc : retentionCandidate env isTerminal getId getTimestamp (nowMs - retentionMs) protectedIds r with
  | none =>
    exact ⟨fun h => absurd (.inr ⟨r, hr, rfl, hc⟩) h.1, fun ⟨_, h, _⟩ => nomatch h⟩
  | some c =>
    have hfree : ¬(getId r ∈ protectedIds ∨ ∃ q ∈ records, getId q = getId r ∧
        retentionCandidate env isTerminal getId getTimestamp (nowMs - retentionMs) protectedIds q =
          none) := by
      rintro (hprotected | ⟨q, hq, hid, hnone⟩)
      · unfold retentionCandidate at hc
        rw [if_pos (by simp [hprotected])] at hc
        cases hc
      · rw [hunique q hq hid, hc] at hnone
        cases hnone
    rw [and_iff_right hfree]
    simp only [Option.some.injEq, exists_eq_left']
    rw [← not_lt, ← mem_take_candidates_iff hnodup hr hc, not_iff_not]
    constructor
    · intro hmem
      obtain ⟨d, hd, hid⟩ := List.mem_map.mp hmem
      obtain ⟨q, hq, hcandidate⟩ := List.mem_filterMap.mp (mem_sortedCopy.mp (List.mem_of_mem_take hd))
      rw [hunique q hq ((retentionCandidate_id hcandidate).symm.trans hid), hc] at hcandidate
      rwa [Option.some.inj hcandidate]
    · exact fun hmem => List.mem_map.mpr ⟨c, hmem, retentionCandidate_id hc⟩

end

/-! ## The planners -/

section
variable {α : Type} {env : Env} {isTerminal : α → Bool} {getId : α → String}
  {getTimestamp : α → Timestamp} {cutoffMs : Int}

/-- A planner that spares records in progress and protected ones goes through its records like the
broker's own pass. -/
theorem scanPlanRecords_eq {exempt : List String → α → Bool}
    (hexempt : ∀ retainedIds r,
      exempt retainedIds r = (!isTerminal r || retainedIds.contains (getId r)))
    (rs : List α) (acc : List String × List Candidate) :
    scanPlanRecords exempt getId (fun r => parseRetentionTimestamp env (getTimestamp r)) cutoffMs rs
        acc =
      scanTerminalRecords env isTerminal getId getTimestamp cutoffMs rs acc := by
  induction rs generalizing acc with
  | nil => rfl
  | cons r rs ih =>
    obtain ⟨retainedIds, candidates⟩ := acc
    rw [scanPlanRecords, ih, hexempt]
    rfl

theorem planRetainedIds_eq {exempt : List String → α → Bool}
    (hexempt : ∀ retainedIds r,
      exempt retainedIds r = (!isTerminal r || retainedIds.contains (getId r)))
    (records : List α) (nowMs : Int) (retentionMs cap : Nat) (protectedIds : List String) :
    planRetainedIds env exempt getId (fun r => parseRetentionTimestamp env (getTimestamp r))
        (nowMs - retentionMs) records cap protectedIds =
      selectRetainedTerminalRecordIds env records isTerminal getId getTimestamp nowMs retentionMs
        cap protectedIds := by
  unfold planRetainedIds selectRetainedTerminalRecordIds
  rw [scanPlanRecords_eq hexempt]

end

theorem planTaskRetention_eq (env : Env) (records : List TaskRecord) (nowMs : Int)
    (retentionMs maxTerminalRecords : Nat) (protectedTaskIds : List String) :
    planTaskRetentionFromRecords env records nowMs retentionMs maxTerminalRecords
        protectedTaskIds =
      buildRetentionPlan (nowMs - retentionMs) (records.map (·.id))
        (selectRetainedTerminalRecordIds env records (fun t => t.status.terminal) (·.id)
          (fun t => t.completedAt.getD t.updatedAt) nowMs retentionMs maxTerminalRecords
          protectedTaskIds) :=
  congrArg _ (planRetainedIds_eq (fun _ _ => rfl) records nowMs retentionMs maxTerminalRecords
    protectedTaskIds)

theorem planWorkerRetention_eq (env : Env) (records : List WorkerRecord) (nowMs : Int)
    (retentionMs maxInactiveWorkers : Nat) (protectedWorkerIds : List String) :
    planWorkerRetentionFromRecords env records nowMs retentionMs maxInactiveWorkers
        protectedWorkerIds =
      buildRetentionPlan (nowMs - retentionMs) (records.map (·.nodeId))
        (selectRetainedWorkerIds env records nowMs retentionMs maxInactiveWorkers
          protectedWorkerIds) :=
  congrArg _ (@planRetainedIds_eq WorkerRecord env (fun _ => true) (·.nodeId) (·.lastSeenAt) _
    (fun _ _ => rfl) records nowMs retentionMs maxInactiveWorkers protectedWorkerIds)

/-! ## Plans -/

variable (env : Env) (tables : HotRecords) (input : BrokerCleanupPlanOptions) (dateNow : Int)

/-- An open task that needs a worker. -/
def NeedsWorker (t : TaskRecord) (id : String) : Prop :=
  t.status.terminal = false ∧ (t.assignedWorkerId = some id ∨ t.claimedBy = some id)

/-- The rows under the planned ids are deleted, and nothing else is changed. -/
structure DeletedExactly {α : Type} [Keyed α] (t t' : Table α) (ids : List String) : Prop where
  planned : ∀ id ∈ ids, (t.get? id).isSome = true
  left : t'.rows = t.rows.filter fun a => !ids.contains (key a)

/-- What an execution leaves. The audit event of the execution itself is put on top. -/
structure ExecutedExactly (plan : BrokerCleanupPlan) (result : BrokerCleanupExecutionResult)
    (tables' : HotRecords) : Prop where
  tasks : DeletedExactly tables.tasks tables'.tasks plan.taskPlan.pruneIds
  workers : DeletedExactly tables.workers tables'.workers plan.workerPlan.pruneIds
  terminalOutbox :
    DeletedExactly tables.terminalOutbox tables'.terminalOutbox plan.terminalOutboxPlan.pruneIds
  auditEvents : ∃ t, DeletedExactly tables.auditEvents t plan.auditPlan.pruneIds ∧
    tables'.auditEvents = t.set result.auditEvent
  others : { tables' with
    tasks := tables.tasks, workers := tables.workers, terminalOutbox := tables.terminalOutbox
    auditEvents := tables.auditEvents } = tables

/-- The approvals of an execution. -/
structure Approves (options : BrokerCleanupExecutionOptions) (plan : BrokerCleanupPlan) : Prop where
  token : options.approvalToken = some plan.planId
  confirmation : options.confirmation = some brokerCleanupConfirmation
  backupProof : (trimmed options.backupProof).isSome = true
  workers : options.allowWorkerPrune = true
  terminalOutbox : plan.terminalOutboxPlan.pruneIds = []

/-- A plan keeps what open tasks need, and an execution deletes what is planned. -/
structure CleanupSafe (plan : BrokerCleanupPlan) : Prop where
  tasks : ∀ t ∈ tables.tasks.rows, t.status.terminal = false → t.id ∉ plan.taskPlan.pruneIds
  workers : ∀ t ∈ tables.tasks.rows, ∀ id, NeedsWorker t id → id ∉ plan.workerPlan.pruneIds
  executes : ∀ options now, Approves options plan →
    ∃ result tables', executeBrokerCleanupPlan env tables plan options now = .ok (result, tables')
  executed : ∀ options now result tables',
    executeBrokerCleanupPlan env tables plan options now = .ok (result, tables') →
      ExecutedExactly tables plan result tables'

/-! ## The condition -/

/-- The protected workers: those that the options name, and those of the open tasks among the 2000
newest ones. -/
def sparedWorkerIds : List String :=
  normalizeStringArray input.protectedWorkerIds ++
    activeWorkerIds (readHotTasks tables.tasks 2000).rows

/-- A worker row is protected, or was seen inside the window, or has a place under the cap. -/
inductive WorkerStays (w : WorkerRecord) : Prop where
  | named (h : w.nodeId ∈ normalizeStringArray input.protectedWorkerIds)
  | newest (t : TaskRecord) (h : t ∈ (readHotTasks tables.tasks 2000).rows)
      (needs : NeedsWorker t w.nodeId) (id : w.nodeId ≠ "")
  | undated (h : parseRetentionTimestamp env w.lastSeenAt = none)
  | recent (ms : Int) (h : parseRetentionTimestamp env w.lastSeenAt = some ms)
      (inside : input.nowMs.getD dateNow -
        normalizeNonNegativeInteger input.workerRetentionMs
          ({} : RetentionPolicy).inactiveWorkerRetentionMs ≤ ms)
  | ranked (ms : Int) (h : parseRetentionTimestamp env w.lastSeenAt = some ms)
      (place : rivals env (fun _ => true) (·.nodeId) (·.lastSeenAt)
          (input.nowMs.getD dateNow - normalizeNonNegativeInteger input.workerRetentionMs
            ({} : RetentionPolicy).inactiveWorkerRetentionMs)
          (sparedWorkerIds tables input) tables.workers.rows w ⟨w.nodeId, ms⟩ <
        normalizeNonNegativeInteger input.maxInactiveWorkers
          ({} : RetentionPolicy).maxInactiveWorkers)

/-- Every worker row that an open task needs stays by itself. -/
def NeededWorkersStay : Prop :=
  ∀ t ∈ tables.tasks.rows, ∀ w ∈ tables.workers.rows, NeedsWorker t w.nodeId →
    WorkerStays env tables input dateNow w

variable {env tables input dateNow}

theorem mem_pruneIds {cutoffMs : Int} {allIds retainedIds : List String} {id : String} :
    id ∈ (buildRetentionPlan cutoffMs allIds retainedIds).pruneIds ↔
      id ∈ allIds ∧ id ∉ retainedIds := by
  simp [buildRetentionPlan]

theorem mem_uniqueIds {ids : List String} {id : String} : id ∈ uniqueIds ids ↔ id ∈ ids := by
  have hgo : ∀ (ids seen : List String), id ∈ uniqueIds.go seen ids ↔ id ∈ ids ∧ id ∉ seen := by
    intro ids
    induction ids with
    | nil => simp [uniqueIds.go]
    | cons x ids ih =>
      intro seen
      unfold uniqueIds.go
      split
      · rename_i hseen
        rw [ih seen, List.mem_cons]
        refine and_congr_left fun hnot => (or_iff_right ?_).symm
        rintro rfl
        exact hnot (List.contains_iff_mem.mp hseen)
      · rename_i hseen
        rw [List.mem_cons, ih (x :: seen), List.mem_cons, List.mem_cons, not_or]
        have hx : x ∉ seen := fun h => hseen (List.contains_iff_mem.mpr h)
        by_cases heq : id = x
        · simp [heq, hx]
        · simp [heq]
  exact (hgo ids []).trans (by simp)

theorem mem_activeWorkerIds {tasks : List TaskRecord} {id : String} :
    id ∈ activeWorkerIds tasks ↔ ∃ t ∈ tasks, NeedsWorker t id ∧ id ≠ "" := by
  have hpresent : ∀ t : TaskRecord, id ∈ presentIds [t.assignedWorkerId, t.claimedBy] ↔
      (t.assignedWorkerId = some id ∨ t.claimedBy = some id) ∧ id ≠ "" := by
    intro t
    constructor
    · intro h
      obtain ⟨o, ho, hid⟩ := List.mem_filterMap.mp h
      split at hid
      · rename_i htruthy
        subst hid
        obtain ⟨text, htext, hne⟩ := truthy_eq_true.mp htruthy
        cases htext
        simp only [List.mem_cons, List.not_mem_nil, or_false] at ho
        exact ⟨ho.imp Eq.symm Eq.symm, hne⟩
      · cases hid
    · rintro ⟨h, hne⟩
      refine mem_presentIds ?_ hne
      rcases h with h | h <;> simp [h]
  unfold activeWorkerIds NeedsWorker
  simp only [List.mem_flatMap, List.mem_filter, Bool.not_eq_true', hpresent, and_assoc]

theorem mem_sparedWorkerIds {id : String} : id ∈ sparedWorkerIds tables input ↔
    id ∈ normalizeStringArray input.protectedWorkerIds ∨
      ∃ t ∈ (readHotTasks tables.tasks 2000).rows, NeedsWorker t id ∧ id ≠ "" := by
  rw [sparedWorkerIds, List.mem_append, mem_activeWorkerIds]

theorem workerPlan_pruned_iff [Std.TransCmp env.localeCompare] {t : Table WorkerRecord}
    {w : WorkerRecord} {nowMs : Int} {retentionMs maxInactiveWorkers : Nat}
    {protectedIds spared : List String} (hids : ∀ id, id ∈ protectedIds ↔ id ∈ spared)
    (hw : w ∈ t.rows) :
    w.nodeId ∈ (planWorkerRetentionFromRecords env t.rows nowMs retentionMs maxInactiveWorkers
        protectedIds).pruneIds ↔
      ∃ c, retentionCandidate env (fun _ => true) (·.nodeId) (·.lastSeenAt) (nowMs - retentionMs)
          spared w = some c ∧
        maxInactiveWorkers ≤ rivals env (fun _ => true) (·.nodeId) (·.lastSeenAt)
          (nowMs - retentionMs) spared t.rows w c := by
  unfold rivals
  rw [← retentionCandidate_congr hids, planWorkerRetention_eq]
  refine (mem_pruneIds.trans (and_iff_right (List.mem_map_of_mem hw))).trans ?_
  exact not_mem_selectRetained_iff t.nodup hw

/-- Which worker rows a plan prunes. -/
theorem mem_workerPlan_iff [Std.TransCmp env.localeCompare] {w : WorkerRecord}
    (hw : w ∈ tables.workers.rows) :
    w.nodeId ∈ (buildBrokerCleanupPlan env tables input dateNow).workerPlan.pruneIds ↔
      ¬WorkerStays env tables input dateNow w := by
  have hids : ∀ id, id ∈ sortedCopy compare (uniqueIds (sparedWorkerIds tables input)) ↔
      id ∈ sparedWorkerIds tables input := fun id => mem_sortedCopy.trans mem_uniqueIds
  refine (workerPlan_pruned_iff hids hw).trans ⟨fun h hstays => ?_, fun hgone => ?_⟩
  · obtain ⟨c, hc, hplace⟩ := h
    obtain ⟨⟨-, hspared⟩, ms, hms, hold, rfl⟩ := retentionCandidate_eq_some.mp hc
    rw [List.contains_eq_mem, decide_eq_false_iff_not, mem_sparedWorkerIds, not_or] at hspared
    cases hstays with
    | named h => exact hspared.1 h
    | newest t h needs id => exact hspared.2 ⟨t, h, needs, id⟩
    | undated h => exact absurd (h.symm.trans hms) (by simp)
    | recent ms' h inside =>
      cases hms.symm.trans h
      exact absurd hold (Int.not_lt.mpr inside)
    | ranked ms' h place =>
      cases hms.symm.trans h
      exact absurd place (Nat.not_lt.mpr hplace)
  · have hspared : w.nodeId ∉ sparedWorkerIds tables input := by
      rw [mem_sparedWorkerIds]
      rintro (h | ⟨t, h, needs, id⟩)
      · exact hgone (.named h)
      · exact hgone (.newest t h needs id)
    cases hms : parseRetentionTimestamp env w.lastSeenAt with
    | none => exact absurd (.undated hms) hgone
    | some ms =>
      refine ⟨⟨w.nodeId, ms⟩, retentionCandidate_eq_some.mpr ⟨⟨rfl, ?_⟩, ms, hms, ?_, rfl⟩, ?_⟩
      · simpa using hspared
      · exact Int.not_le.mp fun inside => hgone (.recent ms hms inside)
      · exact Nat.not_lt.mp fun place => hgone (.ranked ms hms place)

theorem taskPlan_open {t : TaskRecord} (ht : t ∈ tables.tasks.rows)
    (hopen : t.status.terminal = false) :
    t.id ∉ (buildBrokerCleanupPlan env tables input dateNow).taskPlan.pruneIds := by
  intro h
  rw [show (buildBrokerCleanupPlan env tables input dateNow).taskPlan = _ from
    planTaskRetention_eq env _ _ _ _ _] at h
  exact (mem_pruneIds.mp h).2 (mem_selectRetained_of_live ht hopen)

/-! ## Execution -/

theorem executes_of_approves {plan : BrokerCleanupPlan} {options : BrokerCleanupExecutionOptions}
    {now : Int} (h : Approves options plan) : ∃ result tables',
      executeBrokerCleanupPlan env tables plan options now = .ok (result, tables') := by
  have hnone : validateCleanupExecution plan options = [] := by
    unfold validateCleanupExecution
    simp [h.token, h.confirmation, h.workers, h.terminalOutbox,
      Option.isNone_iff_eq_none, Option.isSome_iff_ne_none.mp h.backupProof]
  unfold executeBrokerCleanupPlan
  rw [hnone]
  exact ⟨_, _, rfl⟩

theorem deletedExactly_applyPlan {α : Type} [Keyed α] {t : Table α} {plan : HotRetentionPlan}
    (h : ∀ id ∈ plan.pruneIds, id ∈ t.rows.map key) :
    DeletedExactly t (t.applyPlan plan) plan.pruneIds := by
  refine ⟨fun id hid => ?_, rfl⟩
  obtain ⟨a, ha, rfl⟩ := List.mem_map.mp (h id hid)
  exact Option.isSome_of_eq_some (Table.get?_key_of_mem ha)

/-- An execution deletes what is planned for tables whose rows the plan was made of. -/
theorem executed_exactly {options : BrokerCleanupExecutionOptions} {now : Int}
    {result : BrokerCleanupExecutionResult} {tables' : HotRecords}
    (h : executeBrokerCleanupPlan env tables (buildBrokerCleanupPlan env tables input dateNow)
      options now = .ok (result, tables')) :
    ExecutedExactly tables (buildBrokerCleanupPlan env tables input dateNow) result tables' := by
  unfold executeBrokerCleanupPlan at h
  dsimp only at h
  split at h
  · cases h
  · cases h
    exact {
      tasks := deletedExactly_applyPlan fun id hid => (mem_pruneIds.mp hid).1
      workers := deletedExactly_applyPlan fun id hid => (mem_pruneIds.mp hid).1
      terminalOutbox := deletedExactly_applyPlan fun id hid => (mem_pruneIds.mp hid).1
      auditEvents := ⟨_, deletedExactly_applyPlan fun id hid => (mem_pruneIds.mp hid).1, rfl⟩
      others := rfl }

/-- A cleanup is safe exactly when the worker rows that open tasks need stay by themselves. -/
theorem cleanup_safe_iff (env : Env) [Std.TransCmp env.localeCompare] (tables : HotRecords)
    (input : BrokerCleanupPlanOptions) (dateNow : Int) :
    CleanupSafe env tables (buildBrokerCleanupPlan env tables input dateNow) ↔
      NeededWorkersStay env tables input dateNow := by
  constructor
  · intro h t ht w hw hneeds
    by_contra hgone
    exact h.workers t ht w.nodeId hneeds ((mem_workerPlan_iff hw).mpr hgone)
  · intro h
    refine ⟨fun t ht hopen => taskPlan_open ht hopen, fun t ht id hneeds hpruned => ?_,
      fun _ _ => executes_of_approves, fun _ _ _ _ => executed_exactly⟩
    obtain ⟨w, hw, rfl⟩ := List.mem_map.mp (mem_pruneIds.mp hpruned).1
    exact (mem_workerPlan_iff hw).mp hpruned (h t ht w hw hneeds)

/-! ## An old open task -/

/-- Ids are collated by their letters. -/
def collatingEnv : Env := { Env.numbered {} with localeCompare := compare }

def dayMs : Int := 24 * 60 * 60 * 1000

/-- A task that was created at the time 0 for the worker. -/
def oldOpenTask : TaskRecord :=
  newTask collatingEnv { intent := .analyze, requester := { id := "hub" }, target := { id := "worker" } }
    "task" (.iso 0)

/-- A task that ended a day later. -/
def endedTask (n : Nat) : TaskRecord :=
  { oldOpenTask with
    id := toString n, status := .succeeded, updatedAt := .iso dayMs, completedAt := some (.iso dayMs) }

def oldWorker : WorkerRecord where
  nodeId := "worker"
  role := .analyst
  displayName := none
  brokerUrl := none
  capabilities := {}
  workerMode := none
  metadata := none
  createdAt := .iso 0
  updatedAt := .iso 0
  lastSeenAt := .iso 0

theorem endedTasks_nodup (n : Nat) :
    (((List.range n).map endedTask ++ [oldOpenTask]).map key).Nodup := by
  have hids : ((List.range n).map endedTask).map key = (List.range n).map fun n => toString n :=
    List.map_map
  rw [List.map_append, hids]
  refine List.Nodup.append (List.nodup_range.map Text.toString_injective) (List.nodup_singleton _) ?_
  rintro id hid htask
  obtain ⟨m, -, rfl⟩ := List.mem_map.mp hid
  have heq : toString m = "task" := List.mem_singleton.mp htask
  have hdigit : ('t' : Char).isDigit = true := Text.isDigit_of_mem_toString (n := m) (by
    rw [heq]
    decide)
  exact absurd hdigit (by decide)

/-- The open task, after `n` tasks that ended. -/
def tasksWithEnded (n : Nat) : HotRecords where
  tasks := ⟨(List.range n).map endedTask ++ [oldOpenTask], endedTasks_nodup n⟩
  workers := Table.empty.set oldWorker

/-- No place for an inactive worker, 30 days later. -/
def noInactiveWorkers : BrokerCleanupPlanOptions :=
  { nowMs := some (30 * dayMs), maxInactiveWorkers := some 0 }

theorem cleanup_safe_iff_open :
    CleanupSafe collatingEnv (tasksWithEnded 0)
      (buildBrokerCleanupPlan collatingEnv (tasksWithEnded 0) noInactiveWorkers 0) := by
  have hcompare : Std.TransCmp collatingEnv.localeCompare :=
    inferInstanceAs (Std.TransCmp (compare : String → String → Ordering))
  refine (cleanup_safe_iff collatingEnv _ _ _).mpr fun t ht w hw hneeds => ?_
  obtain rfl : w = oldWorker := List.mem_singleton.mp hw
  exact .newest t ht hneeds (by decide)

/-- The ended tasks fill the places that there are for the newest ones. -/
theorem newest_ended {n : Nat} (hn : 0 < n) {t : TaskRecord}
    (h : t ∈ (readHotTasks (tasksWithEnded n).tasks n).rows) : t.status.terminal = true := by
  have hnewer : ∀ b ∈ (List.range n).map endedTask,
      stampDescIdAsc (·.updatedAt) b oldOpenTask := by
    intro b hb
    obtain ⟨m, -, rfl⟩ := List.mem_map.mp hb
    exact .inl (show (Timestamp.iso 0).toText < (Timestamp.iso dayMs).toText by decide +kernel)
  unfold readHotTasks at h
  rw [if_pos hn] at h
  have hrows : t ∈ List.take n ((((List.range n).map endedTask ++ [oldOpenTask]).filter
    fun _ => true).insertionSort (stampDescIdAsc (·.updatedAt))) := h
  rw [List.filter_true, insertionSort_append_singleton hnewer, List.take_left' (by simp),
    List.mem_insertionSort] at hrows
  obtain ⟨m, -, rfl⟩ := List.mem_map.mp hrows
  rfl

/-- After 2000 newer tasks that ended, the worker of the open task is pruned. -/
theorem needed_worker_pruned : ¬CleanupSafe collatingEnv (tasksWithEnded 2000)
    (buildBrokerCleanupPlan collatingEnv (tasksWithEnded 2000) noInactiveWorkers 0) := by
  have hcompare : Std.TransCmp collatingEnv.localeCompare :=
    inferInstanceAs (Std.TransCmp (compare : String → String → Ordering))
  intro h
  have hneeds : NeedsWorker oldOpenTask oldWorker.nodeId := ⟨by decide, .inl rfl⟩
  have hworker : oldWorker ∈ (tasksWithEnded 2000).workers.rows := .head _
  refine h.workers oldOpenTask (List.mem_append_right _ (.head _)) _ hneeds
    ((mem_workerPlan_iff hworker).mpr fun hstays => ?_)
  cases hstays with
  | named h => cases h
  | newest t ht needs id => exact Bool.false_ne_true (needs.1.symm.trans (newest_ended (by decide) ht))
  | undated h => cases h
  | recent ms h inside =>
    cases h
    exact absurd inside (by decide)
  | ranked ms h place => exact absurd place (Nat.not_lt_zero _)

end A2ABroker
