import A2ABroker.Verify.Cleanup
import A2ABroker.Verify.HotAudit

/-! # Planned retention

The store plans with loops of its own what may leave its tables. A planner goes through the records
like the broker's pass over its maps (`planRetainedIds_eq`), so that both keep the same tasks and
workers. Of the records that compete for the places of a cap, a longer window leaves the older ones
only, and each of them has fewer rivals (`rivals_mono`), so that a longer window and a higher cap keep
more. -/

namespace A2ABroker

open Ranking

/-! ## The property -/

/-- The two lists of a plan share out the ids of the records. -/
structure Partitions (plan : HotRetentionPlan) (ids : List String) : Prop where
  all : (plan.retainedIds ++ plan.pruneIds).Perm ids
  disjoint : ∀ id ∈ plan.retainedIds, id ∉ plan.pruneIds

/-- What a planner does for a window and a cap, with the ids that it has to spare. -/
structure PlanSound (plan : Nat → Nat → HotRetentionPlan) (ids : List String)
    (Spared : String → Prop) : Prop where
  partitions : ∀ window cap, Partitions (plan window cap) ids
  spares : ∀ window cap id, Spared id → id ∉ (plan window cap).pruneIds
  keepsMore : ∀ window window' cap cap', window ≤ window' → cap ≤ cap' →
    ∀ id ∈ (plan window cap).retainedIds, id ∈ (plan window' cap').retainedIds ∧
      id ∉ (plan window' cap').pruneIds

/-- Tasks in progress and protected ones. -/
def SparedTask (records : List TaskRecord) (protectedTaskIds : List String) (id : String) : Prop :=
  id ∈ protectedTaskIds ∨ ∃ t ∈ records, t.id = id ∧ t.status.terminal = false

/-- Terminal events that were not acknowledged at a time that can be read. -/
def SparedTerminalEvent (env : Env) (records : List TerminalTaskOutboxEvent) (id : String) : Prop :=
  ∃ event ∈ records, event.id = id ∧ parseRetentionTimestamp env (acknowledgedAt event) = none

/-- Audit events about protected records. -/
def SparedAuditEvent (records : List AuditEvent) (protectedIds : Retained) (id : String) : Prop :=
  ∃ event ∈ records, event.id = id ∧ isAuditEventProtected event protectedIds = true

/-- The store's planners, for records with different ids. -/
structure PlannersSound (env : Env) : Prop where
  tasks : ∀ (records : List TaskRecord) (nowMs : Int) (protectedTaskIds : List String),
    (records.map (·.id)).Nodup →
    (∀ retentionMs cap id,
      id ∈ (planTaskRetentionFromRecords env records nowMs retentionMs cap
          protectedTaskIds).retainedIds ↔
        id ∈ records.map (·.id) ∧
          id ∈ selectRetainedTerminalRecordIds env records (fun t => t.status.terminal) (·.id)
            (fun t => t.completedAt.getD t.updatedAt) nowMs retentionMs cap protectedTaskIds) ∧
    PlanSound (fun retentionMs cap =>
        planTaskRetentionFromRecords env records nowMs retentionMs cap protectedTaskIds)
      (records.map (·.id)) (SparedTask records protectedTaskIds)
  workers : ∀ (records : List WorkerRecord) (nowMs : Int) (protectedWorkerIds : List String),
    (records.map (·.nodeId)).Nodup →
    (∀ retentionMs cap id,
      id ∈ (planWorkerRetentionFromRecords env records nowMs retentionMs cap
          protectedWorkerIds).retainedIds ↔
        id ∈ records.map (·.nodeId) ∧
          id ∈ selectRetainedWorkerIds env records nowMs retentionMs cap protectedWorkerIds) ∧
    PlanSound (fun retentionMs cap =>
        planWorkerRetentionFromRecords env records nowMs retentionMs cap protectedWorkerIds)
      (records.map (·.nodeId)) (· ∈ protectedWorkerIds)
  terminalOutbox : ∀ (records : List TerminalTaskOutboxEvent) (nowMs : Int),
    (records.map (·.id)).Nodup →
    PlanSound (fun retentionMs cap =>
        planTerminalOutboxRetentionFromRecords env records nowMs retentionMs cap)
      (records.map (·.id)) (SparedTerminalEvent env records)
  auditEvents : ∀ (records : List AuditEvent) (nowMs : Int) (protectedIds : Retained),
    (records.map (·.id)).Nodup →
    PlanSound (fun retentionMs maxRecords =>
        planAuditRetentionFromRecords env records { nowMs, retentionMs, maxRecords, protectedIds })
      (records.map (·.id)) (SparedAuditEvent records protectedIds)

/-! ## Building a plan -/

variable {env : Env}

theorem mem_retainedIds {cutoffMs : Int} {allIds retainedIds : List String} {id : String} :
    id ∈ (buildRetentionPlan cutoffMs allIds retainedIds).retainedIds ↔
      id ∈ allIds ∧ id ∈ retainedIds := by
  simp [buildRetentionPlan]

theorem partitions_buildRetentionPlan (cutoffMs : Int) (allIds retainedIds : List String) :
    Partitions (buildRetentionPlan cutoffMs allIds retainedIds) allIds where
  all := List.filter_append_perm _ allIds
  disjoint _ h hpruned := (mem_pruneIds.mp hpruned).2 (mem_retainedIds.mp h).2

/-- A planner is sound if it spares what it has to, and if what it keeps grows. -/
theorem planSound_of_retained {cutoffMs : Nat → Int} {ids : List String}
    {retained : Nat → Nat → List String} {Spared : String → Prop}
    (hspares : ∀ window cap id, id ∈ ids → Spared id → id ∈ retained window cap)
    (hmore : ∀ window window' cap cap', window ≤ window' → cap ≤ cap' → ∀ id ∈ ids,
      id ∈ retained window cap → id ∈ retained window' cap') :
    PlanSound (fun window cap => buildRetentionPlan (cutoffMs window) ids (retained window cap)) ids
      Spared where
  partitions window cap := partitions_buildRetentionPlan _ _ _
  spares window cap id h hpruned := by
    obtain ⟨hid, hgone⟩ := mem_pruneIds.mp hpruned
    exact hgone (hspares window cap id hid h)
  keepsMore window window' cap cap' hwindow hcap id h := by
    obtain ⟨hid, hkept⟩ := mem_retainedIds.mp h
    have hkept' := hmore window window' cap cap' hwindow hcap id hid hkept
    exact ⟨mem_retainedIds.mpr ⟨hid, hkept'⟩, fun hpruned => (mem_pruneIds.mp hpruned).2 hkept'⟩

/-! ## A longer window -/

section
variable {α : Type} {isTerminal : α → Bool} {getId : α → String} {getTimestamp : α → Timestamp}
  {cutoffMs cutoffMs' : Int} {protectedIds : List String}

/-- A candidate under a longer window is one under the shorter one. -/
theorem retentionCandidate_mono (hcutoff : cutoffMs' ≤ cutoffMs) {r : α} {c : Candidate}
    (h : retentionCandidate env isTerminal getId getTimestamp cutoffMs' protectedIds r = some c) :
    retentionCandidate env isTerminal getId getTimestamp cutoffMs protectedIds r = some c := by
  obtain ⟨hfree, ms, hms, hold, hc⟩ := retentionCandidate_eq_some.mp h
  exact retentionCandidate_eq_some.mpr ⟨hfree, ms, hms, Int.lt_of_lt_of_le hold hcutoff, hc⟩

theorem rivals_mono (hcutoff : cutoffMs' ≤ cutoffMs) (records : List α) (r : α) (c : Candidate) :
    rivals env isTerminal getId getTimestamp cutoffMs' protectedIds records r c ≤
      rivals env isTerminal getId getTimestamp cutoffMs protectedIds records r c := by
  have hany (p : Candidate → Bool) (q : α)
      (h : (retentionCandidate env isTerminal getId getTimestamp cutoffMs' protectedIds q).any p) :
      (retentionCandidate env isTerminal getId getTimestamp cutoffMs protectedIds q).any p := by
    obtain ⟨d, hd, hp⟩ := (Option.any_eq_true _ _).mp h
    exact (Option.any_eq_true _ _).mpr ⟨d, retentionCandidate_mono hcutoff hd, hp⟩
  exact Nat.add_le_add (List.countP_mono_left fun q _ => hany _ q)
    (List.countP_mono_left fun q _ => hany _ q)

/-- A selection with a longer window and a higher cap keeps more. -/
theorem selectRetained_mono [Std.TransCmp env.localeCompare] {records : List α} {nowMs : Int}
    {window window' cap cap' : Nat} (hnodup : (records.map getId).Nodup)
    (hwindow : window ≤ window') (hcap : cap ≤ cap') {id : String} (hid : id ∈ records.map getId)
    (h : id ∈ selectRetainedTerminalRecordIds env records isTerminal getId getTimestamp nowMs
      window cap protectedIds) :
    id ∈ selectRetainedTerminalRecordIds env records isTerminal getId getTimestamp nowMs
      window' cap' protectedIds := by
  obtain ⟨r, hr, rfl⟩ := List.mem_map.mp hid
  have hcutoff : nowMs - window' ≤ nowMs - window := by omega
  by_contra hgone
  obtain ⟨c, hc, hplace⟩ := (not_mem_selectRetained_iff hnodup hr).mp hgone
  refine (not_mem_selectRetained_iff hnodup hr).mpr ⟨c, retentionCandidate_mono hcutoff hc, ?_⟩ h
  calc cap ≤ cap' := hcap
    _ ≤ _ := hplace
    _ ≤ _ := rivals_mono hcutoff records r c

theorem mem_selectRetained_of_undated [Std.TransCmp env.localeCompare] {records : List α}
    {nowMs : Int} {window cap : Nat} (hnodup : (records.map getId).Nodup) {r : α}
    (hr : r ∈ records) (hundated : parseRetentionTimestamp env (getTimestamp r) = none) :
    getId r ∈ selectRetainedTerminalRecordIds env records isTerminal getId getTimestamp nowMs
      window cap protectedIds := by
  by_contra hgone
  obtain ⟨c, hc, -⟩ := (not_mem_selectRetained_iff hnodup hr).mp hgone
  obtain ⟨-, ms, hms, -⟩ := retentionCandidate_eq_some.mp hc
  cases hundated.symm.trans hms

/-- A planner that asks nothing before it reads the time spares no record for another reason. -/
theorem scanPlanRecords_eq_of_nodup {rs : List α} (hnodup : (rs.map getId).Nodup)
    {retainedIds : List String} {candidates : List Candidate}
    (hnew : ∀ r ∈ rs, getId r ∉ retainedIds) :
    scanPlanRecords (fun _ _ => false) getId
        (fun r => parseRetentionTimestamp env (getTimestamp r)) cutoffMs rs
        (retainedIds, candidates) =
      scanTerminalRecords env (fun _ => true) getId getTimestamp cutoffMs rs
        (retainedIds, candidates) := by
  induction rs generalizing retainedIds candidates with
  | nil => rfl
  | cons r rs ih =>
    rw [List.map_cons, List.nodup_cons] at hnodup
    obtain ⟨hr, hrest⟩ := List.forall_mem_cons.mp hnew
    have hcons : ∀ q ∈ rs, getId q ∉ getId r :: retainedIds := by
      intro q hq hmem
      rcases List.mem_cons.mp hmem with heq | hmem
      · exact hnodup.1 (heq ▸ List.mem_map_of_mem hq)
      · exact hrest q hq hmem
    rw [scanPlanRecords, scanTerminalRecords, if_neg Bool.false_ne_true, if_neg (by simpa using hr)]
    cases parseRetentionTimestamp env (getTimestamp r) with
    | none => exact ih hnodup.2 hcons
    | some ms =>
      dsimp only
      split
      · exact ih hnodup.2 hcons
      · exact ih hnodup.2 hrest

end

/-! ## The audit table -/

theorem compareCandidates_ge {a b : Candidate} (h : sortOrder (compareCandidates env) a b) :
    b.timestampMs ≤ a.timestampMs := by
  by_contra hlt
  have hcompare : compare a.timestampMs b.timestampMs = .lt :=
    Std.compare_eq_lt.mpr (Int.not_le.mp hlt)
  exact h (by rw [compareCandidates, hcompare, Ordering.lt_then])

/-- The audit events inside a longer window start with those inside the shorter one. -/
theorem planAuditRetainedIds_mono [Std.TransCmp env.localeCompare] {records : List AuditEvent}
    {nowMs : Int} {protectedIds : Retained} {window window' cap cap' : Nat}
    (hwindow : window ≤ window') (hcap : cap ≤ cap') {x : String}
    (h : x ∈ planAuditRetainedIds env records ⟨nowMs, window, cap, protectedIds⟩) :
    x ∈ planAuditRetainedIds env records ⟨nowMs, window', cap', protectedIds⟩ := by
  rw [planAuditRetainedIds, List.mem_append] at h ⊢
  refine h.imp id fun hplace => ?_
  obtain ⟨c, hc, rfl⟩ := List.mem_map.mp hplace
  refine List.mem_map_of_mem (mem_take_filter_mono (List.pairwise_insertionSort
    (sortOrder (compareCandidates env)) _) ?_ ?_ hcap hc)
  · intro a b hab hb
    have hinside : nowMs - window ≤ b.timestampMs := by simpa using hb
    simpa using Int.le_trans hinside (compareCandidates_ge hab)
  · intro a ha
    have hinside : nowMs - window ≤ a.timestampMs := by simpa using ha
    have hlonger : nowMs - window' ≤ a.timestampMs := by omega
    simpa using hlonger

/-! ## The planners -/

/-- The store keeps the tasks and workers that the broker keeps, every plan shares out its records
and spares what it has to, and a longer window and a higher cap keep more. -/
theorem planners_sound (env : Env) [Std.TransCmp env.localeCompare] : PlannersSound env where
  tasks records nowMs protectedTaskIds hnodup := by
    simp only [planTaskRetention_eq]
    refine ⟨fun _ _ _ => mem_retainedIds, planSound_of_retained ?_ ?_⟩
    · rintro window cap id - (hprotected | ⟨t, ht, rfl, hopen⟩)
      · exact mem_selectRetained_of_protected hprotected
      · exact mem_selectRetained_of_live ht hopen
    · exact fun _ _ _ _ hwindow hcap _ => selectRetained_mono hnodup hwindow hcap
  workers records nowMs protectedWorkerIds hnodup := by
    simp only [planWorkerRetention_eq]
    refine ⟨fun _ _ _ => mem_retainedIds, planSound_of_retained ?_ ?_⟩
    · exact fun _ _ _ _ hprotected => mem_selectRetained_of_protected hprotected
    · exact fun _ _ _ _ hwindow hcap _ => selectRetained_mono hnodup hwindow hcap
  terminalOutbox records nowMs hnodup := by
    have heq : ∀ retentionMs cap, planTerminalOutboxRetentionFromRecords env records nowMs
        retentionMs cap = buildRetentionPlan (nowMs - retentionMs) (records.map (·.id))
          (selectRetainedTerminalRecordIds env records (fun _ => true) (·.id) acknowledgedAt nowMs
            retentionMs cap []) := by
      intro retentionMs cap
      unfold planTerminalOutboxRetentionFromRecords planRetainedIds selectRetainedTerminalRecordIds
      rw [scanPlanRecords_eq_of_nodup hnodup fun _ _ => List.not_mem_nil]
    simp only [heq]
    refine planSound_of_retained ?_ ?_
    · rintro window cap id - ⟨event, hevent, rfl, hundated⟩
      exact @mem_selectRetained_of_undated env _ _ _ acknowledgedAt _ _ records nowMs window cap
        hnodup event hevent hundated
    · exact fun _ _ _ _ hwindow hcap _ => selectRetained_mono hnodup hwindow hcap
  auditEvents records nowMs protectedIds hnodup := by
    simp only [planAuditRetentionFromRecords]
    refine planSound_of_retained ?_ ?_
    · rintro window cap id - ⟨event, hevent, rfl, hprotected⟩
      refine List.mem_append_left _ (List.mem_map_of_mem (List.mem_filter.mpr ⟨hevent, ?_⟩))
      rw [hprotected, Bool.true_or]
    · exact fun _ _ _ _ hwindow hcap _ _ => planAuditRetainedIds_mono hwindow hcap

theorem planners_sound_collating : PlannersSound collatingEnv :=
  @planners_sound collatingEnv (inferInstanceAs (Std.TransOrd String))

end A2ABroker
