import A2ABroker.Lib.Ranking
import A2ABroker.Core.Store
import A2ABroker.Verify.AuditRetention
import Mathlib.Data.String.Basic

/-! # Evidence in the hot audit table

The audit table holds heartbeat rows and rows of evidence. A heartbeat cap deletes heartbeats only,
but the overall cap and the retention planner rank heartbeats and evidence together. A heartbeat that
is added to a table within its caps costs a row of evidence its place exactly when it makes the table
one row too long and the oldest row is evidence (`upsertHeartbeat_keeps_iff`). The planner prunes a
row of evidence on account of heartbeats exactly when a heartbeat has a place among the first ones
while evidence of the window stands behind them (`plan_indifferent_iff`). -/

namespace A2ABroker

open Ranking

/-! ## The order of a table -/

section

variable {α : Type} [Keyed α] {stamp : α → Timestamp}

instance : Std.Total (stampDescIdDesc stamp) where
  total a b := by
    rcases lt_trichotomy (stamp a).toText (stamp b).toText with h | h | h
    · exact .inr (.inl h)
    · rcases le_total (key a) (key b) with hk | hk
      · exact .inr (.inr ⟨h.symm, hk⟩)
      · exact .inl (.inr ⟨h, hk⟩)
    · exact .inl (.inl h)

instance : IsTrans α (stampDescIdDesc stamp) where
  trans a b c := by
    rintro (hab | ⟨hab, hkab⟩) (hbc | ⟨hbc, hkbc⟩)
    · exact .inl (hbc.trans hab)
    · exact .inl (hbc ▸ hab)
    · exact .inl (hab ▸ hbc)
    · exact .inr ⟨hab.trans hbc, hkbc.trans hkab⟩

theorem key_eq_of_stampDescIdDesc {a b : α} (hab : stampDescIdDesc stamp a b)
    (hba : stampDescIdDesc stamp b a) : key a = key b := by
  rcases hab with hlt | ⟨heq, hkab⟩
  · rcases hba with hlt' | ⟨heq, -⟩
    · exact absurd hlt (lt_asymm hlt')
    · exact absurd heq (ne_of_lt hlt)
  · rcases hba with hlt | ⟨-, hkba⟩
    · exact absurd heq (ne_of_lt hlt)
    · exact le_antisymm hkba hkab

end

/-! ## Deleting past an offset -/

section

variable {α : Type} [Keyed α] {t : Table α} {p : α → Bool} {r : α → α → Prop} [DecidableRel r]
  {n : Nat} {a : α}

theorem Table.mem_select : a ∈ (t.select p r).rows ↔ a ∈ t.rows ∧ p a = true := by
  simp [Table.select, List.mem_insertionSort, List.mem_filter]

theorem Table.mem_deleteOffset :
    a ∈ (t.deleteOffset p r n).rows ↔ a ∈ t.rows ∧ a ∉ (t.select p r).rows.drop n := by
  simp only [Table.deleteOffset, Table.mem_rows_retain, Bool.not_eq_true', List.contains_eq_mem,
    decide_eq_false_iff_not, List.mem_map, not_exists, not_and]
  refine and_congr_right fun ha => ⟨fun h hmem => h a hmem rfl, fun h b hb he => h ?_⟩
  have hbt : b ∈ t.rows := (Table.mem_select.mp (List.mem_of_mem_drop hb)).1
  exact Table.eq_of_key_eq hbt ha he ▸ hb

theorem Table.length_select : (t.select p r).rows.length = t.rows.countP p := by
  simp [Table.select, List.countP_eq_length_filter]

/-- Of the selected rows, the first `n` stay. -/
theorem Table.length_deleteOffset :
    (t.deleteOffset p r n).rows.length + (t.rows.countP p - n) = t.rows.length := by
  have hnodup : t.rows.Nodup := List.Nodup.of_map key t.nodup
  have hperm : (t.rows.filter fun b => ((t.select p r).rows.drop n).map key |>.contains (key b)).Perm
      ((t.select p r).rows.drop n) := by
    refine (List.perm_ext_iff_of_nodup (hnodup.filter _) ?_).mpr fun b => ?_
    · exact (List.Nodup.of_map key (t.select p r).nodup).sublist (List.drop_sublist n _)
    · have hdelete := Table.mem_deleteOffset (t := t) (p := p) (r := r) (n := n) (a := b)
      simp only [Table.deleteOffset, Table.mem_rows_retain, Bool.not_eq_true'] at hdelete
      rw [List.mem_filter]
      constructor
      · rintro ⟨hb, hc⟩
        by_contra hnot
        have := (hdelete.mpr ⟨hb, hnot⟩).2
        rw [hc] at this
        cases this
      · intro hb
        have hbt := (Table.mem_select.mp (List.mem_of_mem_drop hb)).1
        exact ⟨hbt, List.contains_iff_mem.mpr (List.mem_map_of_mem hb)⟩
  have hdropped : (t.rows.filter fun b =>
      ((t.select p r).rows.drop n).map key |>.contains (key b)).length = t.rows.countP p - n := by
    rw [hperm.length_eq, List.length_drop, Table.length_select]
  have hsum := List.length_eq_length_filter_add (l := t.rows) fun b =>
    !(((t.select p r).rows.drop n).map key |>.contains (key b))
  simp only [Bool.not_not] at hsum
  rw [hdropped] at hsum
  exact hsum.symm

end

/-! ## A heartbeat in the table -/

def AuditEvent.isEvidence (e : AuditEvent) : Bool := !e.action.isHeartbeat

def heartbeatRows (t : Table AuditEvent) : Nat := t.rows.countP fun e => e.action.isHeartbeat

/-- The table is within the overall cap and the heartbeat cap. -/
structure WithinCaps (maxEvents maxHeartbeats : Nat) (t : Table AuditEvent) : Prop where
  events : t.rows.length ≤ maxEvents
  heartbeats : heartbeatRows t ≤ maxHeartbeats

instance (maxEvents maxHeartbeats : Nat) (t : Table AuditEvent) :
    Decidable (WithinCaps maxEvents maxHeartbeats t) :=
  decidable_of_iff (t.rows.length ≤ maxEvents ∧ heartbeatRows t ≤ maxHeartbeats)
    ⟨fun h => ⟨h.1, h.2⟩, fun h => ⟨h.events, h.heartbeats⟩⟩

/-- Every row of evidence is still there. -/
def KeepsEvidence (t t' : Table AuditEvent) : Prop :=
  ∀ a ∈ t.rows, a.isEvidence = true → a ∈ t'.rows

instance (t t' : Table AuditEvent) : Decidable (KeepsEvidence t t') :=
  inferInstanceAs (Decidable (∀ a ∈ t.rows, a.isEvidence = true → a ∈ t'.rows))

/-- Store a heartbeat and hold the table to its caps. -/
def upsertHeartbeat (maxEvents maxHeartbeats : Nat) (t : Table AuditEvent) (e : AuditEvent) :
    Table AuditEvent :=
  pruneHotAuditEventsToMax (pruneHotHeartbeatAuditEventsToMax (t.set e) maxHeartbeats) maxEvents

/-- The heartbeat has a place of its own: its id is known, the heartbeats are at their cap, the table
is not full, or some heartbeat is older than all the evidence. -/
def HasPlace (maxEvents maxHeartbeats : Nat) (t : Table AuditEvent) (e : AuditEvent) : Prop :=
  (t.get? e.id).isSome = true ∨ maxHeartbeats ≤ heartbeatRows t ∨ t.rows.length < maxEvents ∨
    ∃ b, (b = e ∨ b ∈ t.rows ∧ b.isEvidence = false) ∧
      ∀ a ∈ t.rows, a.isEvidence = true → stampDescIdDesc (·.createdAt) a b

variable {t : Table AuditEvent} {e a : AuditEvent} {maxEvents maxHeartbeats n : Nat}

theorem mem_pruneHotAuditEventsToMax (h : a ∈ (pruneHotAuditEventsToMax t n).rows) : a ∈ t.rows := by
  unfold pruneHotAuditEventsToMax at h
  split at h
  · exact h
  · exact (Table.mem_deleteOffset.mp h).1

theorem mem_pruneHotHeartbeats (h : a ∈ (pruneHotHeartbeatAuditEventsToMax t n).rows) :
    a ∈ t.rows := by
  unfold pruneHotHeartbeatAuditEventsToMax at h
  split at h
  · exact h
  · exact (Table.mem_deleteOffset.mp h).1

theorem pruneHotAuditEventsToMax_of_le (h : t.rows.length ≤ n) :
    pruneHotAuditEventsToMax t n = t := if_pos h

theorem pruneHotHeartbeats_of_le (h : heartbeatRows t ≤ n) :
    pruneHotHeartbeatAuditEventsToMax t n = t := if_pos h

/-- The heartbeat cap deletes no evidence. -/
theorem keepsEvidence_pruneHotHeartbeats :
    KeepsEvidence t (pruneHotHeartbeatAuditEventsToMax t n) := by
  intro a ha hevidence
  unfold pruneHotHeartbeatAuditEventsToMax
  split
  · exact ha
  · refine Table.mem_deleteOffset.mpr ⟨ha, fun hdrop => ?_⟩
    have hheartbeat := (Table.mem_select.mp (List.mem_of_mem_drop hdrop)).2
    simp [AuditEvent.isEvidence, hheartbeat] at hevidence

theorem length_pruneHotHeartbeats (h : n < heartbeatRows t) :
    (pruneHotHeartbeatAuditEventsToMax t n).rows.length + (heartbeatRows t - n) = t.rows.length := by
  have hover : ¬t.rows.countP (fun e => e.action.isHeartbeat) ≤ n := Nat.not_le_of_lt h
  unfold pruneHotHeartbeatAuditEventsToMax
  rw [if_neg hover]
  exact Table.length_deleteOffset

/-- One row too many: the overall cap deletes the oldest row, which is evidence or not. -/
theorem keepsEvidence_pruneHotAuditEvents_iff (h : t.rows.length = n + 1) :
    KeepsEvidence t (pruneHotAuditEventsToMax t n) ↔
      ∃ b ∈ t.rows, b.isEvidence = false ∧
        ∀ a ∈ t.rows, a.isEvidence = true → stampDescIdDesc (·.createdAt) a b := by
  let ranked := t.select (fun _ => true) (stampDescIdDesc (·.createdAt))
  have hmem : ∀ a, a ∈ ranked.rows ↔ a ∈ t.rows := fun a => by simp [ranked, Table.mem_select]
  have hlen : ranked.rows.length = n + 1 := by simp [ranked, Table.length_select, h]
  obtain ⟨front, z, hz⟩ : ∃ front z, ranked.rows = front ++ [z] :=
    ⟨_, _, (List.dropLast_append_getLast (List.ne_nil_of_length_eq_add_one hlen)).symm⟩
  have hfront : front.length = n := by
    rw [hz, List.length_append, List.length_singleton] at hlen
    omega
  have hprune : ∀ a, a ∈ (pruneHotAuditEventsToMax t n).rows ↔ a ∈ t.rows ∧ a ≠ z := by
    intro a
    unfold pruneHotAuditEventsToMax
    rw [if_neg (by omega), Table.mem_deleteOffset]
    have hdrop : ranked.rows.drop n = [z] := by rw [hz, ← hfront, List.drop_left]
    exact and_congr_right fun _ => not_congr (by rw [hdrop, List.mem_singleton])
  have hsorted : (front ++ [z]).Pairwise (stampDescIdDesc (·.createdAt)) :=
    hz ▸ List.pairwise_insertionSort _ _
  have hanti : ∀ a ∈ front ++ [z], ∀ b ∈ front ++ [z], stampDescIdDesc (·.createdAt) a b →
      stampDescIdDesc (·.createdAt) b a → a = b := by
    intro a ha b hb hab hba
    rw [← hz, hmem] at ha hb
    exact Table.eq_of_key_eq ha hb (key_eq_of_stampDescIdDesc hab hba)
  have hlast := last_kind_iff (p := AuditEvent.isEvidence) hsorted hanti
  rw [← hz] at hlast
  simp only [hmem] at hlast
  rw [← hlast]
  have hzt : z ∈ t.rows := (hmem z).mp (by rw [hz]; simp)
  constructor
  · intro hkeep
    by_contra hne
    exact ((hprune z).mp (hkeep z hzt (by simpa using hne))).2 rfl
  · intro hfalse a ha hevidence
    refine (hprune a).mpr ⟨ha, ?_⟩
    rintro rfl
    rw [hfalse] at hevidence
    cases hevidence

/-- A heartbeat under a known id takes the place of the row there. -/
theorem upsertHeartbeat_known (hcaps : WithinCaps maxEvents maxHeartbeats t) {b : AuditEvent}
    (he : e.isEvidence = false) (hb : t.get? e.id = some b) (hbeat : b.isEvidence = false) :
    upsertHeartbeat maxEvents maxHeartbeats t e = t.set e := by
  have haction : ∀ c : AuditEvent, c.isEvidence = false → c.action.isHeartbeat = true := by
    intro c hc
    simpa [AuditEvent.isEvidence] using hc
  have hheartbeats : heartbeatRows (t.set e) ≤ maxHeartbeats := by
    unfold heartbeatRows
    rw [Table.countP_set_of_some hb ((haction e he).trans (haction b hbeat).symm)]
    exact hcaps.heartbeats
  have hevents : (t.set e).rows.length ≤ maxEvents := by
    rw [← List.countP_true, Table.countP_set_of_some hb rfl, List.countP_true]
    exact hcaps.events
  unfold upsertHeartbeat
  rw [pruneHotHeartbeats_of_le hheartbeats, pruneHotAuditEventsToMax_of_le hevents]

/-- A stored heartbeat costs no evidence its place exactly when no row of evidence has its id and it
has a place. -/
theorem upsertHeartbeat_keeps_iff (hcaps : WithinCaps maxEvents maxHeartbeats t)
    (he : e.isEvidence = false) :
    KeepsEvidence t (upsertHeartbeat maxEvents maxHeartbeats t e) ↔
      (∀ a ∈ t.rows, a.isEvidence = true → a.id ≠ e.id) ∧ HasPlace maxEvents maxHeartbeats t e := by
  cases hstored : t.get? e.id with
  | some b =>
    obtain ⟨hbt, hbid⟩ := Table.get?_eq_some.mp hstored
    have hplace : HasPlace maxEvents maxHeartbeats t e := .inl (by rw [hstored]; rfl)
    cases hbeat : b.isEvidence with
    | true =>
      -- the upsert itself replaces the row of evidence
      refine ⟨fun hkeep => ?_, fun h => absurd hbid (h.1 b hbt hbeat)⟩
      have hset := mem_pruneHotHeartbeats (mem_pruneHotAuditEventsToMax (hkeep b hbt hbeat))
      rcases Table.mem_rows_set.mp hset with rfl | ⟨-, hne⟩
      · rw [he] at hbeat
        cases hbeat
      · exact absurd hbid hne
    | false =>
      rw [upsertHeartbeat_known hcaps he hstored hbeat]
      have hids : ∀ a ∈ t.rows, a.isEvidence = true → a.id ≠ e.id := by
        intro a ha hevidence hid
        have hab : a = b := Table.eq_of_key_eq ha hbt (hid.trans hbid.symm)
        rw [hab, hbeat] at hevidence
        cases hevidence
      refine ⟨fun _ => ⟨hids, hplace⟩, fun _ a ha hevidence => ?_⟩
      exact Table.mem_rows_set.mpr (.inr ⟨ha, hids a ha hevidence⟩)
  | none =>
    have hids : ∀ a ∈ t.rows, a.isEvidence = true → a.id ≠ e.id :=
      fun a ha _ => Table.get?_eq_none.mp hstored a ha
    have hrows : (t.set e).rows = t.rows ++ [e] := Table.rows_set_of_none hstored
    have hheartbeats : heartbeatRows (t.set e) = heartbeatRows t + 1 := by
      have haction : e.action.isHeartbeat = true := by simpa [AuditEvent.isEvidence] using he
      simp [heartbeatRows, hrows, haction]
    have hevents : (t.set e).rows.length = t.rows.length + 1 := by simp [hrows]
    have hset : KeepsEvidence t (t.set e) := fun a ha _ => by simp [hrows, ha]
    have hkeeps : ∀ {t' : Table AuditEvent}, KeepsEvidence (t.set e) t' → KeepsEvidence t t' :=
      fun h a ha hevidence => h a (hset a ha hevidence) hevidence
    unfold upsertHeartbeat HasPlace
    rw [and_iff_right hids, hstored]
    simp only [Option.isSome_none, Bool.false_eq_true, false_or]
    by_cases hfull : maxHeartbeats ≤ heartbeatRows t
    · -- a heartbeat makes room
      have hlen := length_pruneHotHeartbeats (n := maxHeartbeats) (t := t.set e) (by omega)
      have hcap := hcaps.heartbeats
      have hcap' := hcaps.events
      rw [pruneHotAuditEventsToMax_of_le (by omega)]
      exact iff_of_true (hkeeps keepsEvidence_pruneHotHeartbeats) (.inl hfull)
    · rw [pruneHotHeartbeats_of_le (by omega), or_iff_right hfull]
      rcases Nat.lt_or_ge t.rows.length maxEvents with hlt | hge
      · rw [pruneHotAuditEventsToMax_of_le (by omega)]
        exact iff_of_true hset (.inl hlt)
      · have hcap := hcaps.events
        have hover := keepsEvidence_pruneHotAuditEvents_iff (n := maxEvents) (t := t.set e) (by omega)
        rw [or_iff_right (by omega)]
        have hmem : ∀ b, b ∈ (t.set e).rows ↔ b = e ∨ b ∈ t.rows := fun b => by
          simp [hrows, or_comm]
        constructor
        · intro hkeep
          have hkeep' : KeepsEvidence (t.set e) (pruneHotAuditEventsToMax (t.set e) maxEvents) := by
            intro a ha hevidence
            rcases (hmem a).mp ha with rfl | ha
            · rw [he] at hevidence
              cases hevidence
            · exact hkeep a ha hevidence
          obtain ⟨b, hb, hbeat, hbehind⟩ := hover.mp hkeep'
          refine ⟨b, ((hmem b).mp hb).imp_right (⟨·, hbeat⟩), fun a ha => ?_⟩
          exact hbehind a ((hmem a).mpr (.inr ha))
        · rintro ⟨b, hb, hbehind⟩
          have hbeat : b.isEvidence = false := hb.elim (fun h => h ▸ he) (·.2)
          refine hkeeps (hover.mpr ⟨b, (hmem b).mpr (hb.imp_right (·.1)), hbeat, ?_⟩)
          intro a ha hevidence
          rcases (hmem a).mp ha with rfl | ha
          · rw [he] at hevidence
            cases hevidence
          · exact hbehind a ha hevidence

theorem repositoryAppendAuditEvent_heartbeat (h : isHeartbeatAuditEvent e.action e.targetType = true) :
    repositoryAppendAuditEvent maxEvents maxHeartbeats t e =
      upsertHeartbeat maxEvents maxHeartbeats t
        { e with id := (hotHeartbeatAuditEventId e).getD e.id } := by
  simp only [repositoryAppendAuditEvent, if_pos h]
  rfl

theorem upsertHintAuditRows_heartbeat {options : StoreOptions}
    (h : isHeartbeatAuditEvent e.action e.targetType = true) :
    upsertHintAuditRows options t (some (Table.empty.set e)) =
      upsertHeartbeat options.maxHotRuntimeAuditEvents options.maxHotRuntimeHeartbeatAuditEvents t
        e := by
  have hany : (Table.empty.set e).rows.any
      (fun e => isHeartbeatAuditEvent e.action e.targetType) = true :=
    List.any_eq_true.mpr ⟨e, List.mem_cons_self, h⟩
  simp only [upsertHintAuditRows, if_pos hany]
  rfl

theorem isEvidence_of_heartbeat (h : isHeartbeatAuditEvent e.action e.targetType = true) :
    e.isEvidence = false := by
  have haction : e.action = .workerHeartbeat ∨ e.action = .taskHeartbeat := by
    simp only [isHeartbeatAuditEvent, Bool.or_eq_true, Bool.and_eq_true, beq_iff_eq] at h
    exact h.imp (·.1) (·.1)
  rcases haction with haction | haction
  · simp [AuditEvent.isEvidence, AuditAction.isHeartbeat, haction]
  · simp [AuditEvent.isEvidence, AuditAction.isHeartbeat, haction]

/-! ## The planner -/

section

variable {env : Env} {o : AuditRetentionPlanOptions}

/-- The rows of evidence. -/
def evidenceRows (t : Table AuditEvent) : List AuditEvent := t.rows.filter (·.isEvidence)

/-- Whether a row of evidence has the candidate's id. -/
def ofEvidence (t : Table AuditEvent) (c : Candidate) : Bool :=
  (evidenceRows t).any fun a => a.id == c.id

theorem ofEvidence_iff {c : Candidate} (ha : a ∈ t.rows) (hid : a.id = c.id) :
    ofEvidence t c = a.isEvidence := by
  rw [Bool.eq_iff_iff, ofEvidence, List.any_eq_true]
  constructor
  · rintro ⟨b, hb, hbid⟩
    obtain ⟨hbt, hbe⟩ := List.mem_filter.mp hb
    have hab : a = b := Table.eq_of_key_eq ha hbt (hid.trans (beq_iff_eq.mp hbid).symm)
    rwa [hab]
  · exact fun h => ⟨a, List.mem_filter.mpr ⟨ha, h⟩, by simp [hid]⟩

/-- An event's candidate. -/
theorem mem_auditRetentionCandidates {records : List AuditEvent} {c : Candidate} :
    c ∈ auditRetentionCandidates env records o ↔ ∃ a ∈ records,
      isAuditEventProtected a o.protectedIds = false ∧
        parseRetentionTimestamp env a.createdAt = some c.timestampMs ∧ a.id = c.id := by
  rw [auditRetentionCandidates, List.mem_filterMap]
  refine exists_congr fun a => and_congr_right fun _ => ?_
  cases hp : isAuditEventProtected a o.protectedIds with
  | true => simp
  | false =>
    obtain ⟨id, ms⟩ := c
    simp [Option.map_eq_some_iff, and_comm]

theorem auditRetentionCandidates_evidence :
    auditRetentionCandidates env (evidenceRows t) o =
      (auditRetentionCandidates env t.rows o).filter (ofEvidence t) := by
  rw [auditRetentionCandidates, evidenceRows, List.filterMap_filter, auditRetentionCandidates,
    List.filter_filterMap]
  refine List.filterMap_congr fun a ha => ?_
  cases hp : isAuditEventProtected a o.protectedIds with
  | true => simp
  | false =>
    cases hms : parseRetentionTimestamp env a.createdAt with
    | none => simp
    | some ms =>
      have hof : ofEvidence t ⟨a.id, ms⟩ = a.isEvidence := ofEvidence_iff ha rfl
      simp [Option.filter_some, hof]

/-- Evidence alone is ranked as it is among all the rows. -/
theorem rankedAuditCandidates_evidence [Std.TransCmp env.localeCompare] :
    rankedAuditCandidates env (evidenceRows t) o =
      (rankedAuditCandidates env t.rows o).filter (ofEvidence t) := by
  have hsort : ∀ l : List Candidate, sortedCopy (compareCandidates env) l =
      l.insertionSort (sortOrder (compareCandidates env)) := fun _ => rfl
  rw [rankedAuditCandidates, auditRetentionCandidates_evidence, hsort, ← filter_insertionSort,
    rankedAuditCandidates, ← hsort, List.filter_comm]

theorem mem_rankedAuditCandidates {records : List AuditEvent} {c : Candidate}
    (h : c ∈ rankedAuditCandidates env records o) : c ∈ auditRetentionCandidates env records o :=
  mem_sortedCopy.mp (List.mem_filter.mp h).1

theorem candidateIds_sublist {records : List AuditEvent} :
    ((auditRetentionCandidates env records o).map (·.id)).Sublist (records.map (·.id)) := by
  induction records with
  | nil => exact List.Sublist.slnil
  | cons a records ih =>
    rw [auditRetentionCandidates, List.filterMap_cons]
    split
    · exact ih.cons a.id
    · rename_i c hc
      have hid : c.id = a.id := by
        obtain ⟨b, hb, -, -, hid⟩ := mem_auditRetentionCandidates.mp
          (List.mem_filterMap.mpr ⟨a, List.mem_singleton_self a, hc⟩)
        rw [← hid, List.mem_singleton.mp hb]
      rw [List.map_cons, List.map_cons, hid]
      exact ih.cons_cons a.id

theorem nodup_rankedAuditCandidates : (rankedAuditCandidates env t.rows o).Nodup := by
  have hids : ((auditRetentionCandidates env t.rows o).map (·.id)).Nodup :=
    t.nodup.sublist candidateIds_sublist
  exact ((List.perm_insertionSort _ _).nodup_iff.mpr (List.Nodup.of_map Candidate.id hids)).filter _

/-- Protected rows and rows without a time are never pruned. -/
theorem candidate_of_pruned {records : List AuditEvent} (ha : a ∈ records)
    (h : a.id ∈ (planAuditRetentionFromRecords env records o).pruneIds) :
    isAuditEventProtected a o.protectedIds = false ∧
      ∃ ms, parseRetentionTimestamp env a.createdAt = some ms := by
  simp only [planAuditRetentionFromRecords, buildRetentionPlan, List.mem_filter,
    Bool.not_eq_true', List.contains_eq_mem, decide_eq_false_iff_not, planAuditRetainedIds,
    List.mem_append, not_or, List.mem_map, not_exists, not_and] at h
  have hnot := fun hkeep => h.2.1 a ⟨ha, hkeep⟩ rfl
  simpa [Option.isNone_iff_eq_none, Option.ne_none_iff_exists'] using hnot

/-- A row that is neither protected nor without a time is pruned when its candidate has no place. -/
theorem mem_pruneIds_iff {records : List AuditEvent} {c : Candidate}
    (hunique : ∀ b ∈ records, b.id = a.id → b = a) (ha : a ∈ records)
    (hprotected : isAuditEventProtected a o.protectedIds = false)
    (hstamp : parseRetentionTimestamp env a.createdAt = some c.timestampMs) (hid : a.id = c.id) :
    a.id ∈ (planAuditRetentionFromRecords env records o).pruneIds ↔
      c ∉ (rankedAuditCandidates env records o).take o.maxRecords := by
  have hmember : a.id ∈ records.map (·.id) := List.mem_map_of_mem ha
  have hkept : a.id ∈ planAuditRetainedIds env records o ↔
      c ∈ (rankedAuditCandidates env records o).take o.maxRecords := by
    rw [planAuditRetainedIds, List.mem_append]
    constructor
    · rintro (h | h)
      · obtain ⟨b, hb, hbid⟩ := List.mem_map.mp h
        obtain ⟨hbr, hbkeep⟩ := List.mem_filter.mp hb
        rw [hunique b hbr hbid] at hbkeep
        simp [hprotected, hstamp] at hbkeep
      · obtain ⟨d, hd, hdid⟩ := List.mem_map.mp h
        obtain ⟨b, hb, -, hbstamp, hbid⟩ :=
          mem_auditRetentionCandidates.mp (mem_rankedAuditCandidates (List.mem_of_mem_take hd))
        have hba : b = a := hunique b hb (hbid.trans hdid)
        have hms : d.timestampMs = c.timestampMs := by
          rw [hba, hstamp] at hbstamp
          exact (Option.some.inj hbstamp).symm
        have hdc : d = c := by
          obtain ⟨id, ms⟩ := d
          obtain ⟨id', ms'⟩ := c
          simp only at hms hdid hid
          rw [hms, hdid, hid]
        exact hdc ▸ hd
    · intro h
      rw [hid]
      exact .inr (List.mem_map_of_mem h)
  simp only [planAuditRetentionFromRecords, buildRetentionPlan, List.mem_filter, hmember, true_and,
    Bool.not_eq_true', List.contains_eq_mem, decide_eq_false_iff_not, hkept]

/-- No row of evidence is pruned that is kept without the heartbeats. -/
def PlanIndifferent (env : Env) (o : AuditRetentionPlanOptions) (t : Table AuditEvent) : Prop :=
  ∀ a ∈ t.rows, a.isEvidence = true →
    a.id ∈ (planAuditRetentionFromRecords env t.rows o).pruneIds →
    a.id ∈ (planAuditRetentionFromRecords env (evidenceRows t) o).pruneIds

/-- The first places go to evidence, or only heartbeats stand behind them. -/
def EvidenceRanksFirst (env : Env) (o : AuditRetentionPlanOptions) (t : Table AuditEvent) : Prop :=
  (∀ c ∈ (rankedAuditCandidates env t.rows o).take o.maxRecords, ofEvidence t c = true) ∨
    ∀ c ∈ (rankedAuditCandidates env t.rows o).drop o.maxRecords, ofEvidence t c = false

theorem plan_indifferent_iff [Std.TransCmp env.localeCompare] :
    PlanIndifferent env o t ↔ EvidenceRanksFirst env o t := by
  have hunique : ∀ a ∈ t.rows, ∀ b ∈ t.rows, b.id = a.id → b = a :=
    fun a ha b hb hid => Table.eq_of_key_eq hb ha hid
  rw [EvidenceRanksFirst, ← take_filter_subset_iff nodup_rankedAuditCandidates,
    ← rankedAuditCandidates_evidence]
  constructor
  · intro h c hc
    obtain ⟨a, ha, hprotected, hstamp, hid⟩ :=
      mem_auditRetentionCandidates.mp (mem_rankedAuditCandidates (List.mem_of_mem_take hc))
    obtain ⟨hat, hevidence⟩ := List.mem_filter.mp ha
    by_contra hnot
    have hpruned := h a hat hevidence ((mem_pruneIds_iff (hunique a hat) hat hprotected hstamp
      hid).mpr hnot)
    refine (mem_pruneIds_iff ?_ ha hprotected hstamp hid).mp hpruned hc
    exact fun b hb => hunique a hat b (List.mem_filter.mp hb).1
  · intro h a hat hevidence hpruned
    obtain ⟨hprotected, ms, hstamp⟩ := candidate_of_pruned hat hpruned
    have hrow : ∀ b ∈ evidenceRows t, b.id = a.id → b = a :=
      fun b hb => hunique a hat b (List.mem_filter.mp hb).1
    have ha : a ∈ evidenceRows t := List.mem_filter.mpr ⟨hat, hevidence⟩
    have hout := (mem_pruneIds_iff (c := ⟨a.id, ms⟩) (hunique a hat) hat hprotected hstamp rfl).mp
      hpruned
    exact (mem_pruneIds_iff (c := ⟨a.id, ms⟩) hrow ha hprotected hstamp rfl).mpr
      fun hc => hout (h _ hc)

end

/-! ## The three pruning routines -/

/-- Exactly when heartbeats cost no evidence its place: an append to the audit repository, a hot save
of one heartbeat, and the retention planner. -/
theorem hot_audit_keeps_evidence_iff (env : Env) (hcompare : Std.TransCmp env.localeCompare)
    (options : StoreOptions) (t : Table AuditEvent) :
    (∀ maxEvents maxHeartbeats e, WithinCaps maxEvents maxHeartbeats t →
      isHeartbeatAuditEvent e.action e.targetType = true →
      let hotEvent := { e with id := (hotHeartbeatAuditEventId e).getD e.id }
      (KeepsEvidence t (repositoryAppendAuditEvent maxEvents maxHeartbeats t e) ↔
        (∀ a ∈ t.rows, a.isEvidence = true → a.id ≠ hotEvent.id) ∧
          HasPlace maxEvents maxHeartbeats t hotEvent)) ∧
    (∀ (store : Store) e, store.tables.auditEvents = t →
      WithinCaps options.maxHotRuntimeAuditEvents options.maxHotRuntimeHeartbeatAuditEvents t →
      isHeartbeatAuditEvent e.action e.targetType = true →
      (KeepsEvidence t (store.saveHotEntities options
          { hotAuditEvents := some (Table.empty.set e) }).tables.auditEvents ↔
        (∀ a ∈ t.rows, a.isEvidence = true → a.id ≠ e.id) ∧
          HasPlace options.maxHotRuntimeAuditEvents options.maxHotRuntimeHeartbeatAuditEvents t
            e)) ∧
    ∀ o, PlanIndifferent env o t ↔ EvidenceRanksFirst env o t := by
  refine ⟨?_, ?_, fun o => plan_indifferent_iff⟩
  · intro maxEvents maxHeartbeats e hcaps he hotEvent
    rw [repositoryAppendAuditEvent_heartbeat he]
    exact upsertHeartbeat_keeps_iff hcaps (isEvidence_of_heartbeat (e := hotEvent) he)
  · rintro store e rfl hcaps he
    have hsave : (store.saveHotEntities options
        { hotAuditEvents := some (Table.empty.set e) }).tables.auditEvents =
        upsertHintAuditRows options store.tables.auditEvents (some (Table.empty.set e)) := rfl
    rw [hsave, upsertHintAuditRows_heartbeat he]
    exact upsertHeartbeat_keeps_iff hcaps (isEvidence_of_heartbeat he)

/-- An environment whose collation orders texts by their characters. -/
def Env.ordered : Env := { Env.numbered {} with localeCompare := compare }

/-- A table with room for one more row. -/
theorem hot_audit_keeps_evidence_iff_room :
    let t := Table.empty.set proposalEvent
    WithinCaps 2 1 t ∧ KeepsEvidence t (repositoryAppendAuditEvent 2 1 t (beatOf "w")) := by
  intro t
  have hcaps : WithinCaps 2 1 t := ⟨by decide, by decide⟩
  have hbeat : isHeartbeatAuditEvent (beatOf "w").action (beatOf "w").targetType = true := by decide
  have hiff := (hot_audit_keeps_evidence_iff Env.ordered (inferInstanceAs (Std.TransOrd String)) {}
    t).1 2 1 (beatOf "w") hcaps hbeat
  exact ⟨hcaps, hiff.mpr ⟨by decide, .inr (.inr (.inl (by decide)))⟩⟩

/-- A full table without heartbeats: the first heartbeat evicts a row of evidence, through the
repository and through a hot save, and the planner gives it the row's place. -/
theorem heartbeat_evicts_evidence :
    let t := Table.empty.set proposalEvent
    let options : StoreOptions := { maxHotRuntimeAuditEvents := 1 }
    let store : Store := { tables := { auditEvents := t } }
    let o : AuditRetentionPlanOptions :=
      { nowMs := 10, retentionMs := 10, maxRecords := 1, protectedIds := ⟨[], [], [], [], [], [], []⟩ }
    WithinCaps 1 1 t ∧
    isHeartbeatAuditEvent (beatOf "w").action (beatOf "w").targetType = true ∧
    ¬KeepsEvidence t (repositoryAppendAuditEvent 1 1 t (beatOf "w")) ∧
    ¬KeepsEvidence t (store.saveHotEntities options
      { hotAuditEvents := some (Table.empty.set (beatOf "w")) }).tables.auditEvents ∧
    ¬PlanIndifferent Env.ordered o (t.set (beatOf "w")) := by
  intro t options store o
  refine ⟨⟨by decide, by decide⟩, by decide, by decide +kernel, by decide +kernel, fun h => ?_⟩
  have hpruned := h proposalEvent (by decide) (by decide) (by decide +kernel)
  exact absurd hpruned (by decide +kernel)

end A2ABroker
