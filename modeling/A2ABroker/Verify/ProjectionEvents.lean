import A2ABroker.Verify.OutboxRoom
import A2ABroker.Verify.ProjectionOrder
import A2ABroker.Verify.Tracked

/-! # One notification per child

A report that the projection store accepts is enqueued in the terminal outbox under an id that is
built from other fields than the key of its record. The two agree as long as no two accepted reports
with different keys have the same id (`projections_agree_iff`).

The theorem is about runs of the broker in which the outbox evicts nothing. Its records are then all
that were ever added, and an operation that is no report adds none under the id of a report. -/

namespace A2ABroker

open Prog Text

/-! ## Encoded ids -/

theorem percentEncoded_inj {a b : UInt8} {r s : List Char}
    (h : percentEncoded a ++ r = percentEncoded b ++ s) : a = b ∧ r = s := by
  simp only [percentEncoded, List.cons_append, List.nil_append, List.cons.injEq, true_and] at h
  obtain ⟨hhigh, hlow, hrest⟩ := h
  have hdigit : ∀ m < 16, ∀ n < 16,
      (Nat.digitChar m).toUpper = (Nat.digitChar n).toUpper → m = n := by decide
  have ha := UInt8.toNat_lt a
  have hb := UInt8.toNat_lt b
  have hhigh' := hdigit _ (by omega) _ (by omega) hhigh
  have hlow' := hdigit _ (by omega) _ (by omega) hlow
  exact ⟨UInt8.toNat_inj.mp (by omega), hrest⟩

/-- One sequence of percent-encoded bytes that begins another one begins it as bytes. -/
theorem prefix_of_percentEncoded {l l' : List UInt8} {r s : List Char}
    (h : l.flatMap percentEncoded ++ r = l'.flatMap percentEncoded ++ s) : l <+: l' ∨ l' <+: l := by
  induction l generalizing l' with
  | nil => exact .inl (List.nil_prefix)
  | cons a l ih =>
    cases l' with
    | nil => exact .inr (List.nil_prefix)
    | cons b l' =>
      rw [List.flatMap_cons, List.flatMap_cons, List.append_assoc, List.append_assoc] at h
      obtain ⟨rfl, hrest⟩ := percentEncoded_inj h
      exact (ih hrest).imp (List.cons_prefix_cons.mpr ⟨rfl, ·⟩) (List.cons_prefix_cons.mpr ⟨rfl, ·⟩)

/-- A character can be told from the beginning of its encoding. -/
theorem eq_of_prefix_utf8EncodeChar {a b : Char}
    (h : String.utf8EncodeChar a <+: String.utf8EncodeChar b) : a = b := by
  obtain ⟨rest, hrest⟩ := h
  have hbytes : (String.utf8EncodeChar a).toByteArray ++ rest.toByteArray =
      (String.utf8EncodeChar b).toByteArray ++ ByteArray.empty := by
    rw [ByteArray.append_empty, ← hrest, List.toByteArray_append]
  have hdecode := congrArg (·.utf8DecodeChar? 0) hbytes
  rw [ByteArray.utf8DecodeChar?_utf8EncodeChar_append,
    ByteArray.utf8DecodeChar?_utf8EncodeChar_append] at hdecode
  exact Option.some.inj hdecode

/-- A character of an encoded id. -/
def uriChar (c : Char) : List Char :=
  if isUriUnreserved c then [c] else (String.utf8EncodeChar c).flatMap percentEncoded

theorem uriChar_reserved {c : Char} (h : isUriUnreserved c = false) :
    ∃ rest, uriChar c = '%' :: rest := by
  rw [uriChar, h]
  cases hbytes : String.utf8EncodeChar c with
  | nil => exact absurd hbytes String.utf8EncodeChar_ne_nil
  | cons b bytes => exact ⟨_, rfl⟩

theorem uriChar_inj {a b : Char} {r s : List Char} (h : uriChar a ++ r = uriChar b ++ s) :
    a = b ∧ r = s := by
  have hmixed : ∀ {a b : Char} {r s : List Char}, isUriUnreserved a = true →
      isUriUnreserved b = false → uriChar a ++ r ≠ uriChar b ++ s := by
    intro a b r s ha hb h
    obtain ⟨rest, hrest⟩ := uriChar_reserved hb
    rw [hrest, uriChar, ha] at h
    obtain ⟨rfl, -⟩ := List.cons_eq_cons.mp h
    exact absurd ha (by decide)
  cases ha : isUriUnreserved a with
  | true =>
    cases hb : isUriUnreserved b with
    | true =>
      rw [uriChar, uriChar, ha, hb] at h
      exact List.cons_eq_cons.mp h
    | false => exact absurd h (hmixed ha hb)
  | false =>
    cases hb : isUriUnreserved b with
    | true => exact absurd h.symm (hmixed hb ha)
    | false =>
      have heq : a = b := by
        rw [uriChar, uriChar, ha, hb] at h
        rcases prefix_of_percentEncoded h with hprefix | hprefix
        · exact eq_of_prefix_utf8EncodeChar hprefix
        · exact (eq_of_prefix_utf8EncodeChar hprefix).symm
      subst heq
      exact ⟨rfl, List.append_cancel_left h⟩

theorem encodeURIComponent_injective : Function.Injective encodeURIComponent := by
  intro s t h
  have hlists : s.toList.flatMap uriChar = t.toList.flatMap uriChar := String.ofList_injective h
  have hquote := congrArg (· ++ [' ']) hlists
  have hspace : ∀ a r s, uriChar a ++ r ≠ ' ' :: s := by
    intro a r s
    cases ha : isUriUnreserved a with
    | true =>
      rw [uriChar, ha]
      intro h
      obtain ⟨rfl, -⟩ := List.cons_eq_cons.mp h
      exact absurd ha (by decide)
    | false =>
      obtain ⟨rest, hrest⟩ := uriChar_reserved ha
      rw [hrest]
      intro h
      exact absurd (List.cons_eq_cons.mp h).1 (by decide)
  exact String.toList_injective (flatMap_cons_inj (fun _ _ _ _ => uriChar_inj) hspace hquote).1

theorem colon_notMem_uriChar {c : Char} : ':' ∉ uriChar c := by
  intro h
  cases hc : isUriUnreserved c with
  | true =>
    rw [uriChar, hc] at h
    obtain rfl := List.mem_singleton.mp h
    exact absurd hc (by decide)
  | false =>
    rw [uriChar, hc] at h
    obtain ⟨b, -, hb⟩ := List.mem_flatMap.mp h
    have hdigit : ∀ m < 16, (Nat.digitChar m).toUpper ≠ ':' := by decide
    have hb' := UInt8.toNat_lt b
    simp only [percentEncoded, List.mem_cons, List.not_mem_nil, or_false] at hb
    rcases hb with hb | hb | hb
    · exact absurd hb (by decide)
    · exact hdigit _ (by omega) hb.symm
    · exact hdigit _ (by omega) hb.symm

/-- What the id of a projection's event is made of: the parent round, the child, the status and the
broker that is notified. -/
def notificationKey (p : NormalizedProjection) : String :=
  let canonicalChildTaskId := p.childTaskId.getD <|
    if truthy p.childWorkerId then "worker:" ++ p.childWorkerId.getD ""
    else "broker:" ++ p.originBrokerId
  p.parentRoundId ++ ":" ++ canonicalChildTaskId ++ ":" ++ p.status.text ++ ":" ++
    p.brokerOfRecordId.getD "unknown-parent-broker"

theorem terminalEventId_eq (p : Projection) : p.terminalEventId = "terminal:" ++
    encodeURIComponent ("cross-broker:" ++ notificationKey p.toNormalizedProjection) := by
  simp only [Projection.terminalEventId, notificationKey, String.append_assoc]

theorem terminalEventId_inj {p q : Projection} : p.terminalEventId = q.terminalEventId ↔
    notificationKey p.toNormalizedProjection = notificationKey q.toNormalizedProjection := by
  rw [terminalEventId_eq, terminalEventId_eq, String.append_right_inj,
    encodeURIComponent_injective.eq_iff, String.append_right_inj]

/-- The id of a task's event has a colon that none of a projection's has. -/
theorem terminalEventId_ne_task (p : Projection) (task : TaskRecord) :
    p.terminalEventId ≠ task.terminalEventId := by
  intro h
  rw [terminalEventId_eq, TaskRecord.terminalEventId, formatTerminalTaskEventId] at h
  simp only [String.append_assoc] at h
  have htail := (String.append_right_inj _).mp h
  have hcolon : ':' ∈ (encodeURIComponent
      ("cross-broker:" ++ notificationKey p.toNormalizedProjection)).toList := by
    rw [htail]
    simp
  rw [encodeURIComponent, String.toList_ofList] at hcolon
  obtain ⟨c, -, hc⟩ := List.mem_flatMap.mp hcolon
  exact colon_notMem_uriChar hc

/-! ## Operations that are no reports -/

variable {env : Env} {s s' : State}

/-- The projections stay, and the outbox gets events of tasks only. -/
structure Unreported (s s' : State) : Prop where
  reads : s.clockReads ≤ s'.clockReads
  briefs : s'.crossBrokerTerminalBriefs = s.crossBrokerTerminalBriefs
  outbox : Outbox.Adds Outbox.OfTask s.outbox s'.outbox

theorem Unreported.of_eq (hreads : s.clockReads ≤ s'.clockReads)
    (hbriefs : s'.crossBrokerTerminalBriefs = s.crossBrokerTerminalBriefs)
    (houtbox : s'.outbox = s.outbox) : Unreported s s' where
  reads := hreads
  briefs := hbriefs
  outbox := by
    rw [houtbox]
    exact .refl s.outbox

theorem Unreported.trans {s'' : State} (h : Unreported s s') (h' : Unreported s' s'') :
    Unreported s s'' :=
  ⟨h.reads.trans h'.reads, h'.briefs.trans h.briefs, h.outbox.trans h'.outbox⟩

/-- A save changes neither the outbox nor the projections. -/
theorem persistState_outbox (env : Env) (s : State) :
    (finalState (persistState env s)).outbox = s.outbox ∧
      (finalState (persistState env s)).crossBrokerTerminalBriefs = s.crossBrokerTerminalBriefs := by
  have hcall : ∀ call s', s'.outbox = s.outbox ∧
      s'.crossBrokerTerminalBriefs = s.crossBrokerTerminalBriefs →
      (finalState (callStore env call s')).outbox = s.outbox ∧
        (finalState (callStore env call s')).crossBrokerTerminalBriefs =
          s.crossBrokerTerminalBriefs := by
    intro call s' h
    obtain ⟨_, _, hfinal⟩ := callStore_final call s'
    rw [hfinal]
    exact h
  rw [persistState_run]
  split
  · exact hcall _ _ ⟨rfl, rfl⟩
  · cases decide (env.config.store ≠ .absent) with
    | false => exact ⟨rfl, rfl⟩
    | true => exact hcall _ _ ⟨rfl, rfl⟩

theorem persistState_unreported (env : Env) (s : State) :
    Unreported s (finalState (persistState env s)) := by
  obtain ⟨houtbox, hbriefs⟩ := persistState_outbox env s
  exact .of_eq (persistState_reaches env s).reads hbriefs houtbox

theorem framed_unreported (env : Env) : Framed env Unreported where
  refl s := .of_eq (Nat.le_refl _) rfl rfl
  trans _ _ _ := .trans
  tick _ := .of_eq (Nat.le_succ _) rfl rfl
  draw _ := .of_eq (Nat.le_refl _) rfl rfl
  exchange _ _ := .of_eq (Nat.le_refl _) rfl rfl
  message _ _ := .of_eq (Nat.le_refl _) rfl rfl
  proposal _ _ := .of_eq (Nat.le_refl _) rfl rfl
  artifact _ _ := .of_eq (Nat.le_refl _) rfl rfl
  validation _ _ := .of_eq (Nat.le_refl _) rfl rfl
  worker _ _ := .of_eq (Nat.le_refl _) rfl rfl
  tombstone _ _ := .of_eq (Nat.le_refl _) rfl rfl
  audit event s := by
    rw [KeepsAt, recordAudit, modify_run]
    dsimp only [finalState]
    split
    · exact .of_eq (Nat.le_refl _) rfl rfl
    · unfold State.pushTaskEvent
      split
      · exact .of_eq (Nat.le_refl _) rfl rfl
      · exact ⟨Nat.le_refl _, rfl, Outbox.enqueue_adds _ _⟩
  workerStamp _ _ := .of_eq (Nat.le_refl _) rfl rfl
  taskStamp _ _ := .of_eq (Nat.le_refl _) rfl rfl
  persist := persistState_unreported env

theorem stepwise_unreported (env : Env) (P : State → TaskRecord → Prop) (Q : String → Prop) :
    Stepwise env P Q Unreported where
  toFramed := framed_unreported env
  clock _ _ h := h.reads
  emit _ _ := .of_eq (Nat.le_refl _) rfl rfl
  touch _ _ _ := .of_eq (Nat.le_refl _) rfl rfl
  save s x hx := by
    have := (framed_unreported env).isPreorder
    refine (hx.keeps Unreported (framed_unreported env) fun _ _ _ => ?_).bind fun _ s' _ _ => ?_
    · exact .of_eq (Nat.le_refl _) rfl rfl
    · exact persistState_unreported env s'

theorem changeOutbox_unreported
    {change : Outbox → Int → Outbox × Except String (Option TerminalTaskOutboxEvent)}
    (hchange : ∀ ob nowMs, Outbox.Adds Outbox.OfTask ob (change ob nowMs).1) (s : State) :
    KeepsAt Unreported s (changeOutbox env change) :=
  (framed_unreported env).still.changeOutbox
    (fun s nowMs => ⟨Nat.le_refl _, rfl, hchange s.outbox nowMs⟩)
    (fun _ _ => .of_eq (Nat.le_refl _) rfl rfl) s

/-- The operation reports a projection. -/
def Op.reported : Op → Option ProjectionRequest
  | ingestCrossBrokerTerminalBriefProjection request => some request
  | _ => none

theorem exec_unreported {op : Op} (hop : op.reported = none) (s : State) :
    Unreported s (exec env s op) := by
  cases op with
  | acknowledgeTerminalTaskOutboxEvent id receipt =>
    rw [exec, Op.body, finalState_discard]
    exact changeOutbox_unreported (fun _ _ => Outbox.acknowledge_adds id receipt _) s
  | recordTerminalTaskOutboxReceiptStatus id receipt =>
    rw [exec, Op.body, finalState_discard]
    exact changeOutbox_unreported (fun _ _ => Outbox.recordReceiptStatus_adds id receipt _) s
  | ingestCrossBrokerTerminalBriefProjection request => cases hop
  | _ => exact exec_stepwise (stepwise_unreported env _ _) id

/-! ## Reports -/

/-- The record that a report is answered with. -/
def ProjectionResult.record? : ProjectionResult → Option Projection
  | stored record | replayed record => some record
  | rejected _ _ _ => none

/-- The outbox after a report. -/
theorem exec_ingest (env : Env) (s : State) (request : ProjectionRequest) :
    (exec env s (.ingestCrossBrokerTerminalBriefProjection request)).crossBrokerTerminalBriefs =
        (ProjectionDelivery.ingest env.host env.dateParse (s.projectionOptions env)
          s.crossBrokerTerminalBriefs ⟨request, .iso (env.dateNow s.clockReads)⟩).1 ∧
      (exec env s (.ingestCrossBrokerTerminalBriefProjection request)).outbox =
        match ingestResult env s request with
        | .stored record => (s.outbox.enqueueCrossBrokerProjection env.host record).1
        | _ => s.outbox := by
  rw [exec, Op.body, finalState_discard]
  unfold ingestCrossBrokerTerminalBriefProjection ingestResult ProjectionDelivery.ingest
  rw [bind_run_ok (isoNow_run env s), bind_run_ok (get_run _)]
  generalize hr : ingestProjection _ _ (s.projectionOptions env) _ _ _ = r
  rw [show ingestProjection _ _ (s.ticked.projectionOptions env)
    s.ticked.crossBrokerTerminalBriefs _ _ = r from hr]
  obtain ⟨records, result⟩ := r
  have hsave : ∀ s₂ : State,
      (finalState ((persistState env >>= fun _ => pure result) s₂)).crossBrokerTerminalBriefs =
          s₂.crossBrokerTerminalBriefs ∧
        (finalState ((persistState env >>= fun _ => pure result) s₂)).outbox = s₂.outbox := by
    intro s₂
    rw [finalState_bind_pure]
    exact (persistState_outbox env s₂).symm
  dsimp only
  rw [bind_run_ok (modify_run _ _)]
  cases result with
  | rejected code reason t => exact ⟨rfl, rfl⟩
  | replayed record => exact hsave _
  | stored record =>
    dsimp only
    rw [bind_run_ok (modify_run _ _)]
    exact hsave _

/-- A report that is answered with a record of the run `ops`. -/
def Accepts (env : Env) (ops : List Op) (p : Projection) : Prop :=
  ∃ before request, before ++ [.ingestCrossBrokerTerminalBriefProjection request] <+: ops ∧
    (ingestResult env (run env before) request).record? = some p

theorem Accepts.mono {ops ops' : List Op} {p : Projection} (h : Accepts env ops p)
    (hle : ops <+: ops') : Accepts env ops' p := by
  obtain ⟨before, request, hbefore, hrecord⟩ := h
  exact ⟨before, request, hbefore.trans hle, hrecord⟩

theorem accepts_concat {ops : List Op} {op : Op} {p : Projection} :
    Accepts env (ops ++ [op]) p ↔ Accepts env ops p ∨ ∃ request,
      op = .ingestCrossBrokerTerminalBriefProjection request ∧
        (ingestResult env (run env ops) request).record? = some p := by
  constructor
  · rintro ⟨before, request, hbefore, hrecord⟩
    rcases List.prefix_concat_iff.mp hbefore with heq | hprefix
    · obtain ⟨rfl, hop⟩ := List.append_inj' heq rfl
      exact .inr ⟨request, (List.cons_eq_cons.mp hop).1.symm, hrecord⟩
    · exact .inl ⟨before, request, hprefix, hrecord⟩
  · rintro (h | ⟨request, rfl, hrecord⟩)
    · exact h.mono (List.prefix_append _ _)
    · exact ⟨ops, request, List.prefix_refl _, hrecord⟩

/-- What a report does: its record is stored and has an event, and no other event is added. -/
structure ReportHandled (env : Env) (s s' : State) (result : ProjectionResult) : Prop where
  outbox : Outbox.Adds (fun id payload => ∃ record, result = .stored record ∧
    id = record.terminalEventId ∧ payload.status = record.status) s.outbox s'.outbox
  rows : ∀ e ∈ s'.crossBrokerTerminalBriefs.rows,
    e ∈ s.crossBrokerTerminalBriefs.rows ∨ result.record? = some e
  accepted : ∀ e, result.record? = some e → e ∈ s'.crossBrokerTerminalBriefs.rows
  stored : ∀ e, result = .stored e → Outbox.Complete s.outbox → Outbox.Roomy s'.outbox →
    ∃ c ∈ s'.outbox.contents, c.1 = e.terminalEventId
  replayed : ∀ e, result = .replayed e → s'.outbox = s.outbox ∧
    ∃ e₀ ∈ s.crossBrokerTerminalBriefs.rows, e.toNormalizedProjection = e₀.toNormalizedProjection

theorem exec_reportHandled (env : Env) (s : State) (request : ProjectionRequest) :
    ReportHandled env s (exec env s (.ingestCrossBrokerTerminalBriefProjection request))
      (ingestResult env s request) := by
  obtain ⟨hrows, houtbox⟩ := exec_ingest env s request
  generalize exec env s (.ingestCrossBrokerTerminalBriefProjection request) = s' at hrows houtbox ⊢
  have hresult : Ingested env.host env.dateParse (s.projectionOptions env)
      s.crossBrokerTerminalBriefs ⟨request, .iso (env.dateNow s.clockReads)⟩ _ := ingested _ _
  have hsame : ingestResult env s request = (ProjectionDelivery.ingest env.host env.dateParse
    (s.projectionOptions env) s.crossBrokerTerminalBriefs
    ⟨request, .iso (env.dateNow s.clockReads)⟩).2 := rfl
  rw [hsame] at houtbox ⊢
  generalize ProjectionDelivery.ingest env.host env.dateParse (s.projectionOptions env)
    s.crossBrokerTerminalBriefs ⟨request, .iso (env.dateNow s.clockReads)⟩ = r
    at hrows houtbox hresult ⊢
  have hrejected : ∀ code reason t, s'.crossBrokerTerminalBriefs = s.crossBrokerTerminalBriefs →
      s'.outbox = s.outbox → ReportHandled env s s' (.rejected code reason t) := by
    intro code reason t hrows houtbox
    refine ⟨houtbox ▸ .refl _, fun e he => .inl (hrows ▸ he), fun _ h => (nomatch h),
      fun _ h => (nomatch h), fun _ h => (nomatch h)⟩
  cases hresult with
  | refused _ => exact hrejected _ _ _ hrows houtbox
  | stale _ _ _ _ => exact hrejected _ _ _ hrows houtbox
  | @replayed p e _ hget _ =>
    refine ⟨houtbox ▸ .refl _, fun e' he' => ?_, fun e' he' => ?_, fun _ h => (nomatch h),
      fun e' he' => ⟨houtbox, e, Table.mem_of_get? hget, ?_⟩⟩
    · rw [hrows] at he'
      rcases Table.mem_rows_set.mp he' with rfl | ⟨hold, -⟩
      · exact .inr rfl
      · exact .inl hold
    · obtain rfl := Option.some.inj he'
      rw [hrows]
      exact Table.mem_rows_set.mpr (.inl rfl)
    · cases he'
      rfl
  | @stored p _ _ =>
    generalize Projection.ofReport env.host p _ _ = e at hrows houtbox ⊢
    dsimp only at houtbox
    refine ⟨?_, fun e' he' => ?_, fun e' he' => ?_, fun e' he' hc hroom => ?_,
      fun _ h => (nomatch h)⟩
    · rw [houtbox]
      exact (Outbox.enqueueOnce_adds _ _ _ _ _).mono fun _ _ h => ⟨e, rfl, h⟩
    · rw [hrows] at he'
      rcases Table.mem_rows_set.mp he' with rfl | ⟨hold, -⟩
      · exact .inr rfl
      · exact .inl hold
    · obtain rfl := Option.some.inj he'
      rw [hrows]
      exact Table.mem_rows_set.mpr (.inl rfl)
    · obtain rfl := ProjectionResult.stored.inj he'
      rw [houtbox] at hroom ⊢
      exact Outbox.enqueueOnce_retained hc _ _ _ _ _ hroom

/-! ## Runs -/

/-- Every accepted report has an event, and every record and every event under the id of a report
come from an accepted one. -/
structure Notified (env : Env) (ops : List Op) : Prop where
  consistent : Outbox.Complete (run env ops).outbox
  records : ∀ e ∈ (run env ops).crossBrokerTerminalBriefs.rows, ∃ p, Accepts env ops p ∧
    p.toNormalizedProjection = e.toNormalizedProjection
  accepted : Outbox.Roomy (run env ops).outbox → ∀ p, Accepts env ops p →
    ∃ c ∈ (run env ops).outbox.contents, c.1 = p.terminalEventId
  events : Outbox.Roomy (run env ops).outbox → ∀ c ∈ (run env ops).outbox.contents,
    ∀ p : Projection, c.1 = p.terminalEventId →
      ∃ q, Accepts env ops q ∧ q.terminalEventId = c.1 ∧ q.status = c.2.status

theorem terminalEventId_congr {p q : Projection}
    (h : p.toNormalizedProjection = q.toNormalizedProjection) :
    p.terminalEventId = q.terminalEventId :=
  terminalEventId_inj.mpr (congrArg notificationKey h)

theorem Notified.unreported {ops : List Op} {op : Op} (h : Notified env ops)
    (hop : op.reported = none) : Notified env (ops ++ [op]) := by
  have hstep : Unreported (run env ops) (exec env (run env ops) op) := exec_unreported hop _
  rw [← run_concat] at hstep
  have haccepts : ∀ p, Accepts env (ops ++ [op]) p ↔ Accepts env ops p := by
    refine fun p => accepts_concat.trans (or_iff_left ?_)
    rintro ⟨request, rfl, -⟩
    cases hop
  refine ⟨hstep.outbox.consistent h.consistent, fun e he => ?_, fun hroom p hp => ?_,
    fun hroom c hc p hcp => ?_⟩
  · rw [hstep.briefs] at he
    obtain ⟨p, hp, hsame⟩ := h.records e he
    exact ⟨p, (haccepts p).mpr hp, hsame⟩
  · obtain ⟨new, hnew, -⟩ := hstep.outbox.contents h.consistent hroom
    obtain ⟨c, hc, hid⟩ := h.accepted (hstep.outbox.roomy hroom) p ((haccepts p).mp hp)
    exact ⟨c, hnew ▸ List.mem_append_left _ hc, hid⟩
  · obtain ⟨new, hnew, hfresh⟩ := hstep.outbox.contents h.consistent hroom
    rw [hnew] at hc
    rcases List.mem_append.mp hc with hc | hc
    · obtain ⟨q, hq, hid⟩ := h.events (hstep.outbox.roomy hroom) c hc p hcp
      exact ⟨q, (haccepts q).mpr hq, hid⟩
    · obtain ⟨task, htask⟩ := hfresh c hc
      exact absurd (hcp.symm.trans htask) (terminalEventId_ne_task p task)

theorem Notified.ingested {ops : List Op} {request : ProjectionRequest} (h : Notified env ops) :
    Notified env (ops ++ [.ingestCrossBrokerTerminalBriefProjection request]) := by
  have hstep := exec_reportHandled env (run env ops) request
  rw [← run_concat] at hstep
  have haccepts : ∀ p, Accepts env (ops ++ [.ingestCrossBrokerTerminalBriefProjection request]) p ↔
      Accepts env ops p ∨ (ingestResult env (run env ops) request).record? = some p := by
    refine fun p => accepts_concat.trans (or_congr_right ?_)
    exact ⟨fun ⟨_, hop, hrecord⟩ => by cases hop; exact hrecord, fun hrecord => ⟨_, rfl, hrecord⟩⟩
  refine ⟨hstep.outbox.consistent h.consistent, fun e he => ?_, fun hroom p hp => ?_,
    fun hroom c hc p hcp => ?_⟩
  · rcases hstep.rows e he with hold | hnew
    · obtain ⟨p, hp, hsame⟩ := h.records e hold
      exact ⟨p, (haccepts p).mpr (.inl hp), hsame⟩
    · exact ⟨e, (haccepts e).mpr (.inr hnew), rfl⟩
  · obtain ⟨new, hnew, -⟩ := hstep.outbox.contents h.consistent hroom
    have hold : ∀ q, Accepts env ops q → ∃ c ∈ (run env (ops ++
        [.ingestCrossBrokerTerminalBriefProjection request])).outbox.contents,
          c.1 = q.terminalEventId := by
      intro q hq
      obtain ⟨c, hc, hid⟩ := h.accepted (hstep.outbox.roomy hroom) q hq
      exact ⟨c, hnew ▸ List.mem_append_left _ hc, hid⟩
    rcases (haccepts p).mp hp with hp | hp
    · exact hold p hp
    · cases hresult : ingestResult env (run env ops) request with
      | stored e =>
        rw [hresult] at hp
        obtain rfl := Option.some.inj hp
        exact hstep.stored e hresult h.consistent hroom
      | replayed e =>
        rw [hresult] at hp
        obtain rfl := Option.some.inj hp
        obtain ⟨-, e₀, he₀, hsame⟩ := hstep.replayed e hresult
        obtain ⟨q, hq, hq₀⟩ := h.records e₀ he₀
        rw [terminalEventId_congr (hsame.trans hq₀.symm)]
        exact hold q hq
      | rejected code reason t =>
        rw [hresult] at hp
        cases hp
  · obtain ⟨new, hnew, hfresh⟩ := hstep.outbox.contents h.consistent hroom
    rw [hnew] at hc
    rcases List.mem_append.mp hc with hc | hc
    · obtain ⟨q, hq, hid⟩ := h.events (hstep.outbox.roomy hroom) c hc p hcp
      exact ⟨q, (haccepts q).mpr (.inl hq), hid⟩
    · obtain ⟨record, hresult, hid, hstatus⟩ := hfresh c hc
      refine ⟨record, (haccepts record).mpr (.inr ?_), hid.symm, hstatus.symm⟩
      rw [hresult]
      rfl

theorem initial_events (env : Env) : (initial env).outbox.events = [] := List.rtake_nil _

theorem complete_initial (env : Env) : Outbox.Complete (initial env).outbox where
  windowed := Outbox.windowed_create _ _
  bounded := Outbox.bounded_restoreSnapshot _
  added _ h := absurd h List.not_mem_nil

theorem notified_run (env : Env) (ops : List Op) : Notified env ops := by
  induction ops using List.reverseRecOn with
  | nil =>
    have hcontents : (run env []).outbox.contents = [] := by
      rw [Outbox.contents, run_nil, initial_events]
      rfl
    refine ⟨complete_initial env,
      fun _ h => absurd h List.not_mem_nil, fun _ p haccepts => ?_, ?_⟩
    · obtain ⟨before, request, hbefore, -⟩ := haccepts
      exact absurd (List.prefix_nil.mp hbefore) (by simp)
    · rw [hcontents]
      exact fun _ _ h => absurd h List.not_mem_nil
  | append_singleton ops op ih =>
    cases hop : op.reported with
    | none => exact ih.unreported hop
    | some request =>
      cases op with
      | ingestCrossBrokerTerminalBriefProjection request => exact ih.ingested
      | _ => cases hop

/-- The events stay. -/
theorem contents_mono {ops ops' : List Op} (hle : ops <+: ops')
    (hroom : Outbox.Roomy (run env ops').outbox) :
    Outbox.Roomy (run env ops).outbox ∧
      (run env ops).outbox.contents <+: (run env ops').outbox.contents := by
  obtain ⟨rest, rfl⟩ := hle
  induction rest using List.reverseRecOn with
  | nil =>
    rw [List.append_nil] at hroom ⊢
    exact ⟨hroom, List.prefix_refl _⟩
  | append_singleton rest op ih =>
    rw [← List.append_assoc] at hroom ⊢
    have hconsistent := (notified_run env (ops ++ rest)).consistent
    have hadds : ∃ Fresh, Outbox.Adds Fresh (run env (ops ++ rest)).outbox
        (run env (ops ++ rest ++ [op])).outbox := by
      rw [run_concat]
      cases hop : op.reported with
      | none => exact ⟨_, (exec_unreported hop _).outbox⟩
      | some request =>
        cases op with
        | ingestCrossBrokerTerminalBriefProjection request =>
          exact ⟨_, (exec_reportHandled env _ _).outbox⟩
        | _ => cases hop
    obtain ⟨Fresh, hadds⟩ := hadds
    obtain ⟨new, hnew, -⟩ := hadds.contents hconsistent hroom
    obtain ⟨hroom', hprefix⟩ := ih (hadds.roomy hroom)
    exact ⟨hroom', hprefix.trans (hnew ▸ List.prefix_append _ _)⟩

theorem find?_of_contents {ob : Outbox} (h : Outbox.Complete ob)
    {c : String × TerminalTaskEventPayload} (hc : c ∈ ob.contents) :
    ∃ event, ob.find? c.1 = some event ∧ event.payload = c.2 := by
  obtain ⟨event, he, rfl⟩ := List.mem_map.mp hc
  exact ⟨event, Outbox.find?_of_mem h he, rfl⟩

/-- The accepted reports and the outbox agree. -/
structure ProjectionsAgree (env : Env) (ops : List Op) : Prop where
  /-- Reports that are kept as different records have different events. -/
  distinct : ∀ p q, Accepts env ops p → Accepts env ops q →
    recordKey p.toNormalizedProjection ≠ recordKey q.toNormalizedProjection →
    ∃ event event', (run env ops).outbox.find? p.terminalEventId = some event ∧
      (run env ops).outbox.find? q.terminalEventId = some event' ∧ event ≠ event'
  /-- At any time, there is an event for the status of each record. -/
  latest : ∀ before, before <+: ops → ∀ e ∈ (run env before).crossBrokerTerminalBriefs.rows,
    ∃ event, (run env before).outbox.find? e.terminalEventId = some event ∧
      event.payload.status = e.status
  replays : ∀ before request, before ++ [.ingestCrossBrokerTerminalBriefProjection request] <+: ops →
    ∀ e, ingestResult env (run env before) request = .replayed e →
      (run env (before ++ [.ingestCrossBrokerTerminalBriefProjection request])).outbox =
        (run env before).outbox

/-- In every run in which the outbox evicts nothing, the accepted reports and the outbox agree if
and only if no two accepted reports with different record keys, or with different statuses, agree on
the text of parent round, child, status and notified broker that makes the id of their event. -/
theorem projections_agree_iff (env : Env) (ops : List Op)
    (hroom : (run env ops).outbox.added.length ≤ (run env ops).outbox.maxEvents) :
    ProjectionsAgree env ops ↔ ∀ p q, Accepts env ops p → Accepts env ops q →
      notificationKey p.toNormalizedProjection = notificationKey q.toNormalizedProjection →
      recordKey p.toNormalizedProjection = recordKey q.toNormalizedProjection ∧
        p.status = q.status := by
  have hevent : ∀ before, before <+: ops → ∀ p, Accepts env before p →
      ∃ event, (run env before).outbox.find? p.terminalEventId = some event ∧
        ∃ q, Accepts env before q ∧ q.terminalEventId = p.terminalEventId ∧
          q.status = event.payload.status := by
    intro before hbefore p hp
    have hnotified := notified_run env before
    obtain ⟨hroom', -⟩ := contents_mono hbefore hroom
    obtain ⟨c, hc, hid⟩ := hnotified.accepted hroom' p hp
    obtain ⟨q, hq, hqid, hqstatus⟩ := hnotified.events hroom' c hc p hid
    obtain ⟨event, hfind, hpayload⟩ := find?_of_contents hnotified.consistent hc
    rw [hid] at hfind
    exact ⟨event, hfind, q, hq, hqid.trans hid, hqstatus.trans (congrArg _ hpayload.symm)⟩
  constructor
  · intro hagree p q hp hq hkey
    have hid : q.terminalEventId = p.terminalEventId := terminalEventId_inj.mpr hkey.symm
    -- the event that is found when a report is accepted has its status, and keeps it
    have hstatus : ∀ p, Accepts env ops p →
        ∀ event, (run env ops).outbox.find? p.terminalEventId = some event →
          event.payload.status = p.status := by
      rintro p ⟨before, request, hbefore, hrecord⟩ event hfind
      have hstep := exec_reportHandled env (run env before) request
      rw [← run_concat] at hstep
      obtain ⟨event', hfind', hpayload⟩ := hagree.latest _ hbefore p (hstep.accepted p hrecord)
      obtain ⟨hmem, hid'⟩ := Outbox.id_of_find? hfind'
      obtain ⟨-, hprefix⟩ := contents_mono hbefore hroom
      have hcontent := hprefix.subset (List.mem_map_of_mem hmem)
      obtain ⟨event'', hfind'', hsame⟩ :=
        find?_of_contents (notified_run env ops).consistent hcontent
      rw [hid'] at hfind''
      obtain rfl := Option.some.inj (hfind.symm.trans hfind'')
      rw [hsame, hpayload]
    obtain ⟨event, hfind, -⟩ := hevent ops (List.prefix_refl _) p hp
    have hfind' : (run env ops).outbox.find? q.terminalEventId = some event := by
      rw [hid]
      exact hfind
    refine ⟨?_, (hstatus p hp event hfind).symm.trans (hstatus q hq event hfind')⟩
    by_contra hne
    obtain ⟨e, e', he, he', hdiffer⟩ := hagree.distinct p q hp hq hne
    rw [hid] at he'
    exact hdiffer (Option.some.inj (he.symm.trans he'))
  · intro hcondition
    refine ⟨fun p q hp hq hne => ?_, fun before hbefore e he => ?_, fun before request _ e he => ?_⟩
    · obtain ⟨event, hfind, -⟩ := hevent ops (List.prefix_refl _) p hp
      obtain ⟨event', hfind', -⟩ := hevent ops (List.prefix_refl _) q hq
      refine ⟨event, event', hfind, hfind', ?_⟩
      rintro rfl
      have hid := (Outbox.id_of_find? hfind).2.symm.trans (Outbox.id_of_find? hfind').2
      exact hne (hcondition p q hp hq (terminalEventId_inj.mp hid)).1
    · obtain ⟨p, hp, hsame⟩ := (notified_run env before).records e he
      obtain ⟨event, hfind, q, hq, hqid, hqstatus⟩ := hevent before hbefore p hp
      rw [← terminalEventId_congr hsame]
      refine ⟨event, hfind, ?_⟩
      have hstatus := (hcondition q p (hq.mono hbefore) (hp.mono hbefore)
        (terminalEventId_inj.mp hqid)).2
      rw [← hqstatus, hstatus]
      exact congrArg (·.status) hsame
    · have hstep := exec_reportHandled env (run env before) request
      rw [← run_concat] at hstep
      exact (hstep.replayed e he).1

/-! Two child brokers whose tasks happen to have the same id: the store keeps both reports, and the
outbox makes one event of them. -/

def parentEnv : Env := Env.numbered { brokerId := some "seoseo" }

def childDone (originBrokerId : String) : ProjectionRequest :=
  { childReport .succeeded 1767225660000 with originBrokerId }

def parentRun : List Op :=
  [.registerWorker { nodeId := "worker", role := .analyst }, createFor "round-1",
    .ingestCrossBrokerTerminalBriefProjection (childDone "gwakga"),
    .ingestCrossBrokerTerminalBriefProjection (childDone "dongbu")]

theorem projections_agree_iff_two : ProjectionsAgree parentEnv parentRun ↔
    ∀ p q, Accepts parentEnv parentRun p → Accepts parentEnv parentRun q →
      notificationKey p.toNormalizedProjection = notificationKey q.toNormalizedProjection →
      recordKey p.toNormalizedProjection = recordKey q.toNormalizedProjection ∧
        p.status = q.status :=
  projections_agree_iff parentEnv parentRun (by decide +kernel)

theorem projections_disagree : ¬∀ env ops,
    (run env ops).outbox.added.length ≤ (run env ops).outbox.maxEvents →
      ProjectionsAgree env ops := by
  intro h
  have hagree := h parentEnv parentRun (by decide +kernel)
  have hrecords :
      (ingestResult parentEnv (run parentEnv (parentRun.take 2)) (childDone "gwakga")).record?.any
        (fun p => (ingestResult parentEnv (run parentEnv (parentRun.take 3))
          (childDone "dongbu")).record?.any fun q => decide
            (recordKey p.toNormalizedProjection ≠ recordKey q.toNormalizedProjection ∧
              p.terminalEventId = q.terminalEventId)) = true := by decide +kernel
  obtain ⟨p, hp, hrest⟩ := (Option.any_eq_true _ _).mp hrecords
  obtain ⟨q, hq, hpq⟩ := (Option.any_eq_true _ _).mp hrest
  obtain ⟨hkeys, hid⟩ := of_decide_eq_true hpq
  obtain ⟨event, event', hfind, hfind', hne⟩ := hagree.distinct p q
    ⟨parentRun.take 2, _, List.take_prefix 3 parentRun, hp⟩
    ⟨parentRun.take 3, _, List.take_prefix 4 parentRun, hq⟩ hkeys
  rw [hid] at hfind
  exact hne (Option.some.inj (hfind.symm.trans hfind'))

end A2ABroker
