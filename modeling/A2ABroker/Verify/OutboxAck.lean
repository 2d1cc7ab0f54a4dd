import A2ABroker.Verify.OutboxCursor

/-! # Acknowledgements

`ack`, `receipt` and `ackAudit` of a record are three views of one decision. The ack of a record is
set once and stays. Its audit says `confirmed` exactly when there is an ack, as long as neither a
receipt update nor an acknowledgement without evidence is sent to a record that has one: both write
the audit without looking at the ack. -/

namespace A2ABroker

namespace Outbox

open Window

variable {host : Host} {ob : Outbox}

/-! ## Lives of an outbox -/

/-- A step in the life of an outbox: an operation, or a restart from its own snapshot. -/
inductive LifeStep where
  | op (o : OutboxOp)
  | restart (maxEvents : Option Int)

def lifeStep (host : Host) (ob : Outbox) : LifeStep → Outbox
  | .op o => ob.step host o
  | .restart maxEvents => create maxEvents ob.snapshot

def life (host : Host) (ob : Outbox) (steps : List LifeStep) : Outbox :=
  steps.foldl (lifeStep host) ob

/-- The step leaves a record under `id` in place: it is retained, and no new one was added. -/
def Keeps (host : Host) (id : String) (ob : Outbox) (step : LifeStep) : Prop :=
  id ∈ (ob.lifeStep host step).events.map (·.id) ∧
    ∀ o, step = .op o → id ∉ (ob.step host o).added.drop ob.added.length

def KeepsAll (host : Host) (id : String) : Outbox → List LifeStep → Prop
  | _, [] => True
  | ob, step :: steps => Keeps host id ob step ∧ KeepsAll host id (ob.lifeStep host step) steps

/-- A step that does not write the audit of a record that has an ack: no receipt update and no
acknowledgement without evidence names one. -/
def SparesConfirmed (ob : Outbox) : LifeStep → Prop
  | .op (.recordReceiptStatus id receipt _) =>
    receipt.status.isSome → ∀ e ∈ ob.events, e.id = id → e.ack = none
  | .op (.acknowledge id receipt _) =>
    receipt.evidence = none → ∀ e ∈ ob.events, e.id = id → e.ack = none
  | _ => True

def SparesAll (host : Host) : Outbox → List LifeStep → Prop
  | _, [] => True
  | ob, step :: steps => SparesConfirmed ob step ∧ SparesAll host (ob.lifeStep host step) steps

/-- The records that the steps restore, beside those of restarts. -/
def restoredBy (steps : List LifeStep) : List PersistedEvent :=
  steps.flatMap fun
    | .op (.restoreSnapshot events) => events
    | _ => []

/-! ## Facts that hold in every life -/

theorem Coherent.lifeStep (h : Coherent ob) (step : LifeStep) :
    Coherent (ob.lifeStep host step) := by
  cases step with
  | op o => exact h.step o
  | restart maxEvents => exact coherent_create maxEvents _

theorem life_concat (steps : List LifeStep) (step : LifeStep) :
    life host ob (steps ++ [step]) = (life host ob steps).lifeStep host step := by
  rw [life, List.foldl_append]
  rfl

theorem Coherent.life (h : Coherent ob) (steps : List LifeStep) :
    Coherent (ob.life host steps) := by
  induction steps using List.reverseRecOn with
  | nil => exact h
  | append_singleton steps step ih =>
    rw [life_concat]
    exact ih.lifeStep step

/-- Ids are distinct, so that a retained record is found by its id. -/
theorem Coherent.eq_of_id (h : Coherent ob) {e e' : TerminalTaskOutboxEvent} (he : e ∈ ob.events)
    (he' : e' ∈ ob.events) (hid : e'.id = e.id) : e' = e :=
  List.inj_on_of_nodup_map h.nodup_ids he' he hid

/-- A record of a restarted outbox comes from one of its snapshot. -/
theorem mem_restart {maxEvents : Option Int} {e : TerminalTaskOutboxEvent} (hc : Coherent ob)
    (h : e ∈ (create maxEvents ob.snapshot).events) :
    ∃ e₀ ∈ ob.events, e.id = e₀.id ∧ e.ack = e₀.ack := by
  rcases mem_restoreSnapshot h with hold | ⟨-, event, hmem, rfl⟩
  · cases hold
  · obtain ⟨e₀, he₀, rfl⟩ := List.mem_map.mp hmem
    exact ⟨e₀, he₀, rfl, restoredAck_persisted (hc.ack e₀ he₀)⟩

/-! ## An ack stays -/

theorem Effect.ack_stays {o : OutboxOp} {ob' : Outbox} (h : Effect ob o ob') (hc : Coherent ob)
    {e e' : TerminalTaskOutboxEvent} {a : AckState} (he : e ∈ ob.events) (ha : e.ack = some a)
    (he' : e' ∈ ob'.events) (hid : e'.id = e.id)
    (hkept : e.id ∉ ob'.added.drop ob.added.length) : e'.ack = some a := by
  have hold : ∀ e'' ∈ ob.events, e''.id = e.id → e''.ack = some a := by
    intro e'' hmem hid'
    rw [hc.eq_of_id he hmem hid']
    exact ha
  cases h with
  | same => exact hold e' he' hid
  | enqueued ids _ hnew =>
    rcases List.mem_append.mp (mem_of_mem_rtake he') with hmem | hlast
    · exact hold e' hmem hid
    · rw [← List.mem_singleton.mp hlast, hid] at hnew
      exact absurd (hc.windowed.mem_seen_of_mem hc.bounded he) hnew
  | @rejected event _ _ hmem | @received event _ _ _ hmem =>
    rcases mem_update he' with rfl | ⟨hmem', -⟩
    · exact hold event hmem hid
    · exact hold e' hmem' hid
  | @confirmed event _ _ _ hmem _ hnone =>
    rcases mem_update he' with rfl | ⟨hmem', -⟩
    · rw [hold event hmem hid] at hnone
      cases hnone
    · exact hold e' hmem' hid
  | restoredSnapshot =>
    rcases mem_restoreSnapshot he' with hmem | ⟨hadded, -⟩
    · exact hold e' hmem hid
    · exact absurd (hid ▸ hadded) hkept

theorem lifeStep_ack_stays {step : LifeStep} (hc : Coherent ob) {e e' : TerminalTaskOutboxEvent}
    {a : AckState} (he : e ∈ ob.events) (ha : e.ack = some a) (hk : Keeps host e.id ob step)
    (he' : e' ∈ (ob.lifeStep host step).events) (hid : e'.id = e.id) : e'.ack = some a := by
  cases step with
  | op o => exact (step_effect o).ack_stays hc he ha he' hid (hk.2 o rfl)
  | restart maxEvents =>
    obtain ⟨e₀, he₀, hid₀, hack⟩ := mem_restart hc he'
    rw [hack, hc.eq_of_id he he₀ (hid₀.symm.trans hid)]
    exact ha

theorem life_ack_stays {steps : List LifeStep} (hc : Coherent ob) {e e' : TerminalTaskOutboxEvent}
    {a : AckState} (he : e ∈ ob.events) (ha : e.ack = some a) (hk : KeepsAll host e.id ob steps)
    (he' : e' ∈ (ob.life host steps).events) (hid : e'.id = e.id) : e'.ack = some a := by
  induction steps generalizing ob e with
  | nil =>
    rw [hc.eq_of_id he he' hid]
    exact ha
  | cons step steps ih =>
    obtain ⟨hkept, hrest⟩ := hk
    obtain ⟨e₁, he₁, hid₁⟩ := List.mem_map.mp hkept.1
    have ha₁ := lifeStep_ack_stays hc he ha hkept he₁ hid₁
    exact ih (hc.lifeStep step) he₁ ha₁ (hid₁ ▸ hrest) he' (hid.trans hid₁.symm)

/-! ## Where an ack comes from -/

/-- A persisted record carries the ack, or is an older one with the time of its delivery. -/
def Carries (p : PersistedEvent) (a : AckState) : Prop :=
  p.ack = some a ∨ (p.ack = none ∧ a.evidence = .operatorVisible ∧
    p.deliveredAt = some a.acknowledgedAt)

theorem carries_of_restored {p : PersistedEvent} {a : AckState} (h : (restored p).ack = some a) :
    Carries p a := by
  have hack : restoredAck p = some a := h
  rw [restoredAck, Option.or_eq_some_iff] at hack
  rcases hack with hack | ⟨hnone, hdelivered⟩
  · exact .inl hack
  · refine .inr ⟨hnone, ?_⟩
    cases ht : p.deliveredAt with
    | none =>
      rw [ht] at hdelivered
      cases hdelivered
    | some t =>
      rw [ht] at hdelivered
      dsimp only at hdelivered
      split at hdelivered
      · obtain rfl := Option.some.inj hdelivered
        exact ⟨rfl, rfl⟩
      · cases hdelivered

/-- The ack of the record `id` was set by an acknowledgement with evidence among the steps, or was
restored. -/
def AckOrigin (events : List PersistedEvent) (steps : List LifeStep) (id : String) (a : AckState) :
    Prop :=
  (∃ receipt now evidence, .op (.acknowledge id receipt now) ∈ steps ∧
    receipt.evidence = some evidence ∧ a = buildAckState evidence receipt now) ∨
  ∃ p ∈ events ++ restoredBy steps, p.id = id ∧ Carries p a

theorem AckOrigin.concat {events : List PersistedEvent} {steps : List LifeStep} {id : String}
    {a : AckState} (h : AckOrigin events steps id a) (step : LifeStep) :
    AckOrigin events (steps ++ [step]) id a := by
  rcases h with ⟨receipt, now, evidence, hmem, h⟩ | ⟨p, hp, h⟩
  · exact .inl ⟨receipt, now, evidence, List.mem_append_left _ hmem, h⟩
  · refine .inr ⟨p, ?_, h⟩
    rw [restoredBy, List.flatMap_append, ← List.append_assoc]
    exact List.mem_append_left _ hp

theorem life_ack_origin (host : Host) (maxEvents : Option Int) (events : List PersistedEvent)
    (steps : List LifeStep) :
    ∀ e ∈ ((create maxEvents events).life host steps).events, ∀ a, e.ack = some a →
      AckOrigin events steps e.id a := by
  induction steps using List.reverseRecOn with
  | nil =>
    intro e he a ha
    rcases mem_restoreSnapshot he with hold | ⟨-, p, hp, rfl⟩
    · cases hold
    · exact .inr ⟨p, List.mem_append_left _ hp, rfl, carries_of_restored ha⟩
  | append_singleton steps step ih =>
    have hc : Coherent ((create maxEvents events).life host steps) :=
      (coherent_create maxEvents events).life steps
    rw [life_concat]
    intro e he a ha
    have hold : ∀ e₀ ∈ ((create maxEvents events).life host steps).events, e₀.id = e.id →
        e₀.ack = some a → AckOrigin events (steps ++ [step]) e.id a := by
      intro e₀ he₀ hid ha₀
      rw [← hid]
      exact (ih e₀ he₀ a ha₀).concat step
    cases step with
    | restart m =>
      obtain ⟨e₀, he₀, hid, hack⟩ := mem_restart hc he
      exact hold e₀ he₀ hid.symm (hack ▸ ha)
    | op o =>
      have heffect : Effect _ o (((create maxEvents events).life host steps).step host o) :=
        step_effect o
      revert he
      show e ∈ (((create maxEvents events).life host steps).step host o).events → _
      generalize ((create maxEvents events).life host steps).step host o = ob' at heffect
      intro he
      cases heffect with
      | same => exact hold e he rfl ha
      | enqueued ids hnew =>
        rcases List.mem_append.mp (mem_of_mem_rtake he) with hmem | hlast
        · exact hold e hmem rfl ha
        · rw [List.mem_singleton.mp hlast, hnew.ack] at ha
          cases ha
      | @rejected event _ _ hmem | @received event _ _ _ hmem =>
        rcases mem_update he with rfl | ⟨hmem', -⟩
        · exact hold event hmem rfl ha
        · exact hold e hmem' rfl ha
      | @confirmed event receipt evidence now hmem hevidence =>
        rcases mem_update he with rfl | ⟨hmem', -⟩
        · refine .inl ⟨receipt, now, evidence, ?_, hevidence, (Option.some.inj ha).symm⟩
          exact List.mem_append_right _ List.mem_cons_self
        · exact hold e hmem' rfl ha
      | @restoredSnapshot restoredEvents =>
        rcases mem_restoreSnapshot he with hmem | ⟨-, p, hp, rfl⟩
        · exact hold e hmem rfl ha
        · refine .inr ⟨p, List.mem_append_right _ ?_, rfl, carries_of_restored ha⟩
          rw [restoredBy, List.flatMap_append]
          exact List.mem_append_right _ (by simpa using hp)

/-! ## The audit follows the ack -/

/-- The audit of a record says `confirmed` exactly when it has an ack. -/
def Consistent (e : TerminalTaskOutboxEvent) : Prop :=
  e.ackAudit.decision = .confirmed ↔ e.ack.isSome

theorem consistent_of_pending {e : TerminalTaskOutboxEvent} (hack : e.ack = none)
    (hdecision : e.ackAudit.decision ≠ .confirmed) : Consistent e := by
  rw [Consistent, hack]
  exact ⟨fun h => absurd h hdecision, nofun⟩

theorem ackAuditFromReceipt_decision (receipt : ReceiptState) :
    (ackAuditFromReceipt receipt).decision ≠ .confirmed := by
  rw [ackAuditFromReceipt]
  cases receipt.status <;> exact nofun

theorem consistent_restored (event : PersistedEvent) : Consistent (restored event) := by
  cases hack : restoredAck event with
  | none =>
    refine consistent_of_pending hack ?_
    rw [restored, hack]
    exact ackAuditFromReceipt_decision _
  | some ack =>
    rw [Consistent, restored, hack]
    exact ⟨fun _ => rfl, fun _ => rfl⟩

theorem Effect.consistent {o : OutboxOp} {ob' : Outbox} (h : Effect ob o ob')
    (hspares : SparesConfirmed ob (.op o)) (hc : ∀ e ∈ ob.events, Consistent e) :
    ∀ e ∈ ob'.events, Consistent e := by
  intro e he
  cases h with
  | same => exact hc e he
  | enqueued ids hnew =>
    rcases List.mem_append.mp (mem_of_mem_rtake he) with hmem | hlast
    · exact hc e hmem
    · rw [List.mem_singleton.mp hlast]
      refine consistent_of_pending hnew.ack ?_
      rw [hnew.audit]
      exact nofun
  | @rejected event receipt now hmem hevidence =>
    rcases mem_update he with rfl | ⟨hmem', -⟩
    · have hnone : event.ack = none := hspares hevidence event hmem rfl
      exact consistent_of_pending hnone nofun
    · exact hc e hmem'
  | confirmed =>
    rcases mem_update he with rfl | ⟨hmem', -⟩
    · exact ⟨fun _ => rfl, fun _ => rfl⟩
    · exact hc e hmem'
  | @received event input now receipt hmem hstatus =>
    rcases mem_update he with rfl | ⟨hmem', -⟩
    · have hnone : event.ack = none := hspares hstatus event hmem rfl
      exact consistent_of_pending hnone (ackAuditFromReceipt_decision receipt)
    · exact hc e hmem'
  | restoredSnapshot =>
    rcases mem_restoreSnapshot he with hmem | ⟨-, event, -, rfl⟩
    · exact hc e hmem
    · exact consistent_restored event

theorem consistent_create (maxEvents : Option Int) (events : List PersistedEvent) :
    ∀ e ∈ (create maxEvents events).events, Consistent e := by
  intro e he
  rcases mem_restoreSnapshot he with hold | ⟨-, event, -, rfl⟩
  · cases hold
  · exact consistent_restored event

theorem life_consistent {steps : List LifeStep} (h : SparesAll host ob steps)
    (hc : ∀ e ∈ ob.events, Consistent e) : ∀ e ∈ (ob.life host steps).events, Consistent e := by
  induction steps generalizing ob with
  | nil => exact hc
  | cons step steps ih =>
    refine ih h.2 ?_
    cases step with
    | op o => exact (step_effect o).consistent h.1 hc
    | restart m => exact consistent_create m _

/-- In every life of an outbox, an ack stays on its record and comes from an acknowledgement with
receipt evidence or from a restored record; and when no step writes the audit of a record that has
an ack, the audits say `confirmed` exactly for the records that have one. -/
theorem acks_consistent (host : Host) (maxEvents : Option Int) (events : List PersistedEvent)
    (steps : List LifeStep) :
    let ob := (create maxEvents events).life host steps
    (∀ (steps' : List LifeStep) (e e' : TerminalTaskOutboxEvent) (a : AckState), e ∈ ob.events →
      e.ack = some a → KeepsAll host e.id ob steps' → e' ∈ (ob.life host steps').events →
      e'.id = e.id → e'.ack = some a) ∧
    (∀ e ∈ ob.events, ∀ a, e.ack = some a → AckOrigin events steps e.id a) ∧
    (SparesAll host (create maxEvents events) steps →
      ∀ e ∈ ob.events, e.ackAudit.decision = .confirmed ↔ e.ack.isSome) := by
  intro ob
  refine ⟨?_, life_ack_origin host maxEvents events steps, fun h => ?_⟩
  · intro steps' e e' a he ha hk he' hid
    exact life_ack_stays ((coherent_create maxEvents events).life steps) he ha hk he' hid
  · exact life_consistent h (consistent_create maxEvents events)

/-- A provider reports a failure after the operator confirmed: the audit of the confirmed record
says `pending` again. -/
theorem late_receipt_reopens :
    let ob := (create none []).life {} [.op (Session.childReport "0"),
      .op (.acknowledge (Session.childReportId "0") { evidence := some .operatorVisible } 0),
      .op (.recordReceiptStatus (Session.childReportId "0") { status := some .failed } 1)]
    ∃ e ∈ ob.events, e.ack.isSome ∧ e.ackAudit.decision = .pending := by
  decide +kernel

end Outbox

end A2ABroker
