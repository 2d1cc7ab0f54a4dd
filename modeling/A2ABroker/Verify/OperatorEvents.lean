import A2ABroker.Core.Broker
import A2ABroker.Server.OperatorEvents

/-! # What an operator knows of the alerts

A client has the alerts of its snapshot open and follows the events that it is sent. The stream compares
a publish with the alerts of the publish before, a client with those of its snapshot. So a client that is
sent its first publish follows if and only if its snapshot listed the alerts that the stream had in mind
(`Synced`), and from then on it has the tracked alerts open (`Inv`). -/

namespace A2ABroker.OperatorEvents

/-! ## A client's alerts -/

/-- The open alerts after an event. -/
def applyEvent (ids : List String) : OperatorEvent → List String
  | .summaryUpdate _ => ids
  | .alertOpened alert => alert.id :: ids
  | .alertResolved alert => ids.filter (· ≠ alert.id)

/-- An opened alert is not open, and a resolved one is. -/
def OperatorEvent.TruthfulAt (ids : List String) : OperatorEvent → Prop
  | .summaryUpdate _ => True
  | .alertOpened alert => alert.id ∉ ids
  | .alertResolved alert => alert.id ∈ ids

def Truthful : List String → List OperatorEvent → Prop
  | _, [] => True
  | ids, event :: events => event.TruthfulAt ids ∧ Truthful (applyEvent ids event) events

def alertIds (alerts : AlertScanResult) : List String := alerts.alerts.map Alert.id

def OperatorClient.events (client : OperatorClient) : List OperatorEvent :=
  client.delivered.map (·.event)

/-- The alerts that the client has open. -/
def OperatorClient.openIds (client : OperatorClient) : List String :=
  client.events.foldl applyEvent (alertIds client.snapshot)

def OperatorClient.Truthful (client : OperatorClient) : Prop :=
  OperatorEvents.Truthful (alertIds client.snapshot) client.events

instance : DecidablePred (OperatorEvent.TruthfulAt ids) := fun
  | .summaryUpdate _ => inferInstanceAs (Decidable True)
  | .alertOpened alert => inferInstanceAs (Decidable (alert.id ∉ ids))
  | .alertResolved alert => inferInstanceAs (Decidable (alert.id ∈ ids))

instance Truthful.decide : ∀ ids events, Decidable (Truthful ids events)
  | _, [] => inferInstanceAs (Decidable True)
  | ids, event :: events =>
    have := Truthful.decide (applyEvent ids event) events
    inferInstanceAs (Decidable (event.TruthfulAt ids ∧ Truthful (applyEvent ids event) events))

instance (client : OperatorClient) : Decidable client.Truthful := Truthful.decide _ _

theorem truthful_append {ids : List String} {events more : List OperatorEvent} :
    Truthful ids (events ++ more) ↔
      Truthful ids events ∧ Truthful (events.foldl applyEvent ids) more := by
  induction events generalizing ids with
  | nil => exact (and_iff_right trivial).symm
  | cons event events ih => rw [List.cons_append, Truthful, Truthful, ih, and_assoc, List.foldl_cons]

theorem mem_foldl_opened {ids : List String} {alerts : List Alert} {id : String} :
    id ∈ (alerts.map .alertOpened).foldl applyEvent ids ↔ id ∈ ids ∨ id ∈ alerts.map Alert.id := by
  induction alerts generalizing ids with
  | nil => simp
  | cons alert alerts ih =>
    rw [List.map_cons, List.foldl_cons, ih, applyEvent, List.map_cons, List.mem_cons, List.mem_cons]
    tauto

theorem mem_foldl_resolved {ids : List String} {alerts : List Alert} {id : String} :
    id ∈ (alerts.map .alertResolved).foldl applyEvent ids ↔ id ∈ ids ∧ id ∉ alerts.map Alert.id := by
  induction alerts generalizing ids with
  | nil => simp
  | cons alert alerts ih =>
    rw [List.map_cons, List.foldl_cons, ih, applyEvent, List.map_cons, List.mem_cons, List.mem_filter]
    simp only [decide_eq_true_eq]
    tauto

theorem truthful_opened {ids : List String} {alerts : List Alert}
    (hnodup : (alerts.map Alert.id).Nodup) :
    Truthful ids (alerts.map .alertOpened) ↔ ∀ id ∈ alerts.map Alert.id, id ∉ ids := by
  induction alerts generalizing ids with
  | nil => simp [Truthful]
  | cons alert alerts ih =>
    obtain ⟨halert, hrest⟩ := List.nodup_cons.mp hnodup
    rw [List.map_cons, List.map_cons, Truthful, ih hrest, List.forall_mem_cons]
    refine and_congr_right fun _ => forall₂_congr fun id hid => not_congr ?_
    have hne : id ≠ alert.id := fun heq => halert (heq ▸ hid)
    simp [applyEvent, hne]

theorem truthful_resolved {ids : List String} {alerts : List Alert}
    (hnodup : (alerts.map Alert.id).Nodup) :
    Truthful ids (alerts.map .alertResolved) ↔ ∀ id ∈ alerts.map Alert.id, id ∈ ids := by
  induction alerts generalizing ids with
  | nil => simp [Truthful]
  | cons alert alerts ih =>
    obtain ⟨halert, hrest⟩ := List.nodup_cons.mp hnodup
    rw [List.map_cons, List.map_cons, Truthful, ih hrest, List.forall_mem_cons]
    refine and_congr_right fun _ => forall₂_congr fun id hid => ?_
    have hne : id ≠ alert.id := fun heq => halert (heq ▸ hid)
    simp [applyEvent, hne]

/-! ## A publish -/

section Publish

variable {env : Env} {stream : OperatorStream} {alerts : AlertScanResult}

/-- The alert is among those of the publish before. -/
def OperatorStream.Tracks (stream : OperatorStream) (id : String) : Prop :=
  (stream.operatorAlertsById.get? id).isSome

theorem tracks_iff {id : String} :
    stream.Tracks id ↔ id ∈ stream.operatorAlertsById.rows.map Alert.id := by
  unfold OperatorStream.Tracks
  rw [Option.isSome_iff_ne_none, ne_eq, Table.get?_eq_none]
  simp [key]

theorem alertsById_isSome (hnodup : (alertIds alerts).Nodup) {id : String} :
    ((alertsById alerts).get? id).isSome ↔ id ∈ alertIds alerts := by
  have hrows : (alertsById alerts).rows = alerts.alerts :=
    Table.rows_setAll_of_none hnodup fun _ _ => rfl
  rw [Option.isSome_iff_ne_none, ne_eq, Table.get?_eq_none, hrows]
  simp [key, alertIds]

theorem mem_opened {id : String} : id ∈ (openedAlerts env stream alerts).map Alert.id ↔
    id ∈ alertIds alerts ∧ ¬stream.Tracks id := by
  simp only [openedAlerts, byId, alertIds, OperatorStream.Tracks, List.mem_map, mem_sortedCopy,
    List.mem_filter, Bool.not_eq_true']
  constructor
  · rintro ⟨alert, ⟨hmem, hnew⟩, rfl⟩
    exact ⟨⟨alert, hmem, rfl⟩, by simp [hnew]⟩
  · rintro ⟨⟨alert, hmem, rfl⟩, hnew⟩
    exact ⟨alert, ⟨hmem, by simpa using hnew⟩, rfl⟩

theorem mem_resolved (hnodup : (alertIds alerts).Nodup) {id : String} :
    id ∈ (resolvedAlerts env stream alerts).map Alert.id ↔
      stream.Tracks id ∧ id ∉ alertIds alerts := by
  simp only [resolvedAlerts, byId, tracks_iff, List.mem_map, mem_sortedCopy, List.mem_filter,
    Bool.not_eq_true']
  constructor
  · rintro ⟨alert, ⟨hmem, hgone⟩, rfl⟩
    refine ⟨⟨alert, hmem, rfl⟩, fun hin => ?_⟩
    rw [(alertsById_isSome hnodup).mpr hin] at hgone
    cases hgone
  · rintro ⟨⟨alert, hmem, rfl⟩, hgone⟩
    refine ⟨alert, ⟨hmem, ?_⟩, rfl⟩
    rw [Bool.eq_false_iff]
    exact fun hsome => hgone ((alertsById_isSome hnodup).mp hsome)

theorem opened_nodup (hnodup : (alertIds alerts).Nodup) :
    ((openedAlerts env stream alerts).map Alert.id).Nodup :=
  nodup_map_sortedCopy (hnodup.sublist (List.filter_sublist.map Alert.id))

theorem resolved_nodup : ((resolvedAlerts env stream alerts).map Alert.id).Nodup :=
  nodup_map_sortedCopy (stream.operatorAlertsById.nodup.sublist (List.filter_sublist.map Alert.id))

/-- What a publish sends to every listener. -/
def publishedEvents (env : Env) (stream : OperatorStream) (alerts : AlertScanResult) :
    List OperatorEvent :=
  .summaryUpdate alerts :: ((openedAlerts env stream alerts).map .alertOpened ++
    (resolvedAlerts env stream alerts).map .alertResolved)

def OperatorClient.sent (events : List BufferedOperatorEvent) (client : OperatorClient) :
    OperatorClient :=
  { client with delivered := client.delivered ++ events }

theorem OperatorClient.sent_nil (client : OperatorClient) : client.sent [] = client := by
  simp [OperatorClient.sent]

theorem foldl_emit_listeners (events : List OperatorEvent) (stream : OperatorStream) :
    ∃ sent : List BufferedOperatorEvent, sent.map (·.event) = events ∧
      (events.foldl emitOperatorEvent stream).operatorListeners =
        stream.operatorListeners.map (OperatorClient.sent sent) := by
  induction events generalizing stream with
  | nil => exact ⟨[], rfl, (List.map_congr_left fun c _ => c.sent_nil).trans (List.map_id _) |>.symm⟩
  | cons event events ih =>
    obtain ⟨sent, hevents, hlisteners⟩ := ih (emitOperatorEvent stream event)
    refine ⟨{ seq := stream.operatorEventSeq + 1, event } :: sent, congrArg (event :: ·) hevents, ?_⟩
    rw [List.foldl_cons, hlisteners]
    simp [emitOperatorEvent, OperatorClient.sent, Function.comp_def]

theorem publish_listeners (stream : OperatorStream) :
    ∃ sent : List BufferedOperatorEvent, sent.map (·.event) = publishedEvents env stream alerts ∧
      (publishOperatorEvents env stream alerts).operatorListeners =
        stream.operatorListeners.map (OperatorClient.sent sent) := by
  obtain ⟨sent, hsent, hlisteners⟩ := foldl_emit_listeners (publishedEvents env stream alerts) stream
  refine ⟨sent, hsent, ?_⟩
  unfold publishOperatorEvents
  split
  · rename_i hidle
    rw [List.isEmpty_iff.mp hidle, List.map_nil]
  · exact hlisteners

theorem publish_tracks {client : OperatorClient} (h : client ∈ stream.operatorListeners)
    (hnodup : (alertIds alerts).Nodup) {id : String} :
    (publishOperatorEvents env stream alerts).Tracks id ↔ id ∈ alertIds alerts := by
  have hlive : ¬stream.operatorListeners.isEmpty := fun hidle => by
    rw [List.isEmpty_iff.mp hidle] at h
    cases h
  rw [publishOperatorEvents, if_neg hlive]
  exact alertsById_isSome hnodup

theorem mem_foldl_published (hnodup : (alertIds alerts).Nodup) {ids : List String} {id : String} :
    id ∈ (publishedEvents env stream alerts).foldl applyEvent ids ↔
      (id ∈ ids ∨ id ∈ alertIds alerts ∧ ¬stream.Tracks id) ∧
        ¬(stream.Tracks id ∧ id ∉ alertIds alerts) := by
  rw [publishedEvents, List.foldl_cons, List.foldl_append, mem_foldl_resolved, mem_foldl_opened,
    mem_opened, mem_resolved hnodup, applyEvent]

theorem truthful_published (hnodup : (alertIds alerts).Nodup) {ids : List String} :
    Truthful ids (publishedEvents env stream alerts) ↔
      (∀ id, id ∈ alertIds alerts ∧ ¬stream.Tracks id → id ∉ ids) ∧
        ∀ id, stream.Tracks id ∧ id ∉ alertIds alerts → id ∈ ids := by
  have hsummary : (OperatorEvent.summaryUpdate alerts).TruthfulAt ids := trivial
  rw [publishedEvents, Truthful, and_iff_right hsummary, applyEvent, truthful_append,
    truthful_opened (opened_nodup hnodup), truthful_resolved resolved_nodup]
  simp only [mem_opened, mem_resolved hnodup, mem_foldl_opened]
  refine and_congr_right fun _ => forall₂_congr fun id hresolved => ?_
  exact or_iff_left fun hopened => hresolved.2 hopened.1

/-- A client that is told the truth by a publish, and has its alerts open afterwards, had the tracked
alerts open. -/
theorem publish_faithful_iff (hnodup : (alertIds alerts).Nodup) {ids : List String} :
    (Truthful ids (publishedEvents env stream alerts) ∧
      ∀ id, id ∈ (publishedEvents env stream alerts).foldl applyEvent ids ↔ id ∈ alertIds alerts) ↔
    ∀ id, id ∈ ids ↔ stream.Tracks id := by
  simp only [truthful_published hnodup, mem_foldl_published hnodup]
  constructor
  · rintro ⟨⟨hopened, hresolved⟩, hagrees⟩ id
    have := hopened id
    have := hresolved id
    have := hagrees id
    tauto
  · intro hsynced
    refine ⟨⟨fun id => ?_, fun id => ?_⟩, fun id => ?_⟩ <;>
      · have := hsynced id
        tauto

end Publish

/-! ## Runs -/

theorem OperatorClient.openIds_sent (client : OperatorClient) (sent : List BufferedOperatorEvent) :
    (client.sent sent).openIds = (sent.map (·.event)).foldl applyEvent client.openIds := by
  simp only [openIds, events, OperatorClient.sent, List.map_append, List.foldl_append]

theorem OperatorClient.truthful_sent (client : OperatorClient) (sent : List BufferedOperatorEvent) :
    (client.sent sent).Truthful ↔
      client.Truthful ∧ OperatorEvents.Truthful client.openIds (sent.map (·.event)) := by
  simp only [OperatorClient.Truthful, openIds, events, OperatorClient.sent, List.map_append,
    truthful_append]

/-- A client without an event has the alerts of its snapshot open. -/
theorem OperatorClient.openIds_snapshot {client : OperatorClient} (h : client.delivered = []) :
    client.openIds = alertIds client.snapshot := by
  simp only [openIds, events, h, List.map_nil, List.foldl_nil]

/-- Each client was told the truth; after its first publish it has the tracked alerts open. -/
def Inv (stream : OperatorStream) : Prop := ∀ client ∈ stream.operatorListeners,
  client.Truthful ∧ (client.delivered = [] ∨ ∀ id, id ∈ client.openIds ↔ stream.Tracks id)

/-- The snapshot of each client that waits for its first publish lists the tracked alerts. -/
def Synced (stream : OperatorStream) : Prop := ∀ client ∈ stream.operatorListeners,
  client.delivered = [] → ∀ id, id ∈ alertIds client.snapshot ↔ stream.Tracks id

theorem Inv.tracks {stream : OperatorStream} (h : Inv stream) (hsynced : Synced stream)
    {client : OperatorClient} (hclient : client ∈ stream.operatorListeners) (id : String) :
    id ∈ client.openIds ↔ stream.Tracks id := by
  obtain hnew | htracks := (h client hclient).2
  · rw [OperatorClient.openIds_snapshot hnew]
    exact hsynced client hclient hnew id
  · exact htracks id

section Runs

variable (env : Env) (toNumber : String → Number) (workerOfflineAfterMs : Int)

/-- After every publish, each client has the alerts of that publish open, and it was never told that an
alert it has open has opened, or that one it has not has been resolved. -/
structure Faithful (start : OperatorSystem) (steps : List OperatorStep) : Prop where
  truthful : ∀ before after, steps = before ++ after →
    ∀ client ∈ (operatorRun env toNumber workerOfflineAfterMs start before).stream.operatorListeners,
      client.Truthful
  agrees : ∀ before after, steps = before ++ .publish :: after →
    ∀ client ∈ (operatorRun env toNumber workerOfflineAfterMs start
      (before ++ [.publish])).stream.operatorListeners,
      ∀ id, id ∈ client.openIds ↔ id ∈ alertIds
        ((operatorRun env toNumber workerOfflineAfterMs start before).alerts env workerOfflineAfterMs)

variable {env toNumber workerOfflineAfterMs} {system : OperatorSystem}

theorem alerts_nodup : (alertIds (system.alerts env workerOfflineAfterMs)).Nodup :=
  buildAlertScan_nodup env system.records workerOfflineAfterMs system.nowMs

/-- A publish reaches every client. -/
theorem publish_reaches {client : OperatorClient} (h : client ∈ system.stream.operatorListeners) :
    ∃ sent : List BufferedOperatorEvent, sent.map (·.event) =
        publishedEvents env system.stream (system.alerts env workerOfflineAfterMs) ∧
      client.sent sent ∈
        (operatorStep env toNumber workerOfflineAfterMs system .publish).stream.operatorListeners := by
  obtain ⟨sent, hsent, hlisteners⟩ := publish_listeners system.stream
  exact ⟨sent, hsent, hlisteners ▸ List.mem_map_of_mem h⟩

/-- The clients after a publish, when each had the tracked alerts open before it. -/
theorem publish_faithful (hinv : Inv system.stream) (hsynced : Synced system.stream)
    {client : OperatorClient} (h : client ∈
      (operatorStep env toNumber workerOfflineAfterMs system .publish).stream.operatorListeners) :
    client.Truthful ∧
      (∀ id, id ∈ client.openIds ↔ id ∈ alertIds (system.alerts env workerOfflineAfterMs)) ∧
      ∀ id, id ∈ client.openIds ↔
        (operatorStep env toNumber workerOfflineAfterMs system .publish).stream.Tracks id := by
  obtain ⟨sent, hsent, hlisteners⟩ := publish_listeners system.stream
  obtain ⟨before, hbefore, rfl⟩ := List.mem_map.mp (hlisteners ▸ h)
  obtain ⟨htruthful, hagrees⟩ :=
    (publish_faithful_iff alerts_nodup).mpr (hinv.tracks hsynced hbefore)
  rw [before.truthful_sent, before.openIds_sent, hsent]
  refine ⟨⟨(hinv before hbefore).1, htruthful⟩, hagrees, fun id => ?_⟩
  exact (hagrees id).trans (publish_tracks hbefore alerts_nodup).symm

theorem Inv.step (h : Inv system.stream) (step : OperatorStep)
    (hsynced : step = .publish → Synced system.stream) :
    Inv (operatorStep env toNumber workerOfflineAfterMs system step).stream := by
  intro client hclient
  cases step with
  | change records nowMs => exact h client hclient
  | publish =>
    obtain ⟨htruthful, -, htracks⟩ := publish_faithful h (hsynced rfl) hclient
    exact ⟨htruthful, .inr htracks⟩
  | connect lastEventId =>
    obtain hold | hnew := List.mem_append.mp hclient
    · exact h client hold
    · rw [List.mem_singleton.mp hnew]
      exact ⟨trivial, .inl rfl⟩
  | disconnect id => exact h client (List.mem_filter.mp hclient).1

theorem operatorRun_concat (start : OperatorSystem) (steps : List OperatorStep) (step : OperatorStep) :
    operatorRun env toNumber workerOfflineAfterMs start (steps ++ [step]) =
      operatorStep env toNumber workerOfflineAfterMs
        (operatorRun env toNumber workerOfflineAfterMs start steps) step :=
  List.foldl_concat ..

theorem Inv.run {start : OperatorSystem} (hstart : Inv start.stream) (steps : List OperatorStep)
    (hsynced : ∀ before after, steps = before ++ .publish :: after →
      Synced (operatorRun env toNumber workerOfflineAfterMs start before).stream) :
    Inv (operatorRun env toNumber workerOfflineAfterMs start steps).stream := by
  induction steps using List.reverseRecOn with
  | nil => exact hstart
  | append_singleton steps step ih =>
    rw [operatorRun_concat]
    refine (ih fun before after hsplit => ?_).step step ?_
    · exact hsynced before (after ++ [step]) (by rw [hsplit, List.append_assoc, List.cons_append])
    · rintro rfl
      exact hsynced steps [] rfl

/-- The stream is faithful if and only if, before every publish, the snapshot of each client that waits
for its first one lists the tracked alerts. -/
theorem faithful_iff (env : Env) (toNumber : String → Number) (workerOfflineAfterMs : Int)
    (records : Records) (nowMs : Int) (steps : List OperatorStep) :
    Faithful env toNumber workerOfflineAfterMs (.start env workerOfflineAfterMs records nowMs) steps ↔
      ∀ before after, steps = before ++ .publish :: after →
        Synced (operatorRun env toNumber workerOfflineAfterMs
          (.start env workerOfflineAfterMs records nowMs) before).stream := by
  constructor
  · rintro ⟨htruthful, hagrees⟩ before after hsplit client hclient hnew
    obtain ⟨sent, hsent, hsentTo⟩ := publish_reaches hclient
    rw [← operatorRun_concat] at hsentTo
    have hclientTruthful := htruthful (before ++ [.publish]) after
      (by rw [hsplit, List.append_assoc, List.singleton_append]) _ hsentTo
    have hclientAgrees := hagrees before after hsplit _ hsentTo
    rw [client.truthful_sent, hsent] at hclientTruthful
    rw [client.openIds_sent, hsent] at hclientAgrees
    rw [← OperatorClient.openIds_snapshot hnew]
    exact (publish_faithful_iff alerts_nodup).mp ⟨hclientTruthful.2, hclientAgrees⟩
  · intro hsynced
    have hstart : Inv (OperatorSystem.start env workerOfflineAfterMs records nowMs).stream :=
      fun _ hclient => absurd hclient List.not_mem_nil
    have hinv : ∀ before after, steps = before ++ after → Inv (operatorRun env toNumber
        workerOfflineAfterMs (.start env workerOfflineAfterMs records nowMs) before).stream :=
      fun before after hsplit => Inv.run hstart before fun first rest hbefore =>
        hsynced first (rest ++ after) (by rw [hsplit, hbefore, List.append_assoc, List.cons_append])
    refine ⟨fun before after hsplit client hclient => (hinv before after hsplit client hclient).1, ?_⟩
    intro before after hsplit client hclient
    rw [operatorRun_concat] at hclient
    exact (publish_faithful (hinv before _ hsplit) (hsynced before after hsplit) hclient).2.1

end Runs

/-- A worker that was last seen at the time `0`. -/
def silentWorker : WorkerRecord :=
  { nodeId := "worker", role := .analyst, displayName := none, brokerUrl := none, capabilities := {}
    workerMode := none, metadata := none, createdAt := .iso 0, updatedAt := .iso 0
    lastSeenAt := .iso 0 }

/-- The worker misses its heartbeat while nobody listens, a client connects, and the broker publishes:
the alert in the client's snapshot opens once more. -/
theorem opened_twice :
    ¬Faithful (Env.numbered {}) (fun _ => .nan) 90000
      (.start (Env.numbered {}) 90000 { workers := Table.empty.set silentWorker } 0)
      [.change { workers := Table.empty.set silentWorker } 100000, .connect none, .publish] := by
  intro h
  have htruthful := h.truthful _ [] (List.append_nil _).symm
  revert htruthful
  decide +kernel

end A2ABroker.OperatorEvents
