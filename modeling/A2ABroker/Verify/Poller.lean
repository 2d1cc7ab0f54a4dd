import A2ABroker.GitHub.Poller
import A2ABroker.Verify.Ingestion

/-! # The poll cycle

A cycle hands the first `maxEventsPerPoll` of the fetched events to the ingestion service, each with the
delivery context of its batch. The service takes a delivery once, so from every batch it sees one event
and calls the others duplicates. -/

namespace A2ABroker

open Prog

variable (env : Env) (options : GitHubIngestionOptions)

/-! ## What is handed over -/

/-- A call of `ingest`. -/
abbrev Delivery := GitHubWebhookEvent × GitHubDeliveryContext

def PollerFetchResult.deliveries (batch : PollerFetchResult) : List Delivery :=
  batch.events.map (·, batch.context)

/-- The first `n` of the fetched events, with their contexts. -/
def firstDeliveries (n : Nat) (batches : List PollerFetchResult) : List Delivery :=
  (batches.flatMap (·.deliveries)).take n

/-- The calls of a cycle that has handed over `fetched` events. -/
def handed (maxEventsPerPoll : Int) : List PollerFetchResult → Nat → List Delivery
  | [], _ => []
  | batch :: batches, fetched =>
    let events := sliceTo batch.events (maxEventsPerPoll - fetched)
    if events.isEmpty then handed maxEventsPerPoll batches fetched
    else events.map (·, batch.context) ++
      if maxEventsPerPoll ≤ (fetched + events.length : Nat) then []
      else handed maxEventsPerPoll batches (fetched + events.length)

def ingestAll : List Delivery → IngestionM (List IngestionResult)
  | [] => pure []
  | (event, ctx) :: deliveries => do
    let result ← ingest env options event ctx
    let results ← ingestAll deliveries
    pure (result :: results)

/-- How many results are neither duplicates nor stale. -/
def countIngested (results : List IngestionResult) : Nat :=
  results.countP fun result => !result.deduped && !result.replaySkipped

/-- The world in which the delivery after `before` is ingested. -/
def worldAfter (before : List Delivery) (w : IngestionWorld) : IngestionWorld :=
  finalState (ingestAll env options before w)

/-! ## The property -/

/-- An event has the outcome that it would have under some delivery id that was never used. -/
def DeliveredAfresh (delivery : Delivery) (w : IngestionWorld) : Prop :=
  ∃ deliveryId, deliveryId ∉ w.service.seenDeliveries ∧
    ingest env options delivery.1 ⟨deliveryId, delivery.2.receivedAt⟩ w =
      ingest env options delivery.1 delivery.2 w

/-- A cycle runs `ingest` over the calls of `handed`, among them one for each of the first
`maxEventsPerPoll` events, and each of these has the outcome of a fresh delivery. -/
structure PollsAll (maxEventsPerPoll : Int) (batches : List PollerFetchResult)
    (w : IngestionWorld) : Prop where
  run : poll env options maxEventsPerPoll batches w = (do
    let results ← ingestAll env options (handed maxEventsPerPoll batches 0)
    pure ⟨(handed maxEventsPerPoll batches 0).length, countIngested results⟩ :
      IngestionM PollTotals) w
  first : firstDeliveries maxEventsPerPoll.toNat batches <+: handed maxEventsPerPoll batches 0
  afresh : ∀ before delivery after,
    firstDeliveries maxEventsPerPoll.toNat batches = before ++ delivery :: after →
      DeliveredAfresh env options delivery (worldAfter env options before w)

/-- How many of the first `n` events each batch has. -/
def shares : Nat → List PollerFetchResult → List Nat
  | _, [] => []
  | n, batch :: batches => min n batch.events.length :: shares (n - batch.events.length) batches

variable {env options} {w : IngestionWorld}

/-! ## The loops -/

theorem ingestAll_append (before after : List Delivery) :
    ingestAll env options (before ++ after) = (do
      let results ← ingestAll env options before
      let results' ← ingestAll env options after
      pure (results ++ results')) := by
  induction before with
  | nil =>
    show _ = (do
      let results ← pure []
      let results' ← ingestAll env options after
      pure (results ++ results') : IngestionM (List IngestionResult))
    simp
  | cons delivery before ih =>
    obtain ⟨event, ctx⟩ := delivery
    simp only [List.cons_append, ingestAll, ih, bind_assoc, pure_bind]

theorem ingestEvents_eq (context : GitHubDeliveryContext) (events : List GitHubWebhookEvent) :
    ingestEvents env options context events = (do
      let results ← ingestAll env options (events.map (·, context))
      pure (countIngested results)) := by
  induction events with
  | nil => simp [ingestEvents, ingestAll, countIngested]
  | cons event events ih =>
    simp only [List.map_cons, ingestEvents, ingestAll, ih, bind_assoc, pure_bind]
    congr
    funext result
    congr
    funext results
    simp only [countIngested, List.countP_cons]

theorem countIngested_append (results results' : List IngestionResult) :
    countIngested (results ++ results') = countIngested results + countIngested results' :=
  List.countP_append

/-- The loop over the batches is one run of `ingest` over the calls of `handed`. -/
theorem pollBatches_eq (maxEventsPerPoll : Int) (batches : List PollerFetchResult) :
    ∀ totals : PollTotals, pollBatches env options maxEventsPerPoll batches totals = (do
      let results ← ingestAll env options (handed maxEventsPerPoll batches totals.fetched)
      pure ⟨totals.fetched + (handed maxEventsPerPoll batches totals.fetched).length,
        totals.ingested + countIngested results⟩) := by
  induction batches with
  | nil =>
    intro totals
    simp [pollBatches, handed, ingestAll, countIngested]
  | cons batch batches ih =>
    intro totals
    unfold pollBatches handed
    dsimp only
    generalize hevents : sliceTo batch.events (maxEventsPerPoll - totals.fetched) = events
    cases hempty : events.isEmpty with
    | true =>
      rw [if_pos rfl, if_pos rfl]
      exact ih totals
    | false =>
      rw [if_neg Bool.false_ne_true, if_neg Bool.false_ne_true, ingestEvents_eq]
      by_cases hdone : maxEventsPerPoll ≤ (totals.fetched + events.length : Nat)
      · simp only [hdone, ↓reduceIte, List.append_nil, bind_assoc, pure_bind, List.length_map]
      · simp only [hdone, ↓reduceIte, ih, ingestAll_append, bind_assoc, pure_bind,
          List.length_append, List.length_map, countIngested_append, Nat.add_assoc]

/-! ## The cap -/

theorem firstDeliveries_cons (n : Nat) (batch : PollerFetchResult)
    (batches : List PollerFetchResult) : firstDeliveries n (batch :: batches) =
      batch.deliveries.take n ++ firstDeliveries (n - batch.events.length) batches := by
  simp [firstDeliveries, List.take_append, PollerFetchResult.deliveries]

theorem firstDeliveries_zero (batches : List PollerFetchResult) : firstDeliveries 0 batches = [] := by
  simp [firstDeliveries]

/-- Below the cap the calls are the first events, as many as the cap leaves. -/
theorem handed_eq (n : Nat) (batches : List PollerFetchResult) : ∀ fetched, fetched ≤ n →
    handed n batches fetched = firstDeliveries (n - fetched) batches := by
  induction batches with
  | nil =>
    intro fetched _
    simp [handed, firstDeliveries]
  | cons batch batches ih =>
    intro fetched hle
    have hslice : sliceTo batch.events ((n : Int) - fetched) = batch.events.take (n - fetched) := by
      unfold sliceTo
      rw [if_pos (by omega)]
      congr 1
      omega
    unfold handed
    dsimp only
    rw [hslice, firstDeliveries_cons]
    generalize hk : n - fetched = k
    have hmap : (batch.events.take k).map (·, batch.context) = batch.deliveries.take k :=
      List.map_take
    split
    · rename_i hempty
      have hnil : batch.events.take k = [] := List.isEmpty_iff.mp hempty
      rw [ih fetched hle, hk, ← hmap, hnil]
      rcases List.take_eq_nil_iff.mp hnil with rfl | hnone
      · simp [firstDeliveries_zero]
      · simp [hnone]
    · rw [hmap]
      congr 1
      have hlength : (batch.events.take k).length = min k batch.events.length := List.length_take
      split
      · rename_i hfull
        have hzero : k - batch.events.length = 0 := by omega
        rw [hzero, firstDeliveries_zero]
      · rename_i hmore
        rw [ih _ (by omega)]
        congr 1
        omega

theorem firstDeliveries_handed (maxEventsPerPoll : Int) (batches : List PollerFetchResult) :
    firstDeliveries maxEventsPerPoll.toNat batches <+: handed maxEventsPerPoll batches 0 := by
  by_cases h : 0 ≤ maxEventsPerPoll
  · have hcast : (maxEventsPerPoll.toNat : Int) = maxEventsPerPoll := Int.toNat_of_nonneg h
    have heq := handed_eq maxEventsPerPoll.toNat batches 0 (Nat.zero_le _)
    rw [hcast] at heq
    rw [heq]
    exact List.prefix_refl _
  · rw [Int.toNat_of_nonpos (by omega), firstDeliveries_zero]
    exact List.nil_prefix

/-! ## One event of each batch -/

/-- Whatever its outcome, an `ingest` adds its delivery id to those that were used. -/
theorem mem_seenDeliveries_ingest (event : GitHubWebhookEvent) (ctx : GitHubDeliveryContext)
    (id : String) (w : IngestionWorld) :
    id ∈ (finalState (ingest env options event ctx w)).service.seenDeliveries ↔
      id = ctx.deliveryId ∨ id ∈ w.service.seenDeliveries := by
  have hreceive : id ∈ (w.service.receive event ctx).1.seenDeliveries ↔
      id = ctx.deliveryId ∨ id ∈ w.service.seenDeliveries := by
    rw [receive_seenDeliveries]
    split
    · rename_i hseen
      exact ⟨.inr, fun h => h.elim (fun heq => heq ▸ hseen) fun h => h⟩
    · exact List.mem_cons
  unfold ingest
  rw [bind_run_ok (onService_run _ w)]
  cases (w.service.receive event ctx).2 with
  | some result => exact hreceive
  | none =>
    dsimp only
    rw [dispatch_seenDeliveries]
    exact hreceive

theorem worldAfter_cons {event : GitHubWebhookEvent} {ctx : GitHubDeliveryContext}
    {before : List Delivery} {w w₁ : IngestionWorld} {result : IngestionResult}
    (h : ingest env options event ctx w = .ok result w₁) :
    worldAfter env options ((event, ctx) :: before) w = worldAfter env options before w₁ := by
  unfold worldAfter
  rw [ingestAll, bind_run_ok h]
  exact finalState_bind_pure _ _ _

/-- The first delivery of a run that returns, and the rest of it. -/
theorem returned_ingestAll_cons {event : GitHubWebhookEvent} {ctx : GitHubDeliveryContext}
    {before : List Delivery} {w : IngestionWorld}
    (h : returned (ingestAll env options ((event, ctx) :: before) w) = true) :
    ∃ result w₁, ingest env options event ctx w = .ok result w₁ ∧
      returned (ingestAll env options before w₁) = true := by
  rw [ingestAll] at h
  cases hrun : ingest env options event ctx w with
  | error e w₁ =>
    rw [bind_run_error hrun] at h
    cases h
  | ok result w₁ =>
    rw [bind_run_ok hrun, returned_bind_total fun _ => .pure _] at h
    exact ⟨result, w₁, rfl, h⟩

/-- Deliveries that all return leave their ids among those that were used. -/
theorem mem_seenDeliveries_worldAfter {before : List Delivery} {id : String} :
    ∀ {w : IngestionWorld}, returned (ingestAll env options before w) = true →
      (id ∈ (worldAfter env options before w).service.seenDeliveries ↔
        id ∈ before.map (·.2.deliveryId) ∨ id ∈ w.service.seenDeliveries) := by
  induction before with
  | nil => exact fun _ => ⟨.inr, fun h => h.elim (fun h => nomatch h) fun h => h⟩
  | cons delivery before ih =>
    obtain ⟨event, ctx⟩ := delivery
    intro w hreturned
    obtain ⟨result, w₁, hrun, hrest⟩ := returned_ingestAll_cons hreturned
    have hfirst : id ∈ (finalState (ingest env options event ctx w)).service.seenDeliveries ↔ _ :=
      mem_seenDeliveries_ingest event ctx id w
    rw [hrun, finalState_ok] at hfirst
    rw [worldAfter_cons hrun, ih hrest, hfirst, List.map_cons, List.mem_cons, or_left_comm, or_assoc]

theorem returned_of_append {before after : List Delivery} {w : IngestionWorld}
    (h : returned (ingestAll env options (before ++ after) w) = true) :
    returned (ingestAll env options before w) = true := by
  rw [ingestAll_append] at h
  cases hrun : ingestAll env options before w with
  | error e w₁ =>
    rw [bind_run_error hrun] at h
    cases h
  | ok results w₁ => rfl

/-- An event has the outcome of a fresh delivery exactly when its own delivery id is fresh. -/
theorem deliveredAfresh_iff {delivery : Delivery} {w : IngestionWorld} :
    DeliveredAfresh env options delivery w ↔
      delivery.2.deliveryId ∉ w.service.seenDeliveries := by
  obtain ⟨event, ctx⟩ := delivery
  refine ⟨fun ⟨id, hfresh, heq⟩ hseen => ?_, fun hfresh => ⟨ctx.deliveryId, hfresh, rfl⟩⟩
  have hrecorded : id ∈ (finalState (ingest env options event ctx w)).service.seenDeliveries := by
    rw [← heq]
    exact (mem_seenDeliveries_ingest event ⟨id, ctx.receivedAt⟩ id w).mpr (.inl rfl)
  rcases (mem_seenDeliveries_ingest event ctx id w).mp hrecorded with rfl | hold
  · exact hfresh hseen
  · exact hfresh hold

/-- A list without a repeated image, from its first elements on. -/
theorem nodup_map_of_fresh {α β : Type} {f : α → β} {l : List α}
    (h : ∀ before a after, l = before ++ a :: after → f a ∉ before.map f) : (l.map f).Nodup := by
  induction l using List.reverseRecOn with
  | nil => exact List.nodup_nil
  | append_singleton l a ih =>
    have hl : (l.map f).Nodup := ih fun before b after heq =>
      h before b (after ++ [a]) (by rw [heq, List.append_assoc, List.cons_append])
    rw [List.map_append, List.map_singleton]
    exact List.nodup_append.mpr ⟨hl, List.nodup_singleton _, fun b hb c hc heq =>
      h l a [] rfl (by rw [List.mem_singleton] at hc; rwa [← hc, ← heq])⟩

theorem mem_firstDeliveries {n : Nat} {batches : List PollerFetchResult} {delivery : Delivery}
    (h : delivery ∈ firstDeliveries n batches) : ∃ batch ∈ batches, delivery.2 = batch.context := by
  obtain ⟨batch, hbatch, hmem⟩ := List.mem_flatMap.mp (List.mem_of_mem_take h)
  obtain ⟨event, -, rfl⟩ := List.mem_map.mp hmem
  exact ⟨batch, hbatch, rfl⟩

theorem nodup_deliveries_iff (batch : PollerFetchResult) (n : Nat) :
    ((batch.deliveries.take n).map (·.2.deliveryId)).Nodup ↔ min n batch.events.length ≤ 1 := by
  have hreplicate : (batch.deliveries.take n).map (·.2.deliveryId) =
      List.replicate (min n batch.events.length) batch.context.deliveryId := by
    rw [List.eq_replicate_iff]
    refine ⟨by simp [PollerFetchResult.deliveries], fun id hid => ?_⟩
    obtain ⟨delivery, hmem, rfl⟩ := List.mem_map.mp hid
    obtain ⟨event, -, rfl⟩ := List.mem_map.mp (List.mem_of_mem_take hmem)
    rfl
  rw [hreplicate]
  exact List.nodup_replicate

/-- The delivery ids of the first events are distinct exactly when no batch has two of them. -/
theorem nodup_firstDeliveries_iff {batches : List PollerFetchResult} : ∀ {n : Nat},
    (batches.map (·.context.deliveryId)).Nodup →
      (((firstDeliveries n batches).map (·.2.deliveryId)).Nodup ↔
        ∀ k ∈ shares n batches, k ≤ 1) := by
  induction batches with
  | nil =>
    intro n _
    simp [firstDeliveries, shares]
  | cons batch batches ih =>
    intro n hdistinct
    rw [List.map_cons, List.nodup_cons] at hdistinct
    rw [firstDeliveries_cons, List.map_append, List.nodup_append, nodup_deliveries_iff,
      ih hdistinct.2, shares, List.forall_mem_cons]
    refine ⟨fun h => ⟨h.1, h.2.1⟩, fun h => ⟨h.1, h.2, fun id hid id' hid' heq => ?_⟩⟩
    obtain ⟨delivery, hmem, rfl⟩ := List.mem_map.mp hid
    obtain ⟨event, -, rfl⟩ := List.mem_map.mp (List.mem_of_mem_take hmem)
    obtain ⟨delivery', hmem', rfl⟩ := List.mem_map.mp hid'
    obtain ⟨batch', hbatch', hctx⟩ := mem_firstDeliveries hmem'
    exact hdistinct.1 (List.mem_map.mpr ⟨batch', hbatch', by rw [← hctx]; exact heq.symm⟩)

/-- A cycle in which nothing throws, over batches whose delivery ids are new, gives the first events
the outcome of fresh deliveries exactly when no batch has two of them. -/
theorem polls_all_iff (env : Env) (options : GitHubIngestionOptions) (maxEventsPerPoll : Int)
    (batches : List PollerFetchResult) (w : IngestionWorld)
    (hfresh : ∀ batch ∈ batches, batch.context.deliveryId ∉ w.service.seenDeliveries)
    (hdistinct : (batches.map (·.context.deliveryId)).Nodup)
    (hreturned : returned (poll env options maxEventsPerPoll batches w) = true) :
    PollsAll env options maxEventsPerPoll batches w ↔
      ∀ k ∈ shares maxEventsPerPoll.toNat batches, k ≤ 1 := by
  have hrun : pollBatches env options maxEventsPerPoll batches {} w = _ :=
    congrFun (pollBatches_eq maxEventsPerPoll batches {}) w
  simp only [Nat.zero_add] at hrun
  have hfirst := firstDeliveries_handed maxEventsPerPoll batches
  have hseen : ∀ before delivery after,
      firstDeliveries maxEventsPerPoll.toNat batches = before ++ delivery :: after →
        (DeliveredAfresh env options delivery (worldAfter env options before w) ↔
          delivery.2.deliveryId ∉ before.map (·.2.deliveryId)) := by
    intro before delivery after heq
    have hbefore : returned (ingestAll env options before w) = true := by
      have hall : returned (ingestAll env options (handed maxEventsPerPoll batches 0) w) = true := by
        unfold poll at hreturned
        rwa [hrun, returned_bind_total fun _ => .pure _] at hreturned
      obtain ⟨rest, hrest⟩ := hfirst
      rw [← hrest, heq, List.append_assoc] at hall
      exact returned_of_append hall
    have hmem : delivery ∈ firstDeliveries maxEventsPerPoll.toNat batches := by
      rw [heq]
      exact List.mem_append_right _ (List.mem_cons_self ..)
    obtain ⟨batch, hbatch, hctx⟩ := mem_firstDeliveries hmem
    rw [deliveredAfresh_iff, mem_seenDeliveries_worldAfter hbefore, not_or]
    exact and_iff_left (hctx ▸ hfresh batch hbatch)
  rw [← nodup_firstDeliveries_iff hdistinct]
  refine ⟨fun h => nodup_map_of_fresh fun before delivery after heq => ?_, fun h => ?_⟩
  · exact (hseen before delivery after heq).mp (h.afresh before delivery after heq)
  · refine ⟨hrun, hfirst, fun before delivery after heq => ?_⟩
    refine (hseen before delivery after heq).mpr fun hid => ?_
    rw [heq, List.map_append, List.map_cons, List.nodup_append] at h
    exact h.2.2 _ hid _ (List.mem_cons_self ..) rfl

/-- The issue with the number `n` asks for a worker. -/
def requestIn (n : Nat) : GitHubWebhookEvent :=
  .issues .opened ⟨"acme/app"⟩
    { number := n, title := "Fix it", htmlUrl := "", state := .opened
      body := some "/a2a assign worker" }

def pollContext (deliveryId : String) : GitHubDeliveryContext :=
  ⟨deliveryId, "2026-01-01T00:00:00.000Z"⟩

/-- A broker with the worker that `requestIn` asks for. -/
def workerWorld : IngestionWorld where
  broker := run (Env.numbered {}) [.registerWorker { nodeId := "worker", role := .analyst }]

/-- Two issues in a batch each. -/
theorem polls_all_iff_single :
    PollsAll (Env.numbered {}) {} 50
      [⟨[requestIn 1], pollContext "poll-1"⟩, ⟨[requestIn 2], pollContext "poll-2"⟩]
      workerWorld :=
  (polls_all_iff (Env.numbered {}) {} 50 _ workerWorld (fun _ _ h => nomatch h) (by decide)
    (by decide +kernel)).mpr (by decide)

/-- The second issue of a batch is taken for a duplicate of the first. -/
theorem second_event_dropped :
    ¬PollsAll (Env.numbered {}) {} 50 [⟨[requestIn 1, requestIn 2], pollContext "poll-1"⟩]
      workerWorld := by
  intro h
  have hsecond := h.afresh [(requestIn 1, pollContext "poll-1")]
    (requestIn 2, pollContext "poll-1") [] rfl
  exact deliveredAfresh_iff.mp hsecond (by decide +kernel)

end A2ABroker
