import A2ABroker.GitHub.Ingestion

/-! # The bounded poller

The part of `poll` of `src/github/bounded-poller.ts` that follows the fetch: the batches are handed to
the ingestion service event by event, up to the cap of the cycle. -/

namespace A2ABroker

open Prog

structure PollerFetchResult where
  events : List GitHubWebhookEvent
  context : GitHubDeliveryContext

/-- `totalFetched` and `totalIngested` of a cycle. -/
structure PollTotals where
  fetched : Nat := 0
  ingested : Nat := 0
  deriving DecidableEq

/-- `items.slice(0, stop)`: a negative `stop` counts from the end. -/
def sliceTo (items : List α) (stop : Int) : List α :=
  if 0 ≤ stop then items.take stop.toNat else items.take (items.length - stop.natAbs)

variable (env : Env) (options : GitHubIngestionOptions)

/-- The inner loop: every event of a batch comes with the context of the batch. Returns how many were
neither duplicates nor stale. -/
def ingestEvents (context : GitHubDeliveryContext) : List GitHubWebhookEvent → IngestionM Nat
  | [] => pure 0
  | event :: events => do
    let result ← ingest env options event context
    let ingested ← ingestEvents context events
    pure (ingested + if !result.deduped && !result.replaySkipped then 1 else 0)

/-- The loop over the batches. -/
def pollBatches (maxEventsPerPoll : Int) :
    List PollerFetchResult → PollTotals → IngestionM PollTotals
  | [], totals => pure totals
  | batch :: batches, totals => do
    let events := sliceTo batch.events (maxEventsPerPoll - totals.fetched)
    if events.isEmpty then pollBatches maxEventsPerPoll batches totals
    else do
      let ingested ← ingestEvents env options batch.context events
      let totals : PollTotals := ⟨totals.fetched + events.length, totals.ingested + ingested⟩
      if maxEventsPerPoll ≤ totals.fetched then pure totals
      else pollBatches maxEventsPerPoll batches totals

def poll (maxEventsPerPoll : Int) (batches : List PollerFetchResult) : IngestionM PollTotals :=
  pollBatches env options maxEventsPerPoll batches {}

end A2ABroker
