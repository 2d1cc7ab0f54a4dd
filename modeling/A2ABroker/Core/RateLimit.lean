import A2ABroker.Core.Values
import A2ABroker.Lib.Table

/-! # Rate limits

`InMemoryRateLimiter` of `src/core/request-security.ts`: for each key the times of the requests that
were allowed, cut down to the current window whenever the key is looked at. -/

namespace A2ABroker

/-- An entry of `buckets`. -/
structure RateLimitTimestamps where
  key : String
  timestamps : List Int

instance : Keyed RateLimitTimestamps := ⟨(·.key)⟩

structure RateLimitDecision where
  key : String
  limit : Nat
  remaining : Nat
  resetAtMs : Int
  retryAfterSec : Int
  allowed : Bool
  deriving DecidableEq

/-- An entry of `RateLimitPressureSnapshot.busiest`. -/
structure BusyKey where
  key : String
  inWindow : Nat
  remaining : Nat
  resetAtMs : Int
  deriving DecidableEq

structure RateLimitPressureSnapshot where
  limit : Nat
  windowMs : Int
  activeKeys : Nat
  allowedRequests : Nat
  deniedRequests : Nat
  busiest : List BusyKey

structure InMemoryRateLimiter where
  maxRequests : Nat
  windowMs : Int
  buckets : Table RateLimitTimestamps := .empty
  allowedRequests : Nat := 0
  deniedRequests : Nat := 0

namespace InMemoryRateLimiter

variable (limiter : InMemoryRateLimiter)

/-- The times in the bucket of a key. -/
def timestampsOf (key : String) : List Int := (limiter.buckets.get? key).elim [] (·.timestamps)

/-- The times that are inside the window that ends at `nowMs`. -/
def inWindow (nowMs : Int) (timestamps : List Int) : List Int :=
  timestamps.filter fun value => nowMs - limiter.windowMs < value

/-- What `check` returns when it leaves `timestamps` in the bucket. -/
def decisionOf (key : String) (nowMs : Int) (timestamps : List Int) (allowed : Bool) :
    RateLimitDecision :=
  let resetAtMs := timestamps.head?.getD nowMs + limiter.windowMs
  { key
    limit := limiter.maxRequests
    remaining := limiter.maxRequests - timestamps.length
    resetAtMs
    -- `Math.ceil((resetAtMs - nowMs) / 1000)`
    retryAfterSec := max 1 (-((nowMs - resetAtMs) / 1000))
    allowed }

def check (key : String) (nowMs : Int) : InMemoryRateLimiter × RateLimitDecision :=
  let timestamps := limiter.inWindow nowMs (limiter.timestampsOf key)
  if timestamps.length < limiter.maxRequests then
    let timestamps := timestamps ++ [nowMs]
    ({ limiter with
        buckets := limiter.buckets.set ⟨key, timestamps⟩
        allowedRequests := limiter.allowedRequests + 1 },
      limiter.decisionOf key nowMs timestamps true)
  else
    ({ limiter with
        buckets := limiter.buckets.set ⟨key, timestamps⟩
        deniedRequests := limiter.deniedRequests + 1 },
      limiter.decisionOf key nowMs timestamps false)

/-- A bucket cut down to the window, or nothing when that leaves it empty. -/
def cutBucket (nowMs : Int) (bucket : RateLimitTimestamps) : Option RateLimitTimestamps :=
  let timestamps := limiter.inWindow nowMs bucket.timestamps
  if timestamps.isEmpty then none else some { bucket with timestamps }

theorem key_cutBucket (nowMs : Int) (a b : RateLimitTimestamps)
    (h : limiter.cutBucket nowMs a = some b) : key b = key a := by
  dsimp only [cutBucket] at h
  split at h
  · cases h
  · cases h
    rfl

/-- More requests first, then by collation. -/
def compareBusy (localeCompare : String → String → Ordering) (a b : BusyKey) : Ordering :=
  (compare b.inWindow a.inWindow).then (localeCompare a.key b.key)

/-- `snapshot`: the buckets are cut down to the window, and the empty ones deleted. -/
def snapshot (localeCompare : String → String → Ordering) (nowMs : Int) (topKeys : Nat) :
    InMemoryRateLimiter × RateLimitPressureSnapshot :=
  let buckets := limiter.buckets.update (limiter.cutBucket nowMs) (limiter.key_cutBucket nowMs)
  let activeEntries := sortedCopy (compareBusy localeCompare) <| buckets.rows.map fun bucket =>
    { key := bucket.key
      inWindow := bucket.timestamps.length
      remaining := limiter.maxRequests - bucket.timestamps.length
      resetAtMs := bucket.timestamps.head?.getD nowMs + limiter.windowMs }
  ({ limiter with buckets },
    { limit := limiter.maxRequests
      windowMs := limiter.windowMs
      activeKeys := activeEntries.length
      allowedRequests := limiter.allowedRequests
      deniedRequests := limiter.deniedRequests
      busiest := activeEntries.take topKeys })

end InMemoryRateLimiter

/-! ## Runs -/

inductive RateLimitCall where
  | check (key : String) (nowMs : Int)
  | snapshot (nowMs : Int) (topKeys : Nat)
  deriving DecidableEq

def RateLimitCall.nowMs : RateLimitCall → Int
  | check _ nowMs | snapshot nowMs _ => nowMs

/-- Whether a call checks a key. -/
def RateLimitCall.checks (key : String) : RateLimitCall → Bool
  | check k _ => k == key
  | snapshot _ _ => false

namespace InMemoryRateLimiter

variable (localeCompare : String → String → Ordering)

def step (limiter : InMemoryRateLimiter) : RateLimitCall → InMemoryRateLimiter
  | .check key nowMs => (limiter.check key nowMs).1
  | .snapshot nowMs topKeys => (limiter.snapshot localeCompare nowMs topKeys).1

/-- A new limiter after a sequence of calls. -/
def run (maxRequests : Nat) (windowMs : Int) (calls : List RateLimitCall) : InMemoryRateLimiter :=
  calls.foldl (step localeCompare) { maxRequests, windowMs }

/-- What a check returns after a sequence of calls on a new limiter. -/
def decisionAfter (maxRequests : Nat) (windowMs : Int) (calls : List RateLimitCall) (key : String)
    (nowMs : Int) : RateLimitDecision :=
  ((run localeCompare maxRequests windowMs calls).check key nowMs).2

/-- The decisions on the checks of a key, oldest first, each with the time of its check. -/
def decisionsFrom (key : String) (limiter : InMemoryRateLimiter) :
    List RateLimitCall → List (Int × RateLimitDecision)
  | [] => []
  | .check k nowMs :: calls =>
    let rest := decisionsFrom key (limiter.check k nowMs).1 calls
    if k = key then (nowMs, (limiter.check k nowMs).2) :: rest else rest
  | .snapshot nowMs topKeys :: calls =>
    decisionsFrom key (limiter.snapshot localeCompare nowMs topKeys).1 calls

def decisions (maxRequests : Nat) (windowMs : Int) (key : String) (calls : List RateLimitCall) :
    List (Int × RateLimitDecision) :=
  decisionsFrom localeCompare key { maxRequests, windowMs } calls

/-- The times of the allowed requests of a key, oldest first. -/
def allowedTimes (maxRequests : Nat) (windowMs : Int) (key : String) (calls : List RateLimitCall) :
    List Int :=
  ((decisions localeCompare maxRequests windowMs key calls).filter (·.2.allowed)).map (·.1)

end InMemoryRateLimiter

end A2ABroker
