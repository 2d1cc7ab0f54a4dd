import A2ABroker.Verify.Refine.Tasks
import A2ABroker.Core.Broker

/-! # Terminal Brief metadata and the events of the outbox

The validator takes the first copy of a field that is present, the outbox the first that can be read.
On the copies that both look at, the second finds what the first accepted (`findSome?_of_present`).
They part where the outbox looks somewhere else first: at `roundTotal` before `parentRoundTotal`, and
into `terminalBrief` and `metadata` before the other names of the round and of its total. -/

namespace A2ABroker

open Prog

variable {env : Env} {host : Host} {p : JsonObject} {s s' : State}

/-! ## The property -/

/-- The text-sanitised form of a property. -/
def roundText (v : Option Json) : Option String :=
  (sanitizeSummary (Json.string? v)).map (cut 160)

/-- The payload of the outbox event for a task. -/
def emittedPayload (host : Host) (task : TaskRecord) (ids : SucceededChildIds) :
    TerminalTaskEventPayload :=
  applyTerminalBriefTitle (applyRoundProgressMetadata (buildTerminalTaskPayload host task) ids).1

/-- The round fields of an event. -/
def TerminalTaskEventPayload.round (payload : TerminalTaskEventPayload) :
    Option String × Option Nat × Option Nat :=
  (payload.run, payload.parentRoundTotal, payload.parentRoundOrder)

/-- The event for a task says of its round what the validator checked. -/
structure NoDrift (host : Host) (task : TaskRecord) (ids : SucceededChildIds) : Prop where
  total : ∃ n, normalizePositiveInt (extractDispatchMetadata task.payload).parentRoundTotal = some n ∧
    (emittedPayload host task ids).parentRoundTotal = some n
  order : ∃ n, normalizePositiveInt (extractDispatchMetadata task.payload).parentRoundOrder = some n ∧
    (emittedPayload host task ids).parentRoundOrder = some n
  run : ∃ text, roundText (extractDispatchMetadata task.payload).parentRoundId = some text ∧
    (emittedPayload host task ids).run = some text
  ordered : ∀ order total, (emittedPayload host task ids).parentRoundOrder = some order →
    (emittedPayload host task ids).parentRoundTotal = some total → order ≤ total
  own : ∀ result ids', (emittedPayload host { task with result } ids').round =
    (emittedPayload host task ids).round

/-- `createTask` makes a task with this payload. -/
def CreateAccepts (env : Env) (p : JsonObject) : Prop :=
  ∃ request s task s', createTask env request s = .ok task s' ∧ s.tasks.get? task.id = none ∧
    task.payload = p

/-- Absent for `??`. -/
def isNullish : Option Json → Bool
  | none | some .null => true
  | _ => false

/-- The copies of a field in the terminal brief and the metadata of a payload. -/
def nestedCopies (p : JsonObject) (name : String) : List (Option Json) :=
  [JsonObject.get (Json.record (p.get "terminalBrief")) name,
    JsonObject.get (Json.record (p.get "metadata")) name]

/-- The copies that the outbox looks at before those of the validator say the same. -/
structure AgreeingCopies (p : JsonObject) : Prop where
  total : ∀ n, normalizePositiveInt (p.get "roundTotal") = some n →
    normalizePositiveInt (extractDispatchMetadata p).parentRoundTotal = some n
  nestedTotal : isNullish (p.get "parentRoundTotal") → isNullish (p.get "roundTotal") →
    ∀ n, (nestedCopies p "parentRoundTotal").findSome? normalizePositiveInt = some n →
      normalizePositiveInt (extractDispatchMetadata p).parentRoundTotal = some n
  nestedRun : isNullish (p.get "parentRoundId") →
    ∀ text, (nestedCopies p "parentRoundId").findSome? roundText = some text →
      roundText (extractDispatchMetadata p).parentRoundId = some text

/-! ## First present, first readable -/

section
variable {α : Type} {read : Option Json → Option α} {a : α}

theorem coalesce_of_nullish {v w : Option Json} (h : isNullish v) : Json.coalesce v w = w := by
  match v with
  | none | some .null => rfl

theorem coalesce_of_not_nullish {v w : Option Json} (h : ¬isNullish v) : Json.coalesce v w = v := by
  match v with
  | none | some .null => exact absurd rfl h
  | some (.bool _) | some (.num _) | some (.str _) | some (.arr _) | some (.obj _) => rfl

/-- If the first copy that is present can be read, it is the first that can be read. -/
theorem findSome?_of_present (hread : ∀ v, isNullish v → read v = none) (names : List String)
    (h : read (p.getFirst names) = some a) : (names.map p.get).findSome? read = some a := by
  induction names with
  | nil =>
    rw [JsonObject.getFirst, List.foldr_nil, hread none rfl] at h
    cases h
  | cons name names ih =>
    rw [List.map_cons, List.findSome?_cons]
    by_cases hnull : isNullish (p.get name)
    · rw [hread _ hnull]
      refine ih ?_
      rwa [JsonObject.getFirst, List.foldr_cons, coalesce_of_nullish hnull] at h
    · rw [JsonObject.getFirst, List.foldr_cons, coalesce_of_not_nullish hnull] at h
      rw [h]

end

theorem normalizePositiveInt_of_nullish {v : Option Json} (h : isNullish v) :
    normalizePositiveInt v = none := by
  match v with
  | none | some .null => rfl

theorem roundText_of_nullish {v : Option Json} (h : isNullish v) : roundText v = none := by
  match v with
  | none | some .null => rfl

/-! ## What the outbox reads -/

/-- The copies of a round field on the payload, in the order of the outbox. -/
def runCopies (p : JsonObject) : List (Option Json) :=
  p.get "parentRoundId" :: (nestedCopies p "parentRoundId" ++
    ["run", "runId", "round", "roundId"].map p.get)

def totalCopies (p : JsonObject) : List (Option Json) :=
  p.get "roundTotal" :: p.get "parentRoundTotal" :: (nestedCopies p "parentRoundTotal" ++
    ["expectedWorkers", "taskCount"].map p.get)

def orderCopies (p : JsonObject) : List (Option Json) :=
  ["parentRoundOrder", "parentRoundIndex"].map p.get

/-- What follows the copies of the payload is used where these cannot be read. -/
theorem findSome?_append_of_some {α β : Type} {f : α → Option β} {l : List α} {b : β}
    (h : l.findSome? f = some b) (rest : List α) : (l ++ rest).findSome? f = some b := by
  rw [List.findSome?_append, h, Option.some_or]

theorem build_run (host : Host) (task : TaskRecord) : ∃ rest,
    (buildTerminalTaskPayload host task).run =
      (runCopies task.payload ++ rest).findSome? roundText := by
  let output := (task.result.bind (·.output)).getD []
  refine ⟨[output.get "parentRoundId", JsonObject.get (Json.record (output.get "terminalBrief"))
    "parentRoundId", JsonObject.get (Json.record (output.get "metadata")) "parentRoundId",
    output.get "run", output.get "runId", output.get "round", output.get "roundId"], rfl⟩

theorem build_total (host : Host) (task : TaskRecord) : ∃ rest,
    (buildTerminalTaskPayload host task).parentRoundTotal =
      (totalCopies task.payload ++ rest).findSome? normalizePositiveInt := by
  let output := (task.result.bind (·.output)).getD []
  refine ⟨[output.get "roundTotal", output.get "parentRoundTotal",
    JsonObject.get (Json.record (output.get "terminalBrief")) "parentRoundTotal",
    JsonObject.get (Json.record (output.get "metadata")) "parentRoundTotal",
    output.get "expectedWorkers"], rfl⟩

theorem build_order (host : Host) (task : TaskRecord) : ∃ rest,
    (buildTerminalTaskPayload host task).parentRoundOrder =
      (orderCopies task.payload ++ rest).findSome? normalizePositiveInt := ⟨_, rfl⟩

/-- The progress of the round and the titles leave the round fields alone. -/
theorem emittedPayload_round (host : Host) (task : TaskRecord) (ids : SucceededChildIds) :
    (emittedPayload host task ids).round = (buildTerminalTaskPayload host task).round := by
  show (applyRoundProgressMetadata _ ids).1.round = _
  unfold applyRoundProgressMetadata
  split
  · rfl
  · dsimp only
    split <;> rfl

/-! ## What the validator accepts -/

/-- What an accepted payload has. -/
structure Checked (p : JsonObject) : Prop where
  run : ∃ text, roundText (extractDispatchMetadata p).parentRoundId = some text
  total : ∃ n, normalizePositiveInt (extractDispatchMetadata p).parentRoundTotal = some n
  order : ∃ n, normalizePositiveInt (extractDispatchMetadata p).parentRoundOrder = some n
  ordered : ∀ order total,
    normalizePositiveInt (extractDispatchMetadata p).parentRoundOrder = some order →
    normalizePositiveInt (extractDispatchMetadata p).parentRoundTotal = some total → order ≤ total

theorem checked_of_accepted {brokerId : Option String} (hmeta : hasTerminalBriefMetadata p = true)
    (h : assertTerminalBriefMetadata brokerId (some p) = .ok ()) : Checked p := by
  unfold assertTerminalBriefMetadata at h
  simp only [hmeta, Bool.not_true, Bool.false_eq_true, if_false] at h
  split at h
  · rename_i hvalid
    have hissues := List.isEmpty_iff.mp hvalid
    unfold validateTerminalBriefMetadata at hissues
    simp only [List.append_eq_nil_iff] at hissues
    obtain ⟨⟨⟨⟨hrun, -⟩, htotal⟩, horder⟩, -⟩ := hissues
    obtain ⟨total, htotal⟩ : ∃ n, normalizePositiveInt (extractDispatchMetadata p).parentRoundTotal =
        some n := by
      refine Option.isSome_iff_exists.mp (Option.isNone_eq_false_iff.mp ?_)
      by_contra hnone
      rw [if_pos (Bool.eq_true_of_not_eq_false hnone)] at htotal
      cases htotal
    rw [htotal] at horder
    cases ho : normalizePositiveInt (extractDispatchMetadata p).parentRoundOrder with
    | none =>
      rw [ho] at horder
      cases horder
    | some order =>
      rw [ho] at horder
      refine ⟨?_, ⟨total, htotal⟩, ⟨order, ho⟩, ?_⟩
      · cases htrim : trimmed (Json.string? (extractDispatchMetadata p).parentRoundId) with
        | none =>
          rw [requireToken, readString, htrim] at hrun
          cases hrun
        | some text => exact ⟨_, by rw [roundText, sanitizeSummary, htrim]; rfl⟩
      · intro order' total' ho' htotal'
        obtain rfl := Option.some.inj (ho.symm.trans ho')
        obtain rfl := Option.some.inj (htotal.symm.trans htotal')
        by_contra hgt
        dsimp only at horder
        rw [if_pos (Nat.lt_of_not_le hgt)] at horder
        cases horder
  · cases h

/-- A payload with which `createTask` makes a task has passed the validator. -/
theorem accepted_of_create (h : CreateAccepts env p) (hmeta : hasTerminalBriefMetadata p = true) :
    assertTerminalBriefMetadata env.config.brokerId (some p) = .ok () := by
  obtain ⟨request, s, task, s', hrun, hnew, rfl⟩ := h
  obtain ⟨⟨created, left⟩, s₁, hlinked, htask⟩ := bind_eq_ok hrun
  cases htask
  obtain ⟨request', -, h₁⟩ := (isGuard_assertOk _).bind_eq_ok hlinked
  obtain ⟨_, hpayload, h₂⟩ := (isGuard_assertTaskPayload _).bind_eq_ok h₁
  obtain ⟨_, -, hpayload⟩ := (isGuard_refuseIf _ _ _).bind_eq_ok hpayload
  obtain ⟨_, -, hpayload⟩ := (isGuard_refuseIf _ _ _).bind_eq_ok hpayload
  obtain ⟨_, -, hpayload⟩ := (isGuard_refuseIf _ _ _).bind_eq_ok hpayload
  have hchecked := assertOk_ok hpayload
  rw [bind_run_ok (get_run s)] at h₂
  cases hexisting : (if truthy request'.id then request'.id.bind s.tasks.get? else none) with
  | some existing =>
    simp only [hexisting] at h₂
    cases h₂
    split at hexisting
    · obtain ⟨id, -, hget⟩ := Option.bind_eq_some_iff.mp hexisting
      have hid : task.id = id := Table.key_of_get? hget
      rw [hid, hget] at hnew
      cases hnew
    · cases hexisting
  | none =>
    simp only [hexisting] at h₂
    obtain ⟨_, -, h₃⟩ := (isGuard_assertTaskReferences _).bind_eq_ok h₂
    rw [insertTask_eq, bind_run_ok (isoNow_run env s)] at h₃
    obtain ⟨id, s₂, -, h₄⟩ := bind_eq_ok h₃
    obtain ⟨left', s₃, -, h₅⟩ := bind_eq_ok h₄
    obtain ⟨_, s₄, -, h₆⟩ := bind_eq_ok h₅
    cases h₆
    have hp : (newTask env request' id (Timestamp.iso (env.dateNow s.clockReads))).payload =
      request'.payload.getD [] := rfl
    rw [hp] at hmeta ⊢
    cases hgiven : request'.payload with
    | none =>
      rw [hgiven] at hmeta
      cases hmeta
    | some given => rwa [hgiven] at hchecked

/-! ## Agreement -/

theorem orderCopies_find {n : Nat}
    (h : normalizePositiveInt (extractDispatchMetadata p).parentRoundOrder = some n) :
    (orderCopies p).findSome? normalizePositiveInt = some n :=
  findSome?_of_present (fun _ => normalizePositiveInt_of_nullish) _ h

/-- The total of the outbox, where the validator found one. -/
theorem totalCopies_find {n : Nat}
    (h : normalizePositiveInt (extractDispatchMetadata p).parentRoundTotal = some n) :
    (totalCopies p).findSome? normalizePositiveInt =
      some ((normalizePositiveInt (p.get "roundTotal")).getD
        (if isNullish (p.get "parentRoundTotal") ∧ isNullish (p.get "roundTotal") then
          ((nestedCopies p "parentRoundTotal").findSome? normalizePositiveInt).getD n else n)) := by
  rw [totalCopies, List.findSome?_cons]
  have h : normalizePositiveInt (Json.coalesce (p.get "parentRoundTotal")
      (Json.coalesce (p.get "roundTotal") (p.getFirst ["expectedWorkers", "taskCount"]))) =
        some n := h
  cases hround : normalizePositiveInt (p.get "roundTotal") with
  | some r => rfl
  | none =>
    rw [List.findSome?_cons]
    by_cases hparent : isNullish (p.get "parentRoundTotal")
    · rw [coalesce_of_nullish hparent] at h
      rw [normalizePositiveInt_of_nullish hparent]
      by_cases hnull : isNullish (p.get "roundTotal")
      · rw [coalesce_of_nullish hnull] at h
        rw [if_pos ⟨hparent, hnull⟩, List.findSome?_append,
          findSome?_of_present (fun _ => normalizePositiveInt_of_nullish) _ h]
        cases (nestedCopies p "parentRoundTotal").findSome? normalizePositiveInt <;> rfl
      · rw [coalesce_of_not_nullish hnull, hround] at h
        cases h
    · rw [coalesce_of_not_nullish hparent] at h
      rw [h, if_neg fun hboth => hparent hboth.1]
      rfl

theorem runCopies_find {text : String}
    (h : roundText (extractDispatchMetadata p).parentRoundId = some text) :
    (runCopies p).findSome? roundText =
      some (if isNullish (p.get "parentRoundId") then
        ((nestedCopies p "parentRoundId").findSome? roundText).getD text else text) := by
  rw [runCopies, List.findSome?_cons]
  have h : roundText (Json.coalesce (p.get "parentRoundId")
      (p.getFirst ["run", "runId", "round", "roundId"])) = some text := h
  by_cases hnull : isNullish (p.get "parentRoundId")
  · rw [coalesce_of_nullish hnull] at h
    rw [roundText_of_nullish hnull, if_pos hnull, List.findSome?_append,
      findSome?_of_present (fun _ => roundText_of_nullish) _ h]
    cases (nestedCopies p "parentRoundId").findSome? roundText <;> rfl
  · rw [coalesce_of_not_nullish hnull] at h
    rw [h, if_neg hnull]

/-- The round of an event, from what was checked and the copies that come before it. -/
theorem emitted_round (host : Host) (hchecked : Checked p) (task : TaskRecord) (hp : task.payload = p)
    (ids : SucceededChildIds) :
    (emittedPayload host task ids).round = ((runCopies p).findSome? roundText,
      (totalCopies p).findSome? normalizePositiveInt,
      (orderCopies p).findSome? normalizePositiveInt) := by
  obtain ⟨text, hrun⟩ := hchecked.run
  obtain ⟨total, htotal⟩ := hchecked.total
  obtain ⟨order, horder⟩ := hchecked.order
  obtain ⟨rest, hbuildRun⟩ := build_run host task
  obtain ⟨rest', hbuildTotal⟩ := build_total host task
  obtain ⟨rest'', hbuildOrder⟩ := build_order host task
  subst hp
  rw [emittedPayload_round, TerminalTaskEventPayload.round, hbuildRun, hbuildTotal, hbuildOrder,
    findSome?_append_of_some (runCopies_find hrun), findSome?_append_of_some (totalCopies_find htotal),
    findSome?_append_of_some (orderCopies_find horder), runCopies_find hrun,
    totalCopies_find htotal, orderCopies_find horder]

/-- Where the copies agree, the first that the outbox can read is the one that was checked. -/
theorem AgreeingCopies.run (hagree : AgreeingCopies p) {text : String}
    (h : roundText (extractDispatchMetadata p).parentRoundId = some text) :
    (runCopies p).findSome? roundText = some text := by
  rw [runCopies_find h]
  split
  · rename_i hnull
    cases hnested : (nestedCopies p "parentRoundId").findSome? roundText with
    | none => rfl
    | some text' => exact (hagree.nestedRun hnull text' hnested).symm.trans h
  · rfl

theorem AgreeingCopies.totalCopies (hagree : AgreeingCopies p) {n : Nat}
    (h : normalizePositiveInt (extractDispatchMetadata p).parentRoundTotal = some n) :
    (totalCopies p).findSome? normalizePositiveInt = some n := by
  rw [totalCopies_find h]
  cases hround : normalizePositiveInt (p.get "roundTotal") with
  | some r => exact (hagree.total r hround).symm.trans h
  | none =>
    rw [Option.getD_none]
    split
    · rename_i hnull
      cases hnested : (nestedCopies p "parentRoundTotal").findSome? normalizePositiveInt with
      | none => rfl
      | some n' => exact (hagree.nestedTotal hnull.1 hnull.2 n' hnested).symm.trans h
    · rfl

theorem noDrift_of_agreeing (hchecked : Checked p) (hagree : AgreeingCopies p) {task : TaskRecord}
    (hp : task.payload = p) (ids : SucceededChildIds) : NoDrift host task ids := by
  obtain ⟨text, hrun⟩ := hchecked.run
  obtain ⟨total, htotal⟩ := hchecked.total
  obtain ⟨order, horder⟩ := hchecked.order
  have hround : ∀ task ids, task.payload = p → (emittedPayload host task ids).round =
      (some text, some total, some order) := by
    intro task ids hp
    rw [emitted_round host hchecked task hp ids, hagree.run hrun, hagree.totalCopies htotal,
      orderCopies_find horder]
  have hrun' : (emittedPayload host task ids).run = some text := congrArg (·.1) (hround task ids hp)
  have htotal' : (emittedPayload host task ids).parentRoundTotal = some total :=
    congrArg (·.2.1) (hround task ids hp)
  have horder' : (emittedPayload host task ids).parentRoundOrder = some order :=
    congrArg (·.2.2) (hround task ids hp)
  refine ⟨hp ▸ ⟨total, htotal, htotal'⟩, hp ▸ ⟨order, horder, horder'⟩, hp ▸ ⟨text, hrun, hrun'⟩,
    fun o t ho ht => ?_, fun result ids' => ?_⟩
  · obtain rfl := Option.some.inj (horder'.symm.trans ho)
    obtain rfl := Option.some.inj (htotal'.symm.trans ht)
    exact hchecked.ordered order total horder htotal
  · rw [hround task ids hp, hround { task with result } ids' hp]

theorem agreeing_of_found (hrun : ∃ text, roundText (extractDispatchMetadata p).parentRoundId =
      some text ∧ (runCopies p).findSome? roundText = some text)
    (htotal : ∃ n, normalizePositiveInt (extractDispatchMetadata p).parentRoundTotal = some n ∧
      (totalCopies p).findSome? normalizePositiveInt = some n) : AgreeingCopies p := by
  obtain ⟨text, hrun, hfound⟩ := hrun
  obtain ⟨n, htotal, hfoundTotal⟩ := htotal
  rw [runCopies_find hrun] at hfound
  rw [totalCopies_find htotal] at hfoundTotal
  refine ⟨fun r hr => ?_, fun hparent hround r hr => ?_, fun hnull text' htext' => ?_⟩
  · rw [hr, Option.getD_some] at hfoundTotal
    rw [htotal, hfoundTotal]
  · rw [normalizePositiveInt_of_nullish hround, Option.getD_none, if_pos ⟨hparent, hround⟩, hr,
      Option.getD_some] at hfoundTotal
    rw [htotal, hfoundTotal]
  · rw [if_pos hnull, htext', Option.getD_some] at hfound
    rw [hrun, hfound]

/-- The third task of a round of five, which is `roundTotal` tasks in another copy. -/
def briefPayload (roundTotal : Nat) : JsonObject :=
  [("parentRoundId", .str "round"), ("originBrokerId", .str "broker"),
    ("parentRoundTotal", .num 5), ("roundTotal", .num roundTotal), ("parentRoundOrder", .num 3)]

/-- A request to a broker with its worker, for a task with a payload. -/
def briefCreation (p : JsonObject) : BrokerM TaskRecord :=
  createTask (Env.numbered {})
    { id := some "task", intent := .analyze, requester := { id := "hub" }
      target := { id := "worker" }, payload := some p }

def briefStart : State :=
  run (Env.numbered {}) [.registerWorker { nodeId := "worker", role := .analyst }]

theorem createAccepts_briefPayload (n : Nat) : CreateAccepts (Env.numbered {}) (briefPayload n) := by
  obtain ⟨task, s', hrun, hid, hp⟩ : ∃ task s', briefCreation (briefPayload n) briefStart = .ok task s' ∧
    task.id = "task" ∧ task.payload = briefPayload n := ⟨_, _, rfl, rfl, rfl⟩
  exact ⟨_, _, task, s', hrun, hid ▸ rfl, hp⟩

/-- `createTask` accepts a payload with Terminal Brief metadata: the events of its tasks say what was
checked exactly when the copies agree. -/
theorem noDrift_iff (h : CreateAccepts env p) (hmeta : hasTerminalBriefMetadata p = true) :
    (∀ task ids, task.payload = p → task.status.terminal = true → NoDrift env.host task ids) ↔
      AgreeingCopies p := by
  have hchecked := checked_of_accepted hmeta (accepted_of_create h hmeta)
  refine ⟨fun hno => ?_, fun hagree task ids hp _ => noDrift_of_agreeing hchecked hagree hp ids⟩
  obtain ⟨-, -, task, -, -, -, hp⟩ := h
  obtain ⟨⟨n, htotal, hemitted⟩, -, ⟨text, hrun, hemittedRun⟩, -⟩ :=
    hno { task with status := .failed } [] hp rfl
  have hround := emitted_round env.host hchecked { task with status := .failed } hp []
  have hrunCopy : _ = (runCopies p).findSome? roundText := congrArg (·.1) hround
  have htotalCopy : _ = (totalCopies p).findSome? normalizePositiveInt := congrArg (·.2.1) hround
  subst hp
  exact agreeing_of_found ⟨text, hrun, hrunCopy.symm.trans hemittedRun⟩
    ⟨n, htotal, htotalCopy.symm.trans hemitted⟩

theorem noDrift_iff_agreed :
    (∀ task ids, task.payload = briefPayload 5 → task.status.terminal = true →
      NoDrift (Env.numbered {}).host task ids) ↔ AgreeingCopies (briefPayload 5) :=
  noDrift_iff (createAccepts_briefPayload 5) rfl

/-- The third task of a round of two. -/
theorem order_exceeds_total :
    CreateAccepts (Env.numbered {}) (briefPayload 2) ∧
    hasTerminalBriefMetadata (briefPayload 2) = true ∧
    ¬∀ task ids, task.payload = briefPayload 2 → task.status.terminal = true →
      NoDrift (Env.numbered {}).host task ids := by
  have haccepted := createAccepts_briefPayload 2
  refine ⟨haccepted, rfl, fun hno => ?_⟩
  obtain ⟨-, -, task, -, -, -, hp⟩ := haccepted
  have hround := emitted_round (Env.numbered {}).host
    (checked_of_accepted rfl (accepted_of_create (createAccepts_briefPayload 2) rfl))
    { task with status := .failed } hp []
  have hle := (hno { task with status := .failed } [] hp rfl).ordered 3 2
    (congrArg (·.2.2) hround) (congrArg (·.2.1) hround)
  exact absurd hle (by decide)

end A2ABroker
