import A2ABroker.Verify.Refine.Broker

/-! # The requeue cap

`requeueCount` counts the automatic requeues of a task since it was created or reassigned. The sweep
reads it before it requeues, so it never passes the cap (`Budget`), and neither does the number of
`task.requeued` events in between.

The second half is about one sweep: what it does to each stored task (`SweepLaw`). The save at its
end is a retention pass, which may drop terminal tasks. -/

namespace A2ABroker

open Prog

variable {env : Env} {s s' : State}

/-! ## Counting requeues -/

/-- The requeues of a task in a log, newest first, since it was created or reassigned. -/
def requeuedSince (id : String) : List Event → Nat
  | [] => 0
  | e :: es =>
    if e = .taskCreated id ∨ e = .taskReassigned id then 0
    else if e = .taskRequeued id then requeuedSince id es + 1
    else requeuedSince id es

@[simp] theorem requeuedSince_created (id : String) (es : List Event) :
    requeuedSince id (.taskCreated id :: es) = 0 := by simp [requeuedSince]

@[simp] theorem requeuedSince_reassigned (id : String) (es : List Event) :
    requeuedSince id (.taskReassigned id :: es) = 0 := by simp [requeuedSince]

@[simp] theorem requeuedSince_requeued (id : String) (es : List Event) :
    requeuedSince id (.taskRequeued id :: es) = requeuedSince id es + 1 := by simp [requeuedSince]

/-- The task that an event counts for. -/
def Event.taskId? : Event → Option String
  | taskCreated id | taskReassigned id | taskRequeued id => some id
  | _ => none

theorem requeuedSince_other {id : String} {e : Event} (es : List Event)
    (h : e.taskId? ≠ some id) : requeuedSince id (e :: es) = requeuedSince id es := by
  cases e <;> simp_all [requeuedSince, Event.taskId?]

/-- The counter of every task is right and within the cap, and the log never passed the cap. -/
structure Budget (cap : Nat) (b : Board) : Prop where
  counted : ∀ t ∈ b.tasks.rows, requeuedSince t.id b.events ≤ t.requeueCount.getD 0
  within : ∀ t ∈ b.tasks.rows, t.requeueCount.getD 0 ≤ cap
  logged : ∀ id l, l <:+ b.events → requeuedSince id l ≤ cap

/-- An event that counts for one task, whose record follows. -/
theorem Budget.push {cap : Nat} {b b' : Board} (h : Budget cap b) {e : Event} {t : TaskRecord}
    (hevents : b'.events = e :: b.events) (htasks : b'.tasks = b.tasks.set t)
    (hid : ∀ i, e.taskId? = some i → i = t.id)
    (hcount : requeuedSince t.id (e :: b.events) ≤ t.requeueCount.getD 0)
    (hwithin : t.requeueCount.getD 0 ≤ cap) : Budget cap b' where
  counted u hu := by
    rw [htasks] at hu
    rw [hevents]
    rcases Table.mem_rows_set.mp hu with rfl | ⟨hu, hne⟩
    · exact hcount
    · have hother : e.taskId? ≠ some u.id := fun he => hne (hid _ he)
      rw [requeuedSince_other _ hother]
      exact h.counted u hu
  within u hu := by
    rw [htasks] at hu
    rcases Table.mem_rows_set.mp hu with rfl | ⟨hu, -⟩
    · exact hwithin
    · exact h.within u hu
  logged id l hl := by
    rw [hevents] at hl
    rcases List.suffix_cons_iff.mp hl with rfl | hl
    · by_cases he : e.taskId? = some id
      · obtain rfl := hid id he
        exact hcount.trans hwithin
      · rw [requeuedSince_other _ he]
        exact h.logged id _ (List.suffix_refl _)
    · exact h.logged id l hl

/-- A record that replaces one with the same counter. -/
theorem Budget.replace {cap : Nat} {b b' : Board} (h : Budget cap b) {t t' : TaskRecord}
    (hevents : b'.events = b.events) (htasks : b'.tasks = b.tasks.set t')
    (hget : b.tasks.get? t.id = some t) (hid : t'.id = t.id)
    (hsame : t'.requeueCount = t.requeueCount) : Budget cap b' where
  counted u hu := by
    rw [htasks] at hu
    rw [hevents]
    rcases Table.mem_rows_set.mp hu with rfl | ⟨hu, -⟩
    · rw [hid, hsame]
      exact h.counted t (Table.mem_of_get? hget)
    · exact h.counted u hu
  within u hu := by
    rw [htasks] at hu
    rcases Table.mem_rows_set.mp hu with rfl | ⟨hu, -⟩
    · rw [hsame]
      exact h.within t (Table.mem_of_get? hget)
    · exact h.within u hu
  logged id l hl := h.logged id l (hevents ▸ hl)

/-- Nothing is counted and no task is new. -/
theorem Budget.retain {cap : Nat} {b b' : Board} (h : Budget cap b) {keep : TaskRecord → Bool}
    (hevents : b'.events = b.events) (htasks : b'.tasks = b.tasks.retain keep) :
    Budget cap b' where
  counted u hu := by
    rw [htasks] at hu
    rw [hevents]
    exact h.counted u (Table.mem_rows_retain.mp hu).1
  within u hu := by
    rw [htasks] at hu
    exact h.within u (Table.mem_rows_retain.mp hu).1
  logged id l hl := h.logged id l (hevents ▸ hl)

/-- An event that counts for no task. -/
theorem Budget.silent {cap : Nat} {b b' : Board} (h : Budget cap b) {e : Event}
    (he : e.taskId? = none) (hevents : b'.events = e :: b.events) (htasks : b'.tasks = b.tasks) :
    Budget cap b' where
  counted u hu := by
    rw [htasks] at hu
    rw [hevents, requeuedSince_other _ (by simp [he])]
    exact h.counted u hu
  within u hu := h.within u (htasks ▸ hu)
  logged id l hl := by
    rw [hevents] at hl
    rcases List.suffix_cons_iff.mp hl with rfl | hl
    · rw [requeuedSince_other _ (by simp [he])]
      exact h.logged id _ (List.suffix_refl _)
    · exact h.logged id l hl

/-- An act leaves the counter alone, resets it, or counts one requeue within the cap. -/
theorem TaskStep.requeueCount_cases {cap : Nat} {a : Act} {t t' : TaskRecord}
    (h : TaskStep cap a t t') (hcap : 0 < cap) :
    (a.event? t.id = none ∧ t'.requeueCount = t.requeueCount) ∨
    (a.event? t.id = some (.taskReassigned t.id) ∧ t'.requeueCount = some 0) ∨
    (a.event? t.id = some (.taskRequeued t.id) ∧ t.requeueCount.getD 0 < cap ∧
      t'.requeueCount = some (t.requeueCount.getD 0 + 1)) := by
  cases h with
  | reassign => exact .inr (.inl ⟨rfl, rfl⟩)
  | requeue _ _ hbudget => exact .inr (.inr ⟨rfl, hbudget hcap, rfl⟩)
  | _ => exact .inl ⟨rfl, rfl⟩

theorem Board.Step.budget {m : Move} {b b' : Board} (h : Board.Step env m b b')
    (hcap : 0 < env.config.maxRequeueAttempts) (hb : Budget env.config.maxRequeueAttempts b) :
    Budget env.config.maxRequeueAttempts b' := by
  have hid : ∀ {t : TaskRecord} {e : Event}, e.taskId? = some t.id →
      ∀ i, e.taskId? = some i → i = t.id :=
    fun he i hi => Option.some.inj (hi.symm.trans he)
  cases h with
  | prune h =>
    obtain ⟨keep, htasks, -⟩ := h.tasks
    exact hb.retain h.events htasks
  | @create_drawn _ t _ hnew | @create_named _ t hnew =>
    obtain ⟨request, now, hnew⟩ := hnew
    refine hb.push (e := .taskCreated t.id) (t := t) rfl rfl (hid rfl) (by simp) ?_
    rw [hnew]
    exact Nat.zero_le _
  | @act _ a t t' hget hstep =>
    rcases hstep.requeueCount_cases hcap with ⟨he, hsame⟩ | ⟨he, hzero⟩ | ⟨he, hlt, hsucc⟩
    · exact hb.replace (by simp [he]) rfl hget hstep.id_eq hsame
    · refine hb.push (e := .taskReassigned t.id) (t := t') (by simp [he]) rfl
        (hid (by rw [hstep.id_eq]; rfl)) ?_ ?_
      · simp [hstep.id_eq]
      · simp [hzero]
    · have hcount := hb.counted t (Table.mem_of_get? hget)
      refine hb.push (e := .taskRequeued t.id) (t := t') (by simp [he]) rfl
        (hid (by rw [hstep.id_eq]; rfl)) ?_ ?_
      · simp only [hstep.id_eq, requeuedSince_requeued, hsucc, Option.getD_some]
        omega
      · simp only [hsucc, Option.getD_some]
        omega
  | @review _ a p p' hget hstep =>
    cases a with
    | reject | apply => exact hb.silent (e := _) rfl rfl rfl
    | touch | validate | approve => exact ⟨hb.counted, hb.within, hb.logged⟩
  | _ => exact ⟨hb.counted, hb.within, hb.logged⟩

theorem run_budget (hcap : 0 < env.config.maxRequeueAttempts) (ops : List Op) :
    Budget env.config.maxRequeueAttempts (run env ops).board := by
  refine run_board_law ?_ (fun _ _ _ h hb => h.budget hcap hb) ops
  refine ⟨fun t ht => ?_, fun t ht => ?_, fun id l hl => ?_⟩
  · cases ht
  · cases ht
  obtain rfl := List.suffix_nil.mp hl
  exact Nat.zero_le _

/-! ## The loop of the sweep -/

/-- A failed, dead-lettered tombstone stands under the id. -/
def Buried (s : State) (id : String) : Prop :=
  ∃ tombstone, s.tombstones.get? id = some tombstone ∧ tombstone.terminalStatus = .failed ∧
    tombstone.tombstoneReason = .deadLettered

section
variable {reasonOf : TaskRecord → Option String} {now : Timestamp} {tasks : List TaskRecord}
  {t : TaskRecord}

/-- What the sweep makes of a task. -/
def swept (env : Env) (reasonOf : TaskRecord → Option String) (now : Timestamp)
    (t : TaskRecord) : TaskRecord :=
  match reasonOf t with
  | none => t
  | some reason =>
    if requeuesExhausted env t then t.deadLettered (requeueExhaustedError env t reason) now
    else t.requeued now

theorem swept_id (t : TaskRecord) : (swept env reasonOf now t).id = t.id := by
  unfold swept
  split
  · rfl
  · split <;> rfl

/-- A stale task that may be requeued. -/
def requeueable (env : Env) (reasonOf : TaskRecord → Option String) (t : TaskRecord) : Bool :=
  (reasonOf t).isSome && !requeuesExhausted env t

/-- A stale task that used up its requeues. -/
def spent (env : Env) (reasonOf : TaskRecord → Option String) (t : TaskRecord) : Bool :=
  (reasonOf t).isSome && requeuesExhausted env t

/-- The loop over `tasks` led from `s` to `s'`. -/
structure Swept (env : Env) (reasonOf : TaskRecord → Option String) (now : Timestamp)
    (tasks : List TaskRecord) (s s' : State) : Prop where
  visited : ∀ t ∈ tasks, s'.tasks.get? t.id = some (swept env reasonOf now t)
  others : ∀ id, id ∉ tasks.map key →
    s'.tasks.get? id = s.tasks.get? id ∧ s'.tombstones.get? id = s.tombstones.get? id
  buried : ∀ t ∈ tasks, spent env reasonOf t = true → Buried s' t.id
  workers : s'.workers = s.workers

theorem Swept.cons {s₁ : State} (h : Swept env reasonOf now tasks s₁ s')
    (hfresh : key t ∉ tasks.map key) (hworkers : s₁.workers = s.workers)
    (hself : s₁.tasks.get? t.id = some (swept env reasonOf now t))
    (hother : ∀ id, id ≠ t.id →
      s₁.tasks.get? id = s.tasks.get? id ∧ s₁.tombstones.get? id = s.tombstones.get? id)
    (hburied : spent env reasonOf t = true → Buried s₁ t.id) :
    Swept env reasonOf now (t :: tasks) s s' where
  visited u hu := by
    rcases List.mem_cons.mp hu with rfl | hu
    · exact (h.others _ hfresh).1.trans hself
    · exact h.visited u hu
  others id hid := by
    obtain ⟨hne, hid⟩ := not_or.mp (mt List.mem_cons.mpr hid)
    obtain ⟨htask, htomb⟩ := h.others id hid
    obtain ⟨htask₁, htomb₁⟩ := hother id hne
    exact ⟨htask.trans htask₁, htomb.trans htomb₁⟩
  buried u hu hspent := by
    rcases List.mem_cons.mp hu with rfl | hu
    · obtain ⟨tombstone, hget, hrest⟩ := hburied hspent
      exact ⟨tombstone, (h.others _ hfresh).2.trans hget, hrest⟩
    · exact h.buried u hu hspent
  workers := h.workers.trans hworkers

/-- The loop returns, with the stale tasks it requeued and those it dead-lettered. -/
theorem sweepTasks_spec (env : Env) (reasonOf : TaskRecord → Option String) (now : Timestamp)
    (tasks : List TaskRecord) : ∀ (sweep : Sweep) (s : State), (tasks.map key).Nodup →
      (∀ t ∈ tasks, s.tasks.get? t.id = some t) → ∃ s',
      sweepTasks env reasonOf now tasks sweep s = .ok
        { requeued := sweep.requeued ++
            (tasks.filter (requeueable env reasonOf)).map (swept env reasonOf now)
          deadLettered := sweep.deadLettered ++
            (tasks.filter (spent env reasonOf)).map (swept env reasonOf now) } s' ∧
      Swept env reasonOf now tasks s s' := by
  induction tasks with
  | nil =>
    intro sweep s _ _
    refine ⟨s, by simp [sweepTasks], ?_⟩
    refine ⟨fun t ht => ?_, fun id _ => ⟨rfl, rfl⟩, fun t ht => ?_, rfl⟩
    · cases ht
    · cases ht
  | cons t tasks ih =>
    intro sweep s hnodup hstored
    obtain ⟨hfresh, hnodup⟩ := List.nodup_cons.mp hnodup
    have hget := hstored t List.mem_cons_self
    -- a row still to visit is not the one that was just replaced
    have hrest : ∀ (u : TaskRecord) (s₁ : State), u.id = t.id → s₁.tasks = s.tasks.set u →
        (∀ v ∈ tasks, s₁.tasks.get? v.id = some v) ∧ s₁.tasks.get? t.id = some u ∧
        ∀ id, id ≠ t.id → s₁.tasks.get? id = s.tasks.get? id := by
      intro u s₁ hid htasks
      have hother : ∀ id, id ≠ t.id → s₁.tasks.get? id = s.tasks.get? id := fun id hne => by
        rw [htasks, Table.get?_set_of_ne (by rw [show key u = t.id from hid]; exact hne.symm)]
      refine ⟨fun v hv => ?_, ?_, hother⟩
      · have hne : v.id ≠ t.id := fun he => hfresh (List.mem_map.mpr ⟨v, hv, he⟩)
        rw [hother v.id hne]
        exact hstored v (List.mem_cons_of_mem _ hv)
      · rw [htasks, ← hid]
        exact Table.get?_set_self
    unfold sweepTasks
    cases hreason : reasonOf t with
    | none =>
      obtain ⟨s', hrun, hswept⟩ := ih sweep s hnodup fun u hu => hstored u (List.mem_cons_of_mem _ hu)
      refine ⟨s', ?_, hswept.cons hfresh rfl ?_ (fun _ _ => ⟨rfl, rfl⟩) fun h => ?_⟩
      · simpa [requeueable, spent, hreason] using hrun
      · simpa [swept, hreason] using hget
      · simp [spent, hreason] at h
    | some reason =>
      dsimp only
      cases hspent : requeuesExhausted env t with
      | true =>
        have hswept : swept env reasonOf now t =
            t.deadLettered (requeueExhaustedError env t reason) now := by
          simp [swept, hreason, hspent]
        obtain ⟨s₁, tombstone, hrun₁, htasks, hworkers, htombs, hid, hstatus, hwhy⟩ :=
          deadLetterTask_spec env t reason now s
        obtain ⟨hstored₁, hself, hother⟩ := hrest (t.deadLettered _ now) s₁ rfl htasks
        obtain ⟨s', hrun, h⟩ := ih { sweep with deadLettered := sweep.deadLettered ++
          [t.deadLettered (requeueExhaustedError env t reason) now] } s₁ hnodup hstored₁
        refine ⟨s', ?_, h.cons hfresh hworkers (hswept ▸ hself) (fun id hne => ⟨hother id hne, ?_⟩)
          fun _ => ⟨tombstone, ?_, hstatus, hwhy⟩⟩
        · rw [if_pos rfl, bind_run_ok hrun₁, hrun]
          simp [requeueable, spent, hreason, hspent, hswept]
        · rw [htombs, Table.get?_set_of_ne (by rw [show key tombstone = t.id from hid]; exact hne.symm)]
        · rw [htombs, ← hid]
          exact Table.get?_set_self
      | false =>
        have hswept : swept env reasonOf now t = t.requeued now := by
          simp [swept, hreason, hspent]
        obtain ⟨s₁, hrun₁, htasks, hworkers, htombs⟩ := requeueTask_spec env t reason now s
        obtain ⟨hstored₁, hself, hother⟩ := hrest (t.requeued now) s₁ rfl htasks
        obtain ⟨s', hrun, h⟩ := ih { sweep with requeued := sweep.requeued ++ [t.requeued now] } s₁
          hnodup hstored₁
        refine ⟨s', ?_, h.cons hfresh hworkers (hswept ▸ hself)
          (fun id hne => ⟨hother id hne, by rw [htombs]⟩) fun h => ?_⟩
        · rw [if_neg (by simp), bind_run_ok hrun₁, hrun]
          simp [requeueable, spent, hreason, hspent, hswept]
        · simp [spent, hspent] at h

end

/-! ## One sweep -/

theorem emitTaskUpdates_run (reason : TaskUpdateReason) (tasks : List TaskRecord) (s : State) :
    ∃ updates, emitTaskUpdates reason tasks s = .ok () { s with taskUpdates := updates } := by
  induction tasks generalizing s with
  | nil => exact ⟨s.taskUpdates, rfl⟩
  | cons t tasks ih => exact ih { s with taskUpdates := (t, reason) :: s.taskUpdates }

/-- The time a sweep works with. -/
def sweepMs (env : Env) (s : State) (options : SweepOptions) : Int :=
  options.nowMs.getD (env.dateNow s.clockReads)

/-- Why a sweep from `s` finds a task stale. -/
def staleReason (env : Env) (s : State) (olderThanMs : Int) (options : SweepOptions)
    (t : TaskRecord) : Option String :=
  getTaskRequeueReason env t (max 0 olderThanMs)
    (sweepStaleWorkerIds env s options (sweepMs env s options)) (sweepMs env s options)

/-- What a sweep from `s` returns. -/
def sweepOf (env : Env) (s : State) (olderThanMs : Int) (options : SweepOptions) : Sweep :=
  let reasonOf := staleReason env s olderThanMs options
  let now := .iso (sweepMs env s options)
  { requeued := (s.tasks.rows.filter (requeueable env reasonOf)).map (swept env reasonOf now)
    deadLettered := (s.tasks.rows.filter (spent env reasonOf)).map (swept env reasonOf now) }

/-- A save, if there was one, at the end of a sweep. -/
structure Saved (s s' : State) : Prop where
  board : s.board.Pruned s'.board
  tombstones : s'.tombstones = s.tombstones
  workers : s'.workers.rows ⊆ s.workers.rows

theorem Saved.refl (s : State) : Saved s s := ⟨.refl _, rfl, List.Subset.refl _⟩

/-- The end of a sweep: a save where something was stale, then the updates. -/
theorem saveSweep_run (env : Env) (sweep : Sweep) (s : State) :
    let x : BrokerM Sweep := do
      doWhen (!sweep.requeued.isEmpty || !sweep.deadLettered.isEmpty) (persistState env)
      emitTaskUpdates .deadLettered sweep.deadLettered
      emitTaskUpdates .requeued sweep.requeued
      pure sweep
    Saved s (finalState (x s)) ∧ ∀ sweep' s', x s = .ok sweep' s' → sweep' = sweep := by
  have hsaved : ∀ c, Saved s (finalState (doWhen c (persistState env) s)) := by
    intro c
    cases c
    · exact .refl s
    · obtain ⟨htombs, hworkers⟩ := persistState_frame env s
      exact ⟨persistState_pruned env s, htombs, hworkers⟩
  have hsaved := hsaved (!sweep.requeued.isEmpty || !sweep.deadLettered.isEmpty)
  intro x
  cases hsave : doWhen (!sweep.requeued.isEmpty || !sweep.deadLettered.isEmpty)
      (persistState env) s with
  | error e s₂ =>
    rw [hsave] at hsaved
    have hx : x s = .error e s₂ := bind_run_error hsave
    rw [hx]
    refine ⟨hsaved, fun sweep' s' h => ?_⟩
    cases h
  | ok u s₂ =>
    rw [hsave] at hsaved
    obtain ⟨updates, hdead⟩ := emitTaskUpdates_run .deadLettered sweep.deadLettered s₂
    obtain ⟨updates', hrequeued⟩ := emitTaskUpdates_run .requeued sweep.requeued
      { s₂ with taskUpdates := updates }
    have hx : x s = .ok sweep { s₂ with taskUpdates := updates' } := by
      rw [show x = (_ >>= _) from rfl, bind_run_ok hsave, bind_run_ok hdead, bind_run_ok hrequeued]
      rfl
    rw [hx]
    refine ⟨⟨hsaved.board, hsaved.tombstones, hsaved.workers⟩, fun sweep' s' h => ?_⟩
    cases h
    rfl

/-- A sweep is the loop over the stored tasks, followed by its end. -/
theorem requeueStaleTasksDetailed_sweeps (env : Env) (s : State) (olderThanMs : Int)
    (options : SweepOptions) : ∃ s₁,
      Swept env (staleReason env s olderThanMs options) (.iso (sweepMs env s options))
        s.tasks.rows s s₁ ∧
      requeueStaleTasksDetailed env olderThanMs options s = (do
        let sweep := sweepOf env s olderThanMs options
        doWhen (!sweep.requeued.isEmpty || !sweep.deadLettered.isEmpty) (persistState env)
        emitTaskUpdates .deadLettered sweep.deadLettered
        emitTaskUpdates .requeued sweep.requeued
        pure sweep) s₁ := by
  obtain ⟨s₀, hnow, hrecords⟩ : ∃ s₀, sweepNow env options s = .ok (sweepMs env s options) s₀ ∧
      s₀.toRecords = s.toRecords := by
    unfold sweepNow sweepMs
    cases options.nowMs with
    | some ms => exact ⟨s, rfl, rfl⟩
    | none => exact ⟨s.ticked, rfl, rfl⟩
  have htasks : s₀.tasks = s.tasks := congrArg Records.tasks hrecords
  have hstale : sweepStaleWorkerIds env s₀ options (sweepMs env s options) =
      sweepStaleWorkerIds env s options (sweepMs env s options) := by
    unfold sweepStaleWorkerIds listStaleWorkerIds
    rw [hrecords]
  obtain ⟨s₁, hrun, hswept⟩ := sweepTasks_spec env (staleReason env s olderThanMs options)
    (.iso (sweepMs env s options)) s₀.tasks.rows {} s₀ s₀.tasks.nodup
    fun t ht => Table.get?_key_of_mem ht
  unfold requeueStaleTasksDetailed
  rw [bind_run_ok hnow, bind_run_ok (get_run s₀), hstale,
    show (fun t => getTaskRequeueReason env t _ _ _) = staleReason env s olderThanMs options from rfl,
    bind_run_ok hrun]
  rw [htasks] at hswept ⊢
  refine ⟨s₁, ⟨hswept.visited, fun id hid => ?_, hswept.buried, ?_⟩, ?_⟩
  · obtain ⟨htask, htomb⟩ := hswept.others id hid
    exact ⟨htask.trans (by rw [htasks]), htomb.trans (by rw [hrecords])⟩
  · exact hswept.workers.trans (by rw [hrecords])
  · simp only [List.nil_append]
    rfl

/-- A sweep is the loop over the stored tasks, followed by a save. -/
theorem requeueStaleTasksDetailed_run (env : Env) (s : State) (olderThanMs : Int)
    (options : SweepOptions) : ∃ s₁,
      Swept env (staleReason env s olderThanMs options) (.iso (sweepMs env s options))
        s.tasks.rows s s₁ ∧
      Saved s₁ (finalState (requeueStaleTasksDetailed env olderThanMs options s)) ∧
      ∀ sweep s', requeueStaleTasksDetailed env olderThanMs options s = .ok sweep s' →
        sweep = sweepOf env s olderThanMs options := by
  obtain ⟨s₁, hswept, hrun⟩ := requeueStaleTasksDetailed_sweeps env s olderThanMs options
  rw [hrun]
  exact ⟨s₁, hswept, saveSweep_run env (sweepOf env s olderThanMs options) s₁⟩

/-- A sweep that finds nothing stale does nothing. -/
theorem sweepTasks_none {reasonOf : TaskRecord → Option String} {now : Timestamp}
    {tasks : List TaskRecord} (sweep : Sweep) (s : State) (h : ∀ t ∈ tasks, reasonOf t = none) :
    sweepTasks env reasonOf now tasks sweep s = .ok sweep s := by
  induction tasks with
  | nil => rfl
  | cons t tasks ih =>
    unfold sweepTasks
    rw [h t List.mem_cons_self]
    exact ih fun u hu => h u (List.mem_cons_of_mem _ hu)

theorem requeueStaleTasksDetailed_none {olderThanMs ms : Int} {options : SweepOptions}
    (hnow : options.nowMs = some ms)
    (h : ∀ t ∈ s.tasks.rows, staleReason env s olderThanMs options t = none) :
    requeueStaleTasksDetailed env olderThanMs options s = .ok {} s := by
  have hms : sweepMs env s options = ms := by simp [sweepMs, hnow]
  have hrun : sweepNow env options s = .ok ms s := by simp [sweepNow, hnow]
  unfold staleReason at h
  rw [hms] at h
  unfold requeueStaleTasksDetailed
  rw [bind_run_ok hrun, bind_run_ok (get_run s), bind_run_ok (sweepTasks_none {} s h)]
  rfl

/-! ## A second sweep finds nothing -/

theorem getTaskRequeueReason_inactive {task : TaskRecord} {olderThanMs nowMs : Int}
    {stale : List String} (h : task.status.active = false) :
    getTaskRequeueReason env task olderThanMs stale nowMs = none := by
  simp [getTaskRequeueReason, h]

/-- Fewer stale workers make no more stale tasks. -/
theorem getTaskRequeueReason_mono {task : TaskRecord} {olderThanMs nowMs : Int}
    {stale stale' : List String} (hsub : stale' ⊆ stale)
    (h : getTaskRequeueReason env task olderThanMs stale nowMs = none) :
    getTaskRequeueReason env task olderThanMs stale' nowMs = none := by
  have hany : task.claimedBy.any (stale'.contains ·) = true →
      task.claimedBy.any (stale.contains ·) = true := by
    cases task.claimedBy with
    | none => exact id
    | some w => simpa using fun hw => hsub hw
  unfold getTaskRequeueReason at h ⊢
  split
  · rfl
  rename_i hactive
  rw [if_neg hactive] at h
  split
  · rfl
  rename_i hopen
  rw [if_neg hopen] at h
  split at h
  · cases h
  rename_i hworker
  rw [if_neg ?_]
  · exact h
  · intro hw
    obtain ⟨hclaimed, hw⟩ := Bool.and_eq_true_iff.mp hw
    exact hworker (Bool.and_eq_true_iff.mpr ⟨hclaimed, hany hw⟩)

theorem sweepStaleWorkerIds_mono {options options' : SweepOptions} {nowMs : Int}
    (hoptions : options'.workerOfflineAfterMs = options.workerOfflineAfterMs)
    (hworkers : s'.workers.rows ⊆ s.workers.rows) :
    sweepStaleWorkerIds env s' options' nowMs ⊆ sweepStaleWorkerIds env s options nowMs := by
  unfold sweepStaleWorkerIds
  rw [hoptions]
  cases options.workerOfflineAfterMs with
  | none => exact List.Subset.refl _
  | some ms =>
    dsimp only
    split
    · intro w hw
      obtain ⟨worker, hmem, hid⟩ := List.mem_map.mp hw
      obtain ⟨hrow, hstale⟩ := List.mem_filter.mp hmem
      exact List.mem_map.mpr ⟨worker, List.mem_filter.mpr ⟨hworkers hrow, hstale⟩, hid⟩
    · exact List.Subset.refl _

/-- What was requeued or dead-lettered is no longer with a worker. -/
theorem swept_inactive {reasonOf : TaskRecord → Option String} {now : Timestamp} {t : TaskRecord}
    (h : (reasonOf t).isSome = true) : (swept env reasonOf now t).status.active = false := by
  obtain ⟨reason, hreason⟩ := Option.isSome_iff_exists.mp h
  simp only [swept, hreason]
  split <;> rfl

/-! ## The law of the sweep -/

/-- What a sweep from `s` does. Retention may drop a terminal task in the save at its end. -/
structure SweepLaw (env : Env) (s : State) (olderThanMs : Int) (options : SweepOptions) : Prop where
  /-- No task appears. -/
  absent : ∀ id, s.tasks.get? id = none →
    (exec env s (.requeueStaleTasksDetailed olderThanMs options)).tasks.get? id = none
  /-- Only claimed and running tasks are stale. -/
  active : ∀ t, (staleReason env s olderThanMs options t).isSome = true → t.status.active = true
  /-- A task that is not stale is left alone. -/
  fresh : ∀ id t, s.tasks.get? id = some t → staleReason env s olderThanMs options t = none →
    (exec env s (.requeueStaleTasksDetailed olderThanMs options)).tasks.get? id = some t ∨
    t.status.terminal = true ∧
      (exec env s (.requeueStaleTasksDetailed olderThanMs options)).tasks.get? id = none
  /-- A stale task with requeues left goes back to the queue. -/
  requeued : ∀ id t, s.tasks.get? id = some t →
    (staleReason env s olderThanMs options t).isSome = true →
    (0 < env.config.maxRequeueAttempts → t.requeueCount.getD 0 < env.config.maxRequeueAttempts) →
    (exec env s (.requeueStaleTasksDetailed olderThanMs options)).tasks.get? id =
      some (t.requeued (.iso (sweepMs env s options)))
  /-- A stale task that used up its requeues is failed and buried. -/
  deadLettered : ∀ id t, s.tasks.get? id = some t →
    (staleReason env s olderThanMs options t).isSome = true → 0 < env.config.maxRequeueAttempts →
    env.config.maxRequeueAttempts ≤ t.requeueCount.getD 0 →
    Buried (exec env s (.requeueStaleTasksDetailed olderThanMs options)) id ∧
    ((exec env s (.requeueStaleTasksDetailed olderThanMs options)).tasks.get? id = none ∨
      ∃ t', (exec env s (.requeueStaleTasksDetailed olderThanMs options)).tasks.get? id = some t' ∧
        t'.status = .failed ∧ t'.error.bind (·.code) = some "exceeded_requeue_limit")
  /-- Every stale task is returned once, as requeued or as dead-lettered. -/
  returned : ∀ sweep s', requeueStaleTasksDetailed env olderThanMs options s = .ok sweep s' →
    ((sweep.requeued ++ sweep.deadLettered).map (·.id)).Nodup ∧
    ((sweep.requeued ++ sweep.deadLettered).map (·.id)).Perm
      ((s.tasks.rows.filter fun t => (staleReason env s olderThanMs options t).isSome).map (·.id))
  /-- A second sweep at the same time does nothing. -/
  repeated : exec env (exec env s (.requeueStaleTasksDetailed olderThanMs options))
      (.requeueStaleTasksDetailed olderThanMs { options with nowMs := some (sweepMs env s options) }) =
    exec env s (.requeueStaleTasksDetailed olderThanMs options)

theorem requeuesExhausted_eq_true {t : TaskRecord} : requeuesExhausted env t = true ↔
    0 < env.config.maxRequeueAttempts ∧ env.config.maxRequeueAttempts ≤ t.requeueCount.getD 0 := by
  simp [requeuesExhausted]

section
variable {s₁ : State} {olderThanMs : Int} {options : SweepOptions}

/-- What is stored after the sweep is what the loop left of it, unless retention dropped it. -/
theorem Saved.get?_task (h : Saved s₁ s') {id : String} {t : TaskRecord}
    (hget : s₁.tasks.get? id = some t) :
    s'.tasks.get? id = some t ∨ t.status.terminal = true ∧ s'.tasks.get? id = none := by
  obtain ⟨keep, htasks, hlive⟩ := h.board.tasks
  have htasks : s'.tasks = s₁.tasks.retain keep := htasks
  rw [htasks, Table.get?_retain, hget, Option.filter_some]
  split
  · exact .inl rfl
  · rename_i hdropped
    refine .inr ⟨?_, rfl⟩
    cases hterminal : t.status.terminal
    · exact absurd (hlive t (Table.mem_of_get? hget) hterminal) hdropped
    · rfl

theorem Saved.get?_of_some (h : Saved s₁ s') {id : String} {t : TaskRecord}
    (hget : s'.tasks.get? id = some t) : s₁.tasks.get? id = some t := by
  obtain ⟨keep, htasks, -⟩ := h.board.tasks
  have htasks : s'.tasks = s₁.tasks.retain keep := htasks
  rw [htasks] at hget
  exact (Table.get?_retain_eq_some.mp hget).1

theorem Swept.get? {reasonOf : TaskRecord → Option String} {now : Timestamp}
    (h : Swept env reasonOf now s.tasks.rows s s₁) (id : String) :
    s₁.tasks.get? id = (s.tasks.get? id).map (swept env reasonOf now) := by
  cases hget : s.tasks.get? id with
  | none =>
    refine (h.others id fun hid => ?_).1.trans hget
    obtain ⟨t, ht, rfl⟩ := List.mem_map.mp hid
    rw [Table.get?_key_of_mem ht] at hget
    cases hget
  | some t =>
    have hvisited := h.visited t (Table.mem_of_get? hget)
    rwa [show t.id = id from Table.key_of_get? hget] at hvisited

/-- Stale tasks split into those that may be requeued and those that are spent. -/
theorem stale_perm (reasonOf : TaskRecord → Option String) (now : Timestamp)
    (tasks : List TaskRecord) :
    (((tasks.filter (requeueable env reasonOf)).map (swept env reasonOf now) ++
      (tasks.filter (spent env reasonOf)).map (swept env reasonOf now)).map (·.id)).Perm
    ((tasks.filter fun t => (reasonOf t).isSome).map (·.id)) := by
  have hids : ∀ l : List TaskRecord, (l.map (swept env reasonOf now)).map (·.id) = l.map (·.id) := by
    intro l
    simp [swept_id]
  rw [List.map_append, hids, hids, ← List.map_append]
  refine List.Perm.map _ ?_
  have hsplit := List.filter_append_perm (fun t => !requeuesExhausted env t)
    (tasks.filter fun t => (reasonOf t).isSome)
  simp only [List.filter_filter, Bool.not_not] at hsplit
  have hrequeueable : requeueable env reasonOf =
      fun t => !requeuesExhausted env t && (reasonOf t).isSome :=
    funext fun t => Bool.and_comm _ _
  have hspent : spent env reasonOf = fun t => requeuesExhausted env t && (reasonOf t).isSome :=
    funext fun t => Bool.and_comm _ _
  rw [hrequeueable, hspent]
  exact hsplit

theorem sweepLaw (env : Env) (s : State) (olderThanMs : Int) (options : SweepOptions) :
    SweepLaw env s olderThanMs options := by
  obtain ⟨s₁, hswept, hsaved, hreturned⟩ :=
    requeueStaleTasksDetailed_run env s olderThanMs options
  have hexec : exec env s (.requeueStaleTasksDetailed olderThanMs options) =
      finalState (requeueStaleTasksDetailed env olderThanMs options s) := finalState_discard _ s
  rw [← hexec] at hsaved
  have hstored : ∀ {id t}, s.tasks.get? id = some t → s₁.tasks.get? id = some
      (swept env (staleReason env s olderThanMs options) (.iso (sweepMs env s options)) t) := by
    intro id t hget
    rw [hswept.get?, hget]
    rfl
  refine ⟨fun id hget => ?_, fun t ht => ?_, fun id t hget hfresh => ?_,
    fun id t hget hstale hbudget => ?_, fun id t hget hstale hcap hspent => ?_,
    fun sweep s' hrun => ?_, ?_⟩
  · have hnone := hswept.get? id
    rw [hget] at hnone
    cases hafter : (exec env s (.requeueStaleTasksDetailed olderThanMs options)).tasks.get? id with
    | none => rfl
    | some t =>
      rw [hsaved.get?_of_some hafter] at hnone
      cases hnone
  · obtain ⟨reason, hreason⟩ := Option.isSome_iff_exists.mp ht
    exact getTaskRequeueReason_active hreason
  · have h := hsaved.get?_task (hstored hget)
    simpa [swept, hfresh] using h
  · obtain ⟨reason, hreason⟩ := Option.isSome_iff_exists.mp hstale
    have hleft : requeuesExhausted env t = false := by
      rw [Bool.eq_false_iff]
      intro h
      obtain ⟨hcap, hle⟩ := requeuesExhausted_eq_true.mp h
      have hlt := hbudget hcap
      omega
    have h := hsaved.get?_task (hstored hget)
    simpa [swept, hreason, hleft, TaskRecord.requeued, TaskStatus.terminal] using h
  · obtain ⟨reason, hreason⟩ := Option.isSome_iff_exists.mp hstale
    have hexhausted := requeuesExhausted_eq_true.mpr ⟨hcap, hspent⟩
    constructor
    · obtain ⟨tombstone, htomb, hrest⟩ := hswept.buried t (Table.mem_of_get? hget)
        (by simp [spent, hreason, hexhausted])
      rw [show t.id = id from Table.key_of_get? hget] at htomb
      exact ⟨tombstone, by rw [hsaved.tombstones]; exact htomb, hrest⟩
    · have h := hsaved.get?_task (hstored hget)
      simp only [swept, hreason, hexhausted, if_true] at h
      rcases h with h | ⟨-, h⟩
      · exact .inr ⟨_, h, rfl, rfl⟩
      · exact .inl h
  · rw [hreturned sweep s' hrun]
    have hperm := @stale_perm env (staleReason env s olderThanMs options)
      (.iso (sweepMs env s options)) s.tasks.rows
    refine ⟨hperm.nodup_iff.mpr ?_, hperm⟩
    exact s.tasks.nodup.sublist (List.filter_sublist.map key)
  · generalize exec env s (.requeueStaleTasksDetailed olderThanMs options) = s' at hsaved ⊢
    show finalState (discard _ s') = s'
    rw [finalState_discard, requeueStaleTasksDetailed_none rfl]
    · rfl
    intro t ht
    have hget := hsaved.get?_of_some (Table.get?_key_of_mem ht)
    rw [hswept.get?] at hget
    obtain ⟨u, -, hu⟩ := Option.map_eq_some_iff.mp hget
    subst hu
    cases hreason : staleReason env s olderThanMs options u with
    | some reason =>
      exact getTaskRequeueReason_inactive (swept_inactive (by rw [hreason]; rfl))
    | none =>
      rw [show swept env (staleReason env s olderThanMs options) (.iso (sweepMs env s options)) u = u
        by simp [swept, hreason]]
      refine getTaskRequeueReason_mono (sweepStaleWorkerIds_mono rfl ?_) hreason
      exact hswept.workers ▸ hsaved.workers

end

/-- Along every run the counters and the log stay within the cap, and every sweep obeys its law. -/
theorem requeue_cap (env : Env) (ops : List Op) :
    (0 < env.config.maxRequeueAttempts →
      (∀ t ∈ (run env ops).tasks.rows, t.requeueCount.getD 0 ≤ env.config.maxRequeueAttempts) ∧
      ∀ id l, l <:+ (run env ops).board.events →
        requeuedSince id l ≤ env.config.maxRequeueAttempts) ∧
    ∀ olderThanMs options, SweepLaw env (run env ops) olderThanMs options :=
  ⟨fun hcap => ⟨(run_budget hcap ops).within, (run_budget hcap ops).logged⟩,
    sweepLaw env (run env ops)⟩

/-- A task that was requeued once, under a cap of one, and is with its worker again. -/
theorem requeue_cap_reclaimed :
    let env := Env.numbered { maxRequeueAttempts := 1 }
    let ops := claimRun "task" ++ [.requeueStaleTasksDetailed 0 {}, .claimTask "task" "worker"]
    ((run env ops).tasks.get? "task").any (fun t =>
      t.requeueCount == some 1 && (staleReason env (run env ops) 0 {} t).isSome) = true ∧
    (∀ t ∈ (run env ops).tasks.rows, t.requeueCount.getD 0 ≤ 1) ∧
    SweepLaw env (run env ops) 0 {} :=
  ⟨by decide +kernel, ((requeue_cap _ _).1 (by decide)).1, (requeue_cap _ _).2 0 {}⟩

/-- A sweep that requeues the stale task `b` also drops the task `a`, which was completed before: the
save at its end finds it too old to retain. -/
theorem sweep_drops_completed :
    let env := Env.numbered { retention := { terminalRetentionMs := 12, maxTerminalTasks := 0 } }
    let s := run env (claimRun "a" ++
      [.completeTask "a" "worker" none, createFor "b", .claimTask "b" "worker"])
    ¬∀ id t, s.tasks.get? id = some t → t.status.active = false →
      (exec env s (.requeueStaleTasksDetailed 0 {})).tasks.get? id = some t := by
  intro env s h
  have hdone : (s.tasks.get? "a").map (·.status) = some .succeeded := by decide +kernel
  have hgone : ((exec env s (.requeueStaleTasksDetailed 0 {})).tasks.get? "a").isSome = false := by
    decide +kernel
  obtain ⟨t, ht, hstatus⟩ := Option.map_eq_some_iff.mp hdone
  have hkept := h "a" t ht (by rw [hstatus]; rfl)
  rw [hkept] at hgone
  cases hgone

end A2ABroker
