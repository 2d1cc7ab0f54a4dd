import A2ABroker.Verify.Stepwise
import A2ABroker.Verify.Durable

/-! # Live rows of the task table

A process saves into the database that it was loaded from, and a save may delete rows. Between two
operations every row that is not terminal has a live task in the maps (`Settled`); inside a block of an
operation the task may have ended, but it is then pending and young enough for the next retention pass
(`Busy`). A save therefore finds the ids of all live rows in its snapshot. -/

namespace A2ABroker

open Prog

/-! ## Databases -/

/-- Every row that is not terminal is still there. -/
def LiveRowsKept (t t' : Table TaskRecord) : Prop :=
  ∀ row ∈ t.rows, row.status.terminal = false → (t'.get? row.id).isSome

instance (t t' : Table TaskRecord) : Decidable (LiveRowsKept t t') :=
  inferInstanceAs (Decidable (∀ row ∈ t.rows, _))

theorem LiveRowsKept.refl (t : Table TaskRecord) : LiveRowsKept t t := by
  intro row hrow _
  have hget : t.get? row.id = some row := Table.get?_key_of_mem hrow
  rw [hget]
  rfl

/-- The number of rows that are not terminal. -/
def liveRows (t : Table TaskRecord) : Nat := t.rows.countP fun row => row.status.terminal == false

/-- No save of the process deleted a live row. -/
def Service.KeepsLive (v : Service) : Prop :=
  ∀ call calls, call :: calls <:+ v.broker.saves →
    LiveRowsKept (v.loaded.replay v.options calls).tables.tasks
      (v.loaded.replay v.options (call :: calls)).tables.tasks

/-- No live row is deleted in a step: not by a save of the operation, and not by a load. -/
def Service.StepKeepsLive (v : Service) : ServiceStep → Prop
  | .op op => (v.step (.op op)).KeepsLive
  | .restart env options =>
    LiveRowsKept v.store.tables.tasks (Service.boot env options v.store).loaded.tables.tasks

/-! ## Conditions -/

/-- From `start` to `final` the clock advances by no more than the retention window, a given time is
no older than that, and the store does not throw. -/
structure Timely (env : Env) (given : Option Int) (start final : State) : Prop where
  clock : ∀ i j, start.clockReads ≤ i → i ≤ j → j < final.clockReads →
    env.dateNow j - env.config.retention.terminalRetentionMs ≤ env.dateNow i
  given : ∀ ms j, given = some ms → start.clockReads ≤ j → j < final.clockReads →
    env.dateNow j - env.config.retention.terminalRetentionMs ≤ ms
  store : ∀ n, start.storeCalls ≤ n → n < final.storeCalls → env.storeThrows n = false

/-- The cap on the live tasks of a load is not reached, by the table or by a file to import. -/
structure LoadsLive (options : StoreOptions) (t : Table TaskRecord) : Prop where
  rows : liveRows t ≤ options.maxHotRuntimeNonTerminalTasks
  imported : ∀ snapshot, options.importJson = some snapshot →
    liveRows snapshot.tasks ≤ options.maxHotRuntimeNonTerminalTasks

def Service.Careful (v : Service) : ServiceStep → Prop
  | .op op => Timely v.env op.givenMs v.broker (exec v.env v.broker op)
  | .restart _ options => LoadsLive options v.store.tables.tasks

/-! ## The invariant -/

section
variable (loaded : Store) (options : StoreOptions)

/-- The live rows have live tasks, but for those whose task meets `young` and is pending. -/
structure Guarded (young : TaskRecord → Prop) (s : State) : Prop where
  kept : ∀ call calls, call :: calls <:+ s.saves →
    LiveRowsKept (loaded.replay options calls).tables.tasks
      (loaded.replay options (call :: calls)).tables.tasks
  current : ∀ {id t}, s.pending.tasks.get? id = some t → s.tasks.get? id = some t
  held : ∀ {id row}, (loaded.replay options s.saves).tables.tasks.get? id = some row →
    row.status.terminal = false → ∃ t, s.tasks.get? id = some t ∧
      (t.status.terminal = false ∨ s.pending.tasks.get? id = some t ∧ young t)

/-- The task ended, and no retention pass before the end of the operation finds it too old. -/
def EndedLately (env : Env) (final s : State) (t : TaskRecord) : Prop :=
  ∃ ms, t.completedAt = some (.iso ms) ∧ ∀ j, s.clockReads ≤ j → j < final.clockReads →
    env.dateNow j - env.config.retention.terminalRetentionMs ≤ ms

def Settled (start s : State) : Prop :=
  Reaches start s ∧ Guarded loaded options (fun _ => False) s

def Busy (env : Env) (start final s : State) : Prop :=
  Reaches start s ∧ Guarded loaded options (EndedLately env final s) s

end

section
variable {env : Env} {loaded : Store} {options : StoreOptions} {young young' : TaskRecord → Prop}
  {s s' start final : State} {given : Option Int}

theorem Guarded.mono (h : Guarded loaded options young s) (hyoung : ∀ t, young t → young' t) :
    Guarded loaded options young' s where
  kept := h.kept
  current := h.current
  held hrow hlive := by
    obtain ⟨t, ht, hcase⟩ := h.held hrow hlive
    exact ⟨t, ht, hcase.imp_right fun hend => ⟨hend.1, hyoung t hend.2⟩⟩

theorem Guarded.of_eq (h : Guarded loaded options young s) (htasks : s'.tasks = s.tasks)
    (hpending : s'.pending.tasks = s.pending.tasks) (hsaves : s'.saves = s.saves) :
    Guarded loaded options young s' := by
  obtain ⟨hkept, hcurrent, hheld⟩ := h
  constructor
  · rwa [hsaves]
  · rwa [htasks, hpending]
  · rwa [htasks, hpending, hsaves]

theorem EndedLately.later {t : TaskRecord} (h : EndedLately env final s t) (hle : s.clockReads ≤ s'.clockReads) :
    EndedLately env final s' t := by
  obtain ⟨ms, hend, hwindow⟩ := h
  exact ⟨ms, hend, fun j hj => hwindow j (hle.trans hj)⟩

theorem Settled.busy (h : Settled loaded options start s) : Busy loaded options env start final s :=
  ⟨h.1, h.2.mono fun _ => False.elim⟩

/-! ## A save -/

/-- A save keeps a task that is live, or young enough. -/
theorem Persisted.tasks_get? {call : StoreCall} {id : String} {t : TaskRecord}
    (h : Persisted env call s s') (hle : Reaches s' final) (ht : s.tasks.get? id = some t)
    (hcase : t.status.terminal = false ∨ EndedLately env final s t) : s'.tasks.get? id = some t := by
  rcases h.records with hrecords | ⟨j, hfrom, hto, hrecords⟩
  · rw [hrecords]
    exact ht
  · obtain ⟨hmem, rfl⟩ := Table.get?_eq_some.mp ht
    rw [hrecords]
    refine Table.get?_retain_eq_some.mpr ⟨ht, List.elem_iff.mpr ?_⟩
    rcases hcase with hlive | ⟨ms, hend, hwindow⟩
    · exact selectRetained_task hmem hlive
    · exact selectRetained_task_of_young hmem hend (hwindow j hfrom (hto.trans_le hle.reads))

theorem Guarded.persist {call : StoreCall} (h : Guarded loaded options (EndedLately env final s) s)
    (hp : Persisted env call s s') (hle : Reaches s' final) :
    Guarded loaded options (fun _ => False) s' := by
  have hwritten := (hp.written options (loaded.replay options s.saves)).tasks
  have hstays : ∀ {id row}, (loaded.replay options s.saves).tables.tasks.get? id = some row →
      row.status.terminal = false → ∃ t, s'.tasks.get? id = some t ∧
        (t.status.terminal = false ∨ s.pending.tasks.get? id = some t) := by
    intro id row hrow hlive
    obtain ⟨t, ht, hcase⟩ := h.held hrow hlive
    exact ⟨t, hp.tasks_get? hle ht (hcase.imp_right And.right), hcase.imp_right And.left⟩
  constructor
  · intro c calls hsuffix
    rw [hp.saves] at hsuffix
    rcases List.suffix_cons_iff.mp hsuffix with heq | hsuffix
    · cases heq
      intro row hrow hlive
      have hget := Table.get?_key_of_mem hrow
      obtain ⟨t, ht, -⟩ := hstays hget hlive
      exact hwritten.isSome (ht ▸ rfl) (hget ▸ rfl)
    · exact h.kept c calls hsuffix
  · intro id t hpending
    rw [hp.pending] at hpending
    cases hpending
  · intro id row hrow hlive
    rw [hp.saves] at hrow
    rcases hwritten.origin hrow with hkept | hpending | ⟨hdurable, hcase⟩
    · exact ⟨row, hkept, .inl hlive⟩
    · exact ⟨row, hp.tasks_get? hle (h.current hpending) (.inl hlive), .inl hlive⟩
    · obtain ⟨t, ht, hend⟩ := hstays hdurable hlive
      refine ⟨t, ht, .inl (hend.resolve_right fun hpending => ?_)⟩
      -- an ended task is pending and stays, so that its own record was written
      rcases hcase with hnone | hnone
      · cases hpending.symm.trans hnone
      · cases ht.symm.trans hnone

/-! ## Statements -/

/-- A save of a busy broker settles it. -/
theorem Busy.persist (hstore : env.config.store = .hot) (htime : Timely env given start final)
    (h : Busy loaded options env start final s)
    (hle : Reaches (finalState (persistState env s)) final) :
    Settled loaded options start (finalState (persistState env s)) := by
  have hok : env.storeThrows s.storeCalls = false := by
    refine htime.store _ h.1.calls (Nat.lt_of_lt_of_le (Nat.lt_succ_self _) ?_)
    exact (persistState_storeCalls hstore s).symm.trans_le hle.calls
  obtain ⟨call, s', hrun, hp⟩ := persistState_persisted hstore hok
  refine ⟨h.1.trans (persistState_reaches env s), ?_⟩
  rw [hrun] at hle ⊢
  exact h.2.persist hp hle

/-- Of the state, `I` reads the tasks, the pending ones and the saves. -/
def ReadsTasks (I : State → Prop) : Prop := ∀ s s', Reaches s s' → s'.tasks = s.tasks →
  s'.pending.tasks = s.pending.tasks → s'.saves = s.saves → I s → I s'

theorem ReadsTasks.upto {I : State → Prop} (hI : ReadsTasks I) (hreach : Reaches s s')
    (htasks : s'.tasks = s.tasks) (hpending : s'.pending.tasks = s.pending.tasks)
    (hsaves : s'.saves = s.saves) : Upto I final s s' :=
  ⟨hreach, fun _ => hI s s' hreach htasks hpending hsaves⟩

theorem ReadsTasks.framed {I : State → Prop} (hI : ReadsTasks I)
    (hpersist : ∀ s, Reaches (finalState (persistState env s)) final → I s →
      I (finalState (persistState env s))) : Framed env (Upto I final) where
  refl := .refl
  trans _ _ _ := .trans
  tick s := hI.upto ((framed_reaches env).tick s) rfl rfl rfl
  draw s := hI.upto ((framed_reaches env).draw s) rfl rfl rfl
  exchange e s := hI.upto ((framed_reaches env).exchange e s) rfl rfl rfl
  message m s := hI.upto ((framed_reaches env).message m s) rfl rfl rfl
  proposal p s := hI.upto ((framed_reaches env).proposal p s) rfl rfl rfl
  artifact a s := hI.upto ((framed_reaches env).artifact a s) rfl rfl rfl
  validation v s := hI.upto ((framed_reaches env).validation v s) rfl rfl rfl
  worker w s := hI.upto ((framed_reaches env).worker w s) rfl rfl rfl
  tombstone t s := hI.upto ((framed_reaches env).tombstone t s) rfl rfl rfl
  audit event s := by
    have hreach := (framed_reaches env).audit event s
    obtain ⟨_, _, _, _, hrun⟩ := recordAudit_run env event s
    rw [KeepsAt, hrun] at hreach ⊢
    exact hI.upto hreach rfl rfl rfl
  workerStamp s t := hI.upto ((framed_reaches env).workerStamp s t) rfl rfl rfl
  taskStamp s t := hI.upto ((framed_reaches env).taskStamp s t) rfl rfl rfl
  persist s := ⟨persistState_reaches env s, hpersist s⟩

theorem readsTasks_settled : ReadsTasks (Settled loaded options start) :=
  fun _ _ hreach htasks hpending hsaves h =>
    ⟨h.1.trans hreach, h.2.of_eq htasks hpending hsaves⟩

theorem readsTasks_busy : ReadsTasks (Busy loaded options env start final) := by
  intro s s' hreach htasks hpending hsaves h
  have hlater : Guarded loaded options (EndedLately env final s') s :=
    h.2.mono fun t ht => ht.later hreach.reads
  exact ⟨h.1.trans hreach, hlater.of_eq htasks hpending hsaves⟩

/-- What an operation stores keeps the broker busy. -/
theorem Busy.setTask (htime : Timely env given start final)
    (h : Busy loaded options env start final s) {t : TaskRecord}
    (ht : Stored env start.clockReads given s t) :
    Busy loaded options env start final (s.setTask t) := by
  refine ⟨h.1.trans (.of_eq rfl rfl rfl), h.2.kept, ?_, ?_⟩
  · intro id u hpending
    show (s.tasks.set t).get? id = some u
    replace hpending : (s.pending.tasks.set t).get? id = some u := hpending
    rw [Table.get?_set] at hpending ⊢
    split
    · rwa [if_pos ‹_›] at hpending
    · rw [if_neg ‹_›] at hpending
      exact h.2.current hpending
  · intro id row hrow hlive
    obtain ⟨u, hu, hcase⟩ := h.2.held hrow hlive
    show ∃ u, (s.tasks.set t).get? id = some u ∧ (u.status.terminal = false ∨
      (s.pending.tasks.set t).get? id = some u ∧ EndedLately env final s u)
    by_cases hid : t.id = id
    · subst hid
      refine ⟨t, Table.get?_set_self, ?_⟩
      have hpending : (s.pending.tasks.set t).get? t.id = some t := Table.get?_set_self
      cases ht with
      | live hlive => exact .inl hlive
      | edited u' hget hstatus hend =>
        cases hget.symm.trans hu
        rcases hcase with hlive | ⟨-, ms, hms, hwindow⟩
        · exact .inl (hstatus ▸ hlive)
        · exact .inr ⟨hpending, ms, hend.trans hms, hwindow⟩
      | ended k hstart hread hend =>
        exact .inr ⟨hpending, _, hend, fun j hj => htime.clock k j hstart (hread.le.trans hj)⟩
      | endedAt ms hgiven hend =>
        exact .inr ⟨hpending, ms, hend, fun j hj => htime.given ms j hgiven (h.1.reads.trans hj)⟩
    · rw [Table.get?_set_of_ne hid, Table.get?_set_of_ne hid]
      exact ⟨u, hu, hcase⟩

/-! ## Operations -/

theorem stepwise_settled (hstore : env.config.store = .hot)
    (htime : Timely env given start final) {Q : String → Prop} :
    Stepwise env (Stored env start.clockReads given) Q
      (Upto (Settled loaded options start) final) where
  toFramed := readsTasks_settled.framed fun _ hle h => h.busy.persist hstore htime hle
  clock _ _ h := h.1.reads
  emit s _ := readsTasks_settled.upto (.of_eq rfl rfl rfl) rfl rfl rfl
  touch s _ _ := readsTasks_settled.upto (.of_eq rfl rfl rfl) rfl rfl rfl
  save s x hx := by
    have hbusy : Framed env (Upto (Busy loaded options env start final) final) :=
      readsTasks_busy.framed fun _ hle h => (h.persist hstore htime hle).busy
    have hblock := hx.keeps _ hbusy fun s t ht => ⟨.of_eq rfl rfl rfl,
      fun _ h => h.setTask htime ht⟩
    obtain ⟨a, hrun⟩ := eq_ok_of_returned hx.returns
    have hreach := persistState_reaches env (finalState (x s))
    rw [KeepsAt, bind_run_ok hrun]
    refine ⟨hblock.1.trans hreach, fun hle h => ?_⟩
    exact (hblock.2 (hreach.trans hle) h.busy).persist hstore htime hle

theorem exec_settled (hstore : env.config.store = .hot) {op : Op}
    (htime : Timely env op.givenMs s (exec env s op))
    (h : Guarded loaded options (fun _ => False) s) :
    Guarded loaded options (fun _ => False) (exec env s op) := by
  have hR : Stepwise env _ op.Posts (Upto (Settled loaded options s) (exec env s op)) :=
    stepwise_settled hstore htime
  have hstep : Upto (Settled loaded options s) (exec env s op) s (exec env s op) := by
    by_cases hop : op.Reports
    · refine exec_reports hR.toFramed (fun s _ => ?_) (fun s _ => ?_) (fun s _ => ?_) hop
      · exact readsTasks_settled.upto (.of_eq rfl rfl rfl) rfl rfl rfl
      · exact readsTasks_settled.upto (.of_eq rfl rfl rfl) rfl rfl rfl
      · exact readsTasks_settled.upto (.of_eq rfl rfl rfl) rfl rfl rfl
    · exact exec_stepwise hR hop
  exact (hstep.2 (.refl _) ⟨.refl _, h⟩).2

end

/-! ## Loads -/

section
variable {env : Env} {options : StoreOptions} {store : Store} {snapshot : Snapshot}

theorem loadRecords_tasks : (loadRecords snapshot).tasks =
    Table.empty.setAll (snapshot.tasks.rows.map normalizeTaskRecord) := by
  have hroots : ∀ (es : List ExchangeState) (r : Records),
      (es.foldl addLegacyRoot r).tasks = r.tasks := by
    intro es
    induction es with
    | nil => exact fun r => rfl
    | cons e es ih =>
      intro r
      refine (ih _).trans ?_
      unfold addLegacyRoot
      split
      · rfl
      · rfl
  exact hroots _ _

/-- A retention pass keeps a live task. -/
theorem applyRetentionPolicy_tasks_get? {nowMs : Int} {r : Records} {id : String} {t : TaskRecord}
    (ht : r.tasks.get? id = some t) (hlive : t.status.terminal = false) :
    (applyRetentionPolicy env nowMs r).tasks.get? id = some t := by
  obtain ⟨hmem, rfl⟩ := Table.get?_eq_some.mp ht
  exact Table.get?_retain_eq_some.mpr ⟨ht, List.elem_iff.mpr (selectRetained_task hmem hlive)⟩

/-- A broker has the live tasks that it was constructed with. -/
theorem construct_tasks_get? {row : TaskRecord} (hrow : row ∈ snapshot.tasks.rows)
    (hlive : row.status.terminal = false) :
    (construct env snapshot).tasks.get? row.id = some (normalizeTaskRecord row) := by
  have hnodup : ((snapshot.tasks.rows.map normalizeTaskRecord).map key).Nodup := by
    rw [List.map_map]
    exact snapshot.tasks.nodup
  have hload : (loadRecords snapshot).tasks.get? row.id = some (normalizeTaskRecord row) := by
    rw [loadRecords_tasks]
    exact Table.get?_setAll_of_mem hnodup (List.mem_map_of_mem hrow)
  exact applyRetentionPolicy_tasks_get? (applyRetentionPolicy_tasks_get? hload hlive) hlive

/-- What a load leaves in the table, and what it returns of it. -/
theorem loadHotRuntimeSnapshot_live (h : LoadsLive options store.tables.tasks) :
    LiveRowsKept store.tables.tasks (store.loadHotRuntimeSnapshot options).2.tables.tasks ∧
      ∀ row ∈ (store.loadHotRuntimeSnapshot options).2.tables.tasks.rows,
        row.status.terminal = false → row ∈ (store.loadHotRuntimeSnapshot options).1.tasks.rows := by
  have hread : ∀ row ∈ store.tables.tasks.rows, row.status.terminal = false →
      row ∈ (readHotRuntimeSnapshot options store.tables).tasks.rows :=
    fun row hrow hlive => mem_readHotTasksForRuntime_of_live h.rows hrow hlive
  unfold Store.loadHotRuntimeSnapshot
  dsimp only
  split
  · exact ⟨.refl _, hread⟩
  · rename_i hnone
    split
    · exact ⟨.refl _, hread⟩
    · rename_i imported hsome
      have hempty : (readHotRuntimeSnapshot options store.tables).tasks.rows = [] := by
        simp only [Snapshot.hasRuntimeRows, Records.isEmpty, Bool.or_eq_true, not_or,
          Bool.not_eq_true, Bool.not_eq_false', Bool.and_eq_true] at hnone
        exact List.isEmpty_iff.mp hnone.1.1.1.1.1.2
      constructor
      · intro row hrow hlive
        have hmem := hread row hrow hlive
        rw [hempty] at hmem
        cases hmem
      · have hrows : (store.saveImported imported).tables.tasks.rows = imported.tasks.rows :=
          Table.rows_empty_setAll
        have hn : liveRows (store.saveImported imported).tables.tasks ≤
            options.maxHotRuntimeNonTerminalTasks := by
          rw [liveRows, hrows]
          exact h.imported imported hsome
        exact fun row hrow hlive => mem_readHotTasksForRuntime_of_live hn hrow hlive

/-- A process starts settled. -/
theorem boot_guarded (h : LoadsLive options store.tables.tasks) :
    Guarded (Service.boot env options store).loaded options (fun _ => False)
      (Service.boot env options store).broker where
  kept _ _ hsuffix := nomatch List.suffix_nil.mp hsuffix
  current hpending := nomatch hpending
  held {id row} hrow hlive := by
    obtain ⟨hmem, rfl⟩ := Table.get?_eq_some.mp hrow
    refine ⟨normalizeTaskRecord row, ?_, .inl hlive⟩
    exact construct_tasks_get? ((loadHotRuntimeSnapshot_live h).2 row hmem hlive) hlive

/-! ## Runs -/

/-- The broker of a service calls its store, and its live rows have live tasks. -/
def Service.Sound (v : Service) : Prop :=
  v.env.config.store = .hot ∧ Guarded v.loaded v.options (fun _ => False) v.broker

theorem boot_sound (h : LoadsLive options store.tables.tasks) :
    (Service.boot env options store).Sound := ⟨rfl, boot_guarded h⟩

theorem Service.Sound.step {v : Service} (hv : v.Sound) {i : ServiceStep} (hi : v.Careful i) :
    (v.step i).Sound := by
  cases i with
  | op op => exact ⟨hv.1, exec_settled hv.1 hi hv.2⟩
  | restart env options => exact boot_sound hi

theorem Service.Sound.keepsLive {v : Service} (hv : v.Sound) {i : ServiceStep} (hi : v.Careful i) :
    v.StepKeepsLive i := by
  cases i with
  | op op => exact (hv.step hi).2.kept
  | restart env options => exact (loadHotRuntimeSnapshot_live hi).1

end

/-- No step of a careful run deletes a live row: not the load it starts with, not a save, and not a
later load. -/
theorem live_rows_kept (env : Env) (options : StoreOptions) (store : Store)
    (steps : List ServiceStep) (hload : LoadsLive options store.tables.tasks)
    (hrun : Along Service.step (.boot env options store) Service.Careful steps) :
    LiveRowsKept store.tables.tasks (Service.boot env options store).loaded.tables.tasks ∧
      Along Service.step (.boot env options store) Service.StepKeepsLive steps := by
  refine ⟨(loadHotRuntimeSnapshot_live hload).1, fun ks i hk => ?_⟩
  have hsound : (ks.foldl Service.step (.boot env options store)).Sound := by
    have hbefore := (hrun.of_prefix hk).of_append
    exact Along.invariant hbefore (fun v i hi hv => hv.step hi) (boot_sound hload)
  exact hsound.keepsLive (hrun ks i hk)

/-! A worker, two tasks, and a restart after which one of the tasks is claimed. -/

/-- A process that is started later, whose clock reads every few minutes. -/
def Env.later : Env := { Env.numbered {} with
  dateNow n := 1000 + 200000 * n
  randomUUID n := "later-" ++ n.repr }

def restartRun (options : StoreOptions) : List ServiceStep :=
  [.op (.registerWorker { nodeId := "worker", role := .analyst }), .op (createFor "first"),
   .op (createFor "second"), .restart .later options, .op (.claimTask "second" "worker")]

/-- An operation of a few readings is careful. -/
theorem careful_op {v : Service} {op : Op} (n : Nat)
    (hreads : (exec v.env v.broker op).clockReads ≤ n)
    (hclock : ∀ i j, i ≤ j → j < n →
      v.env.dateNow j - v.env.config.retention.terminalRetentionMs ≤ v.env.dateNow i)
    (hgiven : op.givenMs = none) (hstore : ∀ k, v.env.storeThrows k = false) :
    v.Careful (.op op) where
  clock i j _ hij hj := hclock i j hij (hj.trans_le hreads)
  given _ _ hms := nomatch hgiven.symm.trans hms
  store k _ _ := hstore k

theorem numbered_clock : ∀ i j, i ≤ j → j < 100 →
    (Env.numbered {}).dateNow j - (7 * 24 * 60 * 60 * 1000 : Nat) ≤ (Env.numbered {}).dateNow i := by
  intro i j hij hj
  show (j : Int) - (7 * 24 * 60 * 60 * 1000 : Nat) ≤ (i : Int)
  omega

theorem later_clock : ∀ i j, i ≤ j → j < 100 →
    Env.later.dateNow j - (7 * 24 * 60 * 60 * 1000 : Nat) ≤ Env.later.dateNow i := by
  intro i j hij hj
  show (1000 + 200000 * j : Int) - (7 * 24 * 60 * 60 * 1000 : Nat) ≤ 1000 + 200000 * i
  omega

/-- With room for both tasks, nothing is lost. -/
theorem live_rows_kept_restart :
    LiveRowsKept ({} : Store).tables.tasks
      (Service.boot (Env.numbered {}) {} {}).loaded.tables.tasks ∧
    Along Service.step (.boot (Env.numbered {}) {} {}) Service.StepKeepsLive (restartRun {}) := by
  refine live_rows_kept (Env.numbered {}) {} {} (restartRun {})
    ⟨by decide +kernel, fun _ h => nomatch h⟩ ?_
  refine .cons (careful_op 100 (by decide +kernel) numbered_clock rfl fun _ => rfl) ?_
  refine .cons (careful_op 100 (by decide +kernel) numbered_clock rfl fun _ => rfl) ?_
  refine .cons (careful_op 100 (by decide +kernel) numbered_clock rfl fun _ => rfl) ?_
  refine .cons ⟨by decide +kernel, fun _ h => nomatch h⟩ ?_
  exact .cons (careful_op 100 (by decide +kernel) later_clock rfl fun _ => rfl) .nil

theorem Service.KeepsLive.last {v : Service} (h : v.KeepsLive) :
    LiveRowsKept (v.loaded.replay v.options v.broker.saves.tail).tables.tasks
      v.store.tables.tasks := by
  unfold Service.store
  cases hsaves : v.broker.saves with
  | nil => exact .refl _
  | cons call calls =>
    exact h call calls (hsaves ▸ List.suffix_refl _)

/-- A load of one live task, and a full save with a task among its hints: the row of the other task is
deleted while it is queued. -/
theorem capped_load_loses_live_row :
    ¬Along Service.step (.boot (Env.numbered {}) {} {}) Service.StepKeepsLive
      (restartRun { maxHotRuntimeNonTerminalTasks := 1 }) := by
  intro h
  have hkeeps := h _ (.op (.claimTask "second" "worker")) (List.prefix_refl
    (([.op (.registerWorker { nodeId := "worker", role := .analyst }), .op (createFor "first"),
      .op (createFor "second"), .restart .later { maxHotRuntimeNonTerminalTasks := 1 }] :
        List ServiceStep) ++ [.op (.claimTask "second" "worker")]))
  exact absurd (Service.KeepsLive.last hkeeps) (by decide +kernel)

end A2ABroker
