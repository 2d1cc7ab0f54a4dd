import A2ABroker.Lib.Walk
import A2ABroker.Verify.Refine.Broker

/-! # Cancel fan-out

`cancelTaskTree` is a depth-first walk along the `parentTaskId` links that removes the live tasks it
enters (`Walk`). It passes over a child that has ended, and with it over everything below that
child. -/

namespace A2ABroker

open Prog Relation

variable {env : Env} {s s' s₀ : State}

/-! ## Live tasks and their links -/

/-- The ids of the stored tasks that have not ended. -/
def liveTasks (s : State) : Set String :=
  { id | ∃ t, s.tasks.get? id = some t ∧ t.status.terminal = false }

/-- The task `b` names `a` as its parent. -/
def ChildOf (s : State) (a b : String) : Prop :=
  ∃ t, s.tasks.get? b = some t ∧ t.parentTaskId = some a

/-- The task is canceled: its tombstone says so, and so does its record if it is still retained. -/
structure Canceled (s : State) (id : String) : Prop where
  tombstone : ∃ tombstone, s.tombstones.get? id = some tombstone ∧
    tombstone.terminalStatus = .canceled ∧ tombstone.tombstoneReason = .canceled
  record : ∀ t, s.tasks.get? id = some t → t.status = .canceled

/-- Between two states tasks were canceled and nothing else happened to live ones. -/
structure Ended (s s' : State) : Prop where
  unchanged : ∀ id t, s'.tasks.get? id = some t → t.status.terminal = false →
    s.tasks.get? id = some t
  canceled : ∀ id, id ∈ liveTasks s → id ∉ liveTasks s' → Canceled s' id
  stays : ∀ id, Canceled s id → Canceled s' id

theorem Ended.refl (s : State) : Ended s s :=
  ⟨fun _ _ h _ => h, fun _ h h' => absurd h h', fun _ h => h⟩

theorem Ended.trans {s'' : State} (h : Ended s s') (h' : Ended s' s'') : Ended s s'' where
  unchanged id t hget hlive := h.unchanged id t (h'.unchanged id t hget hlive) hlive
  canceled id hlive hgone := by
    by_cases hmid : id ∈ liveTasks s'
    · exact h'.canceled id hmid hgone
    · exact h'.stays id (h.canceled id hlive hmid)
  stays id hid := h'.stays id (h.stays id hid)

/-! ## Canceling one task -/

/-- What a cancellation that returned left in the tables. -/
structure CanceledRecord (t : TaskRecord) (s s' : State) : Prop where
  task : ∃ (t' : TaskRecord) (keep : TaskRecord → Bool), t'.id = t.id ∧ t'.status = .canceled ∧
    s'.tasks = (s.tasks.set t').retain keep ∧
    ∀ u ∈ (s.tasks.set t').rows, u.status.terminal = false → keep u = true
  tombstone : ∃ tombstone : TaskTombstone, s'.tombstones = s.tombstones.set tombstone ∧
    tombstone.taskId = t.id ∧ tombstone.terminalStatus = .canceled ∧
    tombstone.tombstoneReason = .canceled

theorem cancelTaskRecord_tables {t : TaskRecord} {params : CancelParams}
    {r : TaskRecord × Option ExchangeState} (h : cancelTaskRecord env t params s = .ok r s') :
    CanceledRecord t s s' := by
  unfold cancelTaskRecord at h
  rw [bind_run_ok (isoNow_run env s)] at h
  generalize Timestamp.iso (env.dateNow s.clockReads) = now at h
  obtain ⟨left, s₁, -, hrun₁, -, -, -, hr₁⟩ := storeTask_board env (t.canceledBy params now)
    (some .queued) params.actorId .taskCanceled params.reason s.ticked
  have htasks₁ : s₁.board.tasks = s.tasks.set (t.canceledBy params now) := congrArg Records.tasks hr₁
  have htombs₁ : s₁.tombstones = s.tombstones := by rw [hr₁]; rfl
  rw [recordTransition_eq, bind_run_ok hrun₁] at h
  obtain ⟨_, s₂, hpublish, h⟩ := bind_eq_ok h
  obtain ⟨_, s₂', hpersist, hemit⟩ := bind_eq_ok hpublish
  cases hemit
  obtain ⟨keep, hkeep, hlive⟩ := (persistState_pruned_of_ok hpersist).tasks
  have hframe := persistState_frame env s₁
  rw [hpersist] at hframe
  obtain ⟨s₃, tombstone, n, hrun₃, -, hb₃, -, htombs, hid, hstatus, hreason⟩ :=
    writeTombstone_spec env (t.canceledBy params now) .canceled
      (some ⟨params.actorId, params.reason⟩)
      { s₂' with taskUpdates := (t.canceledBy params now, .canceled) :: s₂'.taskUpdates }
  rw [bind_run_ok hrun₃] at h
  obtain rfl : s₃ = s' := (EStateM.Result.ok.inj h).2
  rw [htasks₁] at hkeep hlive
  refine ⟨⟨t.canceledBy params now, keep, rfl, rfl, ?_, hlive⟩,
    ⟨tombstone, ?_, hid, hstatus, hreason⟩⟩
  · exact (congrArg Board.tasks hb₃).trans hkeep
  · rw [htombs, ← htombs₁]
    exact congrArg (Table.set · tombstone) hframe.1

section
variable {t : TaskRecord}

theorem CanceledRecord.get?_cases (h : CanceledRecord t s s') {id : String} {u : TaskRecord}
    (hu : s'.tasks.get? id = some u) :
    (id = t.id ∧ u.status = .canceled) ∨ (id ≠ t.id ∧ s.tasks.get? id = some u) := by
  obtain ⟨t', keep, hid, hstatus, htasks, -⟩ := h.task
  rw [htasks] at hu
  have hset := (Table.get?_retain_eq_some.mp hu).1
  rw [Table.get?_set, show key t' = t.id from hid] at hset
  split at hset
  · rename_i heq
    cases hset
    exact .inl ⟨heq.symm, hstatus⟩
  · rename_i hne
    exact .inr ⟨fun heq => hne heq.symm, hset⟩

/-- Another live task is still there. -/
theorem CanceledRecord.get?_live (h : CanceledRecord t s s') {id : String} {u : TaskRecord}
    (hne : id ≠ t.id) (hu : s.tasks.get? id = some u) (hlive : u.status.terminal = false) :
    s'.tasks.get? id = some u := by
  obtain ⟨t', keep, hid, -, htasks, hkeep⟩ := h.task
  have hset : (s.tasks.set t').get? id = some u := by
    rw [Table.get?_set_of_ne fun he => hne (he.symm.trans hid)]
    exact hu
  rw [htasks]
  exact Table.get?_retain_eq_some.mpr ⟨hset, hkeep u (Table.mem_of_get? hset) hlive⟩

theorem CanceledRecord.canceled (h : CanceledRecord t s s') : Canceled s' t.id := by
  obtain ⟨tombstone, htombs, hid, hstatus, hreason⟩ := h.tombstone
  refine ⟨⟨tombstone, ?_, hstatus, hreason⟩, fun u hu => ?_⟩
  · rw [htombs, ← hid]
    exact Table.get?_set_self
  · rcases h.get?_cases hu with ⟨-, hs⟩ | ⟨hne, -⟩
    · exact hs
    · exact absurd rfl hne

/-- The task is no longer live, and every other one is as it was. -/
theorem CanceledRecord.liveTasks_eq (h : CanceledRecord t s s') :
    liveTasks s' = liveTasks s \ {t.id} := by
  ext id
  constructor
  · rintro ⟨u, hu, hlive⟩
    rcases h.get?_cases hu with ⟨-, hs⟩ | ⟨hne, hu⟩
    · rw [hs] at hlive
      cases hlive
    · exact ⟨⟨u, hu, hlive⟩, hne⟩
  · rintro ⟨⟨u, hu, hlive⟩, hne⟩
    exact ⟨u, h.get?_live hne hu hlive, hlive⟩

theorem CanceledRecord.ended (h : CanceledRecord t s s') : Ended s s' where
  unchanged id u hu hlive := by
    rcases h.get?_cases hu with ⟨-, hs⟩ | ⟨-, hu⟩
    · rw [hs] at hlive
      cases hlive
    · exact hu
  canceled id hlive hgone := by
    rw [h.liveTasks_eq] at hgone
    by_cases heq : id = t.id
    · exact heq ▸ h.canceled
    · exact absurd ⟨hlive, heq⟩ hgone
  stays id hc := by
    by_cases heq : id = t.id
    · exact heq ▸ h.canceled
    obtain ⟨tombstone, htomb, hrest⟩ := hc.tombstone
    obtain ⟨mine, htombs, hid, -⟩ := h.tombstone
    refine ⟨⟨tombstone, ?_, hrest⟩, fun u hu => ?_⟩
    · rw [htombs, Table.get?_set_of_ne fun he => heq (he.symm.trans hid)]
      exact htomb
    · rcases h.get?_cases hu with ⟨-, hs⟩ | ⟨-, hu⟩
      · exact hs
      · exact hc.record u hu

end

/-! ## Counting live tasks -/

def liveIds (s : State) : List String :=
  (s.tasks.rows.filter fun t => !t.status.terminal).map key

theorem mem_liveIds {id : String} : id ∈ liveIds s ↔ id ∈ liveTasks s := by
  constructor
  · intro h
    obtain ⟨t, ht, rfl⟩ := List.mem_map.mp h
    obtain ⟨hrow, hlive⟩ := List.mem_filter.mp ht
    exact ⟨t, Table.get?_key_of_mem hrow, by simpa using hlive⟩
  · rintro ⟨t, ht, hlive⟩
    obtain ⟨hrow, rfl⟩ := Table.get?_eq_some.mp ht
    exact List.mem_map_of_mem (List.mem_filter.mpr ⟨hrow, by simpa using hlive⟩)

theorem nodup_liveIds (s : State) : (liveIds s).Nodup :=
  s.tasks.nodup.sublist (List.filter_sublist.map key)

theorem length_liveIds_le (s : State) : (liveIds s).length ≤ s.tasks.rows.length := by
  unfold liveIds
  rw [List.length_map]
  exact List.length_filter_le _ _

theorem length_liveIds_mono (h : liveTasks s' ⊆ liveTasks s) :
    (liveIds s').length ≤ (liveIds s).length :=
  (List.subperm_of_subset (nodup_liveIds s') fun _ hid =>
    mem_liveIds.mpr (h (mem_liveIds.mp hid))).length_le

/-- Without one of them, there is one live task less. -/
theorem length_liveIds_lt {id : String} (hid : id ∈ liveTasks s)
    (h : liveTasks s' = liveTasks s \ {id}) : (liveIds s').length < (liveIds s).length := by
  have hsub : liveIds s' ⊆ (liveIds s).erase id := by
    intro x hx
    obtain ⟨hlive, hne⟩ : x ∈ liveTasks s \ {id} := h ▸ mem_liveIds.mp hx
    exact (List.mem_erase_of_ne hne).mpr (mem_liveIds.mpr hlive)
  have hle := (List.subperm_of_subset (nodup_liveIds s') hsub).length_le
  have hmem := mem_liveIds.mpr hid
  have hpos := List.length_pos_of_mem hmem
  rw [List.length_erase_of_mem hmem] at hle
  omega

/-! ## The walk -/

/-- The records of live tasks are those of `s₀`, where the walk started. -/
def Agrees (s₀ s : State) : Prop :=
  ∀ id t, s.tasks.get? id = some t → t.status.terminal = false → s₀.tasks.get? id = some t

theorem Agrees.ended (h : Agrees s₀ s) (h' : Ended s s') : Agrees s₀ s' :=
  fun id t hget hlive => h id t (h'.unchanged id t hget hlive) hlive

/-- What a part of the walk that started at the tasks `F` did. -/
structure Walked (s₀ : State) (F : Set String) (s s' : State) (visited : List String) : Prop where
  walk : Walk (ChildOf s₀) F (liveTasks s) (liveTasks s')
  ended : Ended s s'
  visited : ∀ id ∈ visited, id ∉ liveTasks s'

/-- The children of a task, as the walk lists them. -/
theorem mem_listChildTasks {parent : String} {t : TaskRecord} :
    t ∈ listChildTasks s parent ↔ t ∈ s.tasks.rows ∧ t.parentTaskId = some parent := by
  simp [listChildTasks, mem_sortedCopy]

/-- A visit of a live task, with enough fuel left. -/
def Visits (s₀ : State) (n : Nat)
    (visit : TaskRecord → List String → BrokerM (List String)) : Prop :=
  ∀ s s' child visited visited', Agrees s₀ s → (liveIds s).length ≤ n →
    child.id ∈ liveTasks s → (∀ id ∈ visited, id ∉ liveTasks s) →
    visit child visited s = .ok visited' s' →
    Walked s₀ {child.id} s s' visited' ∧ child.id ∉ liveTasks s'

theorem cancelChildren_ok {n : Nat} {visit : TaskRecord → List String → BrokerM (List String)}
    (hvisit : Visits s₀ n visit) (children : List TaskRecord) :
    ∀ {s s' : State} {visited visited' : List String}, Agrees s₀ s → (liveIds s).length ≤ n →
      (∀ id ∈ visited, id ∉ liveTasks s) →
      cancelChildren visit children visited s = .ok visited' s' →
      Walked s₀ { id | ∃ child ∈ children, child.id = id } s s' visited' ∧
        ∀ child ∈ children, child.id ∉ liveTasks s' := by
  induction children with
  | nil =>
    intro s s' visited visited' _ _ hvisited h
    cases h
    refine ⟨⟨.refl, .refl s, hvisited⟩, fun child hchild => ?_⟩
    cases hchild
  | cons child children ih =>
    intro s s' visited visited' hagrees hfuel hvisited h
    have hsub : { id | ∃ c ∈ children, c.id = id } ⊆ { id | ∃ c ∈ child :: children, c.id = id } := by
      rintro id ⟨c, hc, hid⟩
      exact ⟨c, List.mem_cons_of_mem _ hc, hid⟩
    -- a child that is not live at its turn is passed over
    have hskip : child.id ∉ liveTasks s →
        cancelChildren visit children visited s = .ok visited' s' →
        Walked s₀ { id | ∃ c ∈ child :: children, c.id = id } s s' visited' ∧
          ∀ c ∈ child :: children, c.id ∉ liveTasks s' := by
      intro hended hrest
      obtain ⟨hwalked, hdone⟩ := ih hagrees hfuel hvisited hrest
      refine ⟨⟨hwalked.walk.mono hsub, hwalked.ended, hwalked.visited⟩, fun c hc => ?_⟩
      rcases List.mem_cons.mp hc with rfl | hc
      · exact fun hlive => hended (hwalked.walk.shrinks hlive)
      · exact hdone c hc
    unfold cancelChildren at h
    rw [bind_run_ok (get_run s)] at h
    cases hget : s.tasks.get? child.id with
    | none =>
      rw [hget] at h
      refine hskip (fun hlive => ?_) h
      obtain ⟨t, ht, -⟩ := hlive
      rw [hget] at ht
      cases ht
    | some task =>
      rw [hget] at h
      dsimp only at h
      cases hterminal : task.status.terminal with
      | true =>
        rw [if_pos hterminal] at h
        refine hskip ?_ h
        rintro ⟨t, ht, hlive⟩
        rw [hget] at ht
        cases ht
        rw [hterminal] at hlive
        cases hlive
      | false =>
        rw [if_neg (by rw [hterminal]; decide)] at h
        obtain ⟨visited₁, s₁, hone, hrest⟩ := bind_eq_ok h
        have hid : task.id = child.id := Table.key_of_get? hget
        have hlive : task.id ∈ liveTasks s := hid ▸ ⟨task, hget, hterminal⟩
        obtain ⟨hwalked₁, hgone⟩ :=
          hvisit s s₁ task visited visited₁ hagrees hfuel hlive hvisited hone
        obtain ⟨hwalked, hdone⟩ := ih (hagrees.ended hwalked₁.ended)
          ((length_liveIds_mono hwalked₁.walk.shrinks).trans hfuel) hwalked₁.visited hrest
        refine ⟨⟨(hwalked₁.walk.mono ?_).trans (hwalked.walk.mono hsub),
          hwalked₁.ended.trans hwalked.ended, hwalked.visited⟩, fun c hc => ?_⟩
        · rintro id rfl
          exact ⟨child, List.mem_cons_self, hid.symm⟩
        · rcases List.mem_cons.mp hc with rfl | hc
          · exact fun hlive => hgone (hid ▸ hwalked.walk.shrinks hlive)
          · exact hdone c hc

/-- The walk from a live task. -/
theorem cancelTaskTree_ok (fuel : Nat) : ∀ {t : TaskRecord} {params : CancelParams}
    {visited : List String} {s s' : State} {r : TaskRecord × List String}, Agrees s₀ s →
      (liveIds s).length ≤ fuel → t.id ∈ liveTasks s → (∀ id ∈ visited, id ∉ liveTasks s) →
      cancelTaskTree env fuel t params visited s = .ok r s' →
      Walked s₀ {t.id} s s' r.2 ∧ t.id ∉ liveTasks s' := by
  induction fuel with
  | zero =>
    intro t params visited s s' r _ hfuel hlive
    have hpos := List.length_pos_of_mem (mem_liveIds.mpr hlive)
    omega
  | succ fuel ih =>
    intro t params visited s s' r hagrees hfuel hlive hvisited h
    have hnew : ¬visited.contains t.id = true := fun hmem => hvisited t.id (by simpa using hmem) hlive
    unfold cancelTaskTree at h
    rw [if_neg hnew] at h
    obtain ⟨⟨canceled, left⟩, s₁, hrecord, h₁⟩ := bind_eq_ok h
    dsimp only at h₁
    rw [bind_run_ok (get_run s₁)] at h₁
    obtain ⟨visited', s₂, hchildren, h₂⟩ := bind_eq_ok h₁
    cases h₂
    have hrec := cancelTaskRecord_tables hrecord
    have hlive₁ := hrec.liveTasks_eq
    have hgone₁ : t.id ∉ liveTasks s₁ := by
      rw [hlive₁]
      exact fun h => h.2 rfl
    have hfuel₁ : (liveIds s₁).length ≤ fuel :=
      Nat.le_of_lt_succ (Nat.lt_of_lt_of_le (length_liveIds_lt hlive hlive₁) hfuel)
    have hagrees₁ := hagrees.ended hrec.ended
    have hvisits : Visits s₀ fuel (fun child visited => do
        let r ← cancelTaskTree env fuel child { params with sourceTaskId := some t.id } visited
        pure r.2) := by
      intro s s' child visited visited' hagrees hfuel hlive hvisited hrun
      obtain ⟨r, s₁, hrun₁, hrest⟩ := bind_eq_ok hrun
      cases hrest
      exact ih hagrees hfuel hlive hvisited hrun₁
    have hvisited₁ : ∀ id ∈ t.id :: visited, id ∉ liveTasks s₁ := by
      intro id hid hmem
      rw [hlive₁] at hmem
      rcases List.mem_cons.mp hid with rfl | hid
      · exact hmem.2 rfl
      · exact hvisited id hid hmem.1
    obtain ⟨hwalked, hdone⟩ := cancelChildren_ok hvisits _ hagrees₁ hfuel₁ hvisited₁ hchildren
    have hgone : t.id ∉ liveTasks s' := fun h => hgone₁ (hwalked.walk.shrinks h)
    refine ⟨⟨.node hlive (hlive₁ ▸ hwalked.walk) ?_ ?_, hrec.ended.trans hwalked.ended,
      hwalked.visited⟩, hgone⟩
    · rintro c ⟨child, hchild, rfl⟩ hc
      obtain ⟨hrow, hparent⟩ := mem_listChildTasks.mp hchild
      have hget := Table.get?_key_of_mem hrow
      obtain ⟨u, hu, hul⟩ : child.id ∈ liveTasks s₁ := hlive₁ ▸ hc
      obtain rfl : u = child := Option.some.inj (hu.symm.trans hget)
      exact ⟨u, hagrees₁ _ u hu hul, hparent⟩
    · rintro b ⟨u, hu, hparent⟩ hb
      obtain ⟨v, hv, hvl⟩ := hwalked.walk.shrinks hb
      obtain rfl : v = u := Option.some.inj ((hagrees₁ b v hv hvl).symm.trans hu)
      have hid : v.id = b := Table.key_of_get? hv
      exact hdone v (mem_listChildTasks.mpr ⟨Table.mem_of_get? hv, hparent⟩) (hid ▸ hb)

/-- The visit of a child in the walk from `t`. -/
theorem cancelTaskTree_visits {fuel : Nat} (params : CancelParams) :
    Visits s₀ fuel (fun child visited => do
      let (_, visited) ← cancelTaskTree env fuel child params visited
      pure visited) := by
  intro s s' child visited visited' hagrees hfuel hlive hvisited hrun
  obtain ⟨r, s₁, hrun₁, hrest⟩ := bind_eq_ok hrun
  cases hrest
  exact cancelTaskTree_ok fuel hagrees hfuel hlive hvisited hrun₁

/-! ## Fuel -/

theorem cancelChildren_congr {n : Nat}
    {visit visit' : TaskRecord → List String → BrokerM (List String)}
    (hvisit : ∀ s₀, Visits s₀ n visit)
    (heq : ∀ s child visited, (liveIds s).length ≤ n → child.id ∈ liveTasks s →
      (∀ id ∈ visited, id ∉ liveTasks s) → visit child visited s = visit' child visited s)
    (children : List TaskRecord) : ∀ {s : State} {visited : List String},
      (liveIds s).length ≤ n → (∀ id ∈ visited, id ∉ liveTasks s) →
      cancelChildren visit children visited s = cancelChildren visit' children visited s := by
  induction children with
  | nil => exact fun _ _ => rfl
  | cons child children ih =>
    intro s visited hfuel hvisited
    unfold cancelChildren
    rw [bind_run_ok (get_run s), bind_run_ok (get_run s)]
    cases hget : s.tasks.get? child.id with
    | none => exact ih hfuel hvisited
    | some task =>
      dsimp only
      cases hterminal : task.status.terminal with
      | true =>
        rw [if_pos rfl, if_pos rfl]
        exact ih hfuel hvisited
      | false =>
        rw [if_neg (by decide), if_neg (by decide), bind_run, bind_run]
        have hid : task.id = child.id := Table.key_of_get? hget
        have hlive : task.id ∈ liveTasks s := hid ▸ ⟨task, hget, hterminal⟩
        rw [← heq s task visited hfuel hlive hvisited]
        cases hrun : visit task visited s with
        | error e s' => rfl
        | ok visited' s' =>
          obtain ⟨hwalked, -⟩ := hvisit s s s' task visited visited' (fun _ _ hget _ => hget) hfuel
            hlive hvisited hrun
          exact ih ((length_liveIds_mono hwalked.walk.shrinks).trans hfuel) hwalked.visited

/-- With fuel for every live task, more of it changes nothing: the walk is the recursion of the
source. -/
theorem cancelTaskTree_fuel (fuel : Nat) : ∀ {fuel' : Nat} {t : TaskRecord} {params : CancelParams}
    {visited : List String} {s : State}, (liveIds s).length ≤ fuel → (liveIds s).length ≤ fuel' →
      t.id ∈ liveTasks s → (∀ id ∈ visited, id ∉ liveTasks s) →
      cancelTaskTree env fuel t params visited s = cancelTaskTree env fuel' t params visited s := by
  induction fuel with
  | zero =>
    intro fuel' t params visited s hfuel _ hlive
    have hpos := List.length_pos_of_mem (mem_liveIds.mpr hlive)
    omega
  | succ fuel ih =>
    intro fuel' t params visited s hfuel hfuel' hlive hvisited
    have hpos := List.length_pos_of_mem (mem_liveIds.mpr hlive)
    obtain ⟨fuel', rfl⟩ : ∃ n, fuel' = n + 1 := ⟨fuel' - 1, by omega⟩
    have hnew : ¬visited.contains t.id = true := fun hmem => hvisited t.id (by simpa using hmem) hlive
    unfold cancelTaskTree
    rw [if_neg hnew, if_neg hnew, bind_run, bind_run]
    cases hrecord : cancelTaskRecord env t params s with
    | error e s₁ => rfl
    | ok r s₁ =>
      have hlive₁ := (cancelTaskRecord_tables hrecord).liveTasks_eq
      have hlt := length_liveIds_lt hlive hlive₁
      have hvisited₁ : ∀ id ∈ t.id :: visited, id ∉ liveTasks s₁ := by
        intro id hid hmem
        rw [hlive₁] at hmem
        rcases List.mem_cons.mp hid with rfl | hid
        · exact hmem.2 rfl
        · exact hvisited id hid hmem.1
      dsimp only
      rw [bind_run_ok (get_run s₁), bind_run_ok (get_run s₁), bind_run, bind_run,
        cancelChildren_congr (n := (liveIds s₁).length) (fun s₀ => ?_) (fun s child visited hs hc hv => ?_)
          (listChildTasks s₁ t.id) (Nat.le_refl _) hvisited₁]
      · intro s s' child visited visited' hagrees hs
        exact cancelTaskTree_visits _ s s' child visited visited' hagrees (by omega)
      · rw [bind_run, bind_run, @ih fuel' _ _ _ _ (by omega) (by omega) hc hv]

/-! ## Fan-out -/

/-- A descendant of a task through the parent links. -/
def Descendant (s : State) (root id : String) : Prop := TransGen (ChildOf s) root id

/-- A task that is reached from another one through tasks that have not ended. -/
def LiveDescendant (s : State) (root id : String) : Prop :=
  ReflTransGen (LiveEdge (ChildOf s) (liveTasks s)) root id

/-- The walk from a live task of `s` cancels exactly what is reached through live tasks. -/
theorem cancelTree_ok {t t' : TaskRecord} {params : CancelParams} (hlive : t.id ∈ liveTasks s)
    (h : cancelTree env t params s = .ok t' s') :
    Ended s s' ∧ ∀ id ∈ liveTasks s, id ∉ liveTasks s' ↔ LiveDescendant s t.id id := by
  unfold cancelTree at h
  rw [bind_run_ok (get_run s)] at h
  obtain ⟨r, s₁, htree, hrest⟩ := bind_eq_ok h
  cases hrest
  have hfuel : (liveIds s).length ≤ s.tasks.rows.length + 1 :=
    (length_liveIds_le s).trans (Nat.le_succ _)
  have hagrees : Agrees s s := fun _ _ hget _ => hget
  obtain ⟨hwalked, hgone⟩ := cancelTaskTree_ok _ hagrees hfuel hlive
    (fun id hid => by cases hid) htree
  exact ⟨hwalked.ended, fun id hid => hwalked.walk.removed_iff hlive hgone hid⟩

/-- Every descendant that had not ended is canceled. -/
def FannedOut (s s' : State) (root : String) : Prop :=
  ∀ id t, Descendant s root id → s.tasks.get? id = some t → t.status.terminal = false →
    Canceled s' id

/-- A cancellation that returned reached every live descendant exactly when none of them is below an
ended task only. -/
theorem cancel_fanOut_iff {id : String} {request : TaskCancelRequest} {t t' : TaskRecord}
    (hget : s.tasks.get? id = some t) (hlive : t.status.terminal = false)
    (h : cancelTask env id request s = .ok t' s') :
    FannedOut s s' id ↔ ∀ d ∈ liveTasks s, Descendant s id d → LiveDescendant s id d := by
  unfold cancelTask at h
  obtain ⟨u, hu, h₁⟩ := (isGuard_requireTask id).bind_eq_ok h
  obtain rfl : u = t := Option.some.inj ((requireTask_ok hu).symm.trans hget)
  obtain ⟨_, -, h₂⟩ := (isGuard_refuseIf _ _ _).bind_eq_ok h₁
  obtain ⟨_, -, h₃⟩ := (isGuard_refuseIf _ _ _).bind_eq_ok h₂
  rw [if_neg (by rw [hlive]; decide)] at h₃
  have hid : u.id = id := Table.key_of_get? hget
  obtain ⟨hended, hremoved⟩ := cancelTree_ok (hid ▸ ⟨u, hget, hlive⟩) h₃
  rw [hid] at hremoved
  constructor
  · rintro hfan d ⟨v, hv, hvl⟩ hd
    refine (hremoved d ⟨v, hv, hvl⟩).mp ?_
    rintro ⟨w, hw, hwl⟩
    rw [(hfan d v hd hv hvl).record w hw] at hwl
    cases hwl
  · intro hreach d v hd hv hvl
    have hmem : d ∈ liveTasks s := ⟨v, hv, hvl⟩
    exact hended.canceled d hmem ((hremoved d hmem).mpr (hreach d hmem hd))

theorem Descendant.live {root id : String} (h : Descendant s root id)
    (hlive : ∀ t ∈ s.tasks.rows, t.status.terminal = false) : LiveDescendant s root id := by
  refine (TransGen.mono (fun a b hab => ?_) _ _ h).to_reflTransGen
  obtain ⟨t, hget, hparent⟩ := hab
  exact ⟨⟨t, hget, hparent⟩, t, hget, hlive t (Table.mem_of_get? hget)⟩

def createBelow (parent id : String) : Op :=
  .createTask { id := some id, intent := .analyze, requester := { id := "hub" }
                target := { id := "worker" }, parentTaskId := some parent }

/-- A task with a child and a grandchild. What happens to the child before it gets its own child is
left open. -/
def familyRun (child : List Op) : List Op :=
  [.registerWorker { nodeId := "worker", role := .analyst }, createFor "root",
    createBelow "root" "child"] ++ child ++ [createBelow "child" "grandchild"]

def cancelRequest : TaskCancelRequest := { actor := { id := "hub", role := some .hub } }

theorem cancel_fanOut_iff_family :
    let env := Env.numbered {}
    let s := run env (familyRun [])
    FannedOut s (exec env s (.cancelTask "root" cancelRequest)) "root" := by
  intro env s
  obtain ⟨t', hrun⟩ := eq_ok_of_returned (x := cancelTask env "root" cancelRequest) (s := s)
    (by decide +kernel)
  have hqueued : (s.tasks.get? "root").map (·.status) = some .queued := by decide +kernel
  obtain ⟨t, hget, hstatus⟩ := Option.map_eq_some_iff.mp hqueued
  have hlive : ∀ u ∈ s.tasks.rows, u.status.terminal = false := by decide +kernel
  have hexec : exec env s (.cancelTask "root" cancelRequest) =
      finalState (cancelTask env "root" cancelRequest s) := finalState_discard _ s
  rw [hexec]
  exact (cancel_fanOut_iff hget (by rw [hstatus]; rfl) hrun).mpr fun d _ hd => hd.live hlive

/-- A child that was completed hides its own child from the walk. -/
theorem cancel_misses_grandchild :
    let env := Env.numbered {}
    let s := run env (familyRun [.claimTask "child" "worker", .completeTask "child" "worker" none])
    (∃ t, s.tasks.get? "root" = some t ∧ t.status.terminal = false) ∧
    (∃ t', cancelTask env "root" cancelRequest s =
      .ok t' (exec env s (.cancelTask "root" cancelRequest))) ∧
    ¬FannedOut s (exec env s (.cancelTask "root" cancelRequest)) "root" := by
  intro env s
  have hexec : exec env s (.cancelTask "root" cancelRequest) =
      finalState (cancelTask env "root" cancelRequest s) := finalState_discard _ s
  have hroot : (s.tasks.get? "root").map (·.status.terminal) = some false := by decide +kernel
  have hchild : (s.tasks.get? "child").map (·.parentTaskId) = some (some "root") := by
    decide +kernel
  have hgrandchild : (s.tasks.get? "grandchild").map (fun t => (t.parentTaskId, t.status.terminal)) =
      some (some "child", false) := by decide +kernel
  have hafter : ((exec env s (.cancelTask "root" cancelRequest)).tasks.get? "grandchild").map
      (·.status) = some .queued := by decide +kernel
  refine ⟨Option.map_eq_some_iff.mp hroot, ?_, fun hfan => ?_⟩
  · rw [hexec]
    exact eq_ok_of_returned (by decide +kernel)
  · obtain ⟨c, hc, hcparent⟩ := Option.map_eq_some_iff.mp hchild
    obtain ⟨g, hg, hgfields⟩ := Option.map_eq_some_iff.mp hgrandchild
    obtain ⟨hgparent, hglive⟩ := Prod.mk.inj hgfields
    obtain ⟨g', hg', hqueued⟩ := Option.map_eq_some_iff.mp hafter
    have hbelow : Descendant s "root" "grandchild" :=
      .tail (.single ⟨c, hc, hcparent⟩) ⟨g, hg, hgparent⟩
    have hcanceled := (hfan "grandchild" g hbelow hg hglive).record g' hg'
    rw [hqueued] at hcanceled
    cases hcanceled

end A2ABroker
