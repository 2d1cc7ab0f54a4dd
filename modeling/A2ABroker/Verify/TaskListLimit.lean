import A2ABroker.Core.TaskList
import A2ABroker.Lib.Ranking
import A2ABroker.Verify.HotAudit

/-! # Limited task lists

A limited list is made of the map and of the rows that were updated last, and its first tasks are
those that were created last. A list of `n` tasks is right exactly when each of the `n` newest is in
the map or among the `n` matching rows that were updated last (`list_limit_iff`). -/

namespace A2ABroker

open Ranking

/-! ## The property -/

/-- A task of the map and the row under its id are the same, as the row stands or as it is read, and
different tasks were created at different times. -/
structure TaskMaps.Contents (m : TaskMaps) : Prop where
  common : ∀ task ∈ m.tasks.rows, ∀ row ∈ m.hot.rows, task.id = row.id →
    task = row ∨ task = normalizeTaskRecord row
  distinct : ∀ a ∈ m.tasks.rows ++ m.hot.rows, ∀ b ∈ m.tasks.rows ++ m.hot.rows, a.id ≠ b.id →
    a.createdAt.toText ≠ b.createdAt.toText

/-- The tasks of the map, and every row as it is read. -/
def TaskMaps.known (m : TaskMaps) : Table TaskRecord :=
  m.tasks.setAll (m.hot.rows.map normalizeTaskRecord)

def TaskMaps.newestTasks (m : TaskMaps) (filters : TaskQuery) : List TaskRecord :=
  sortedCopy sortNewestTextFirst (m.known.rows.filter (taskMatchesRuntimeFilters · filters))

inductive TaskRead where
  | list (filters : TaskQuery)
  | get (id : String)

def TaskMaps.read (m : TaskMaps) : TaskRead → TaskMaps
  | .list filters => (m.listTasks filters).2
  | .get id => (m.getTask id).2

def TaskQuery.upTo (filters : TaskQuery) (n : Nat) : TaskQuery :=
  { filters with limit := some (.fin n) }

def TaskQuery.unlimited (filters : TaskQuery) : TaskQuery := { filters with limit := none }

/-- The list of at most `n` tasks, and what reads before it change. -/
structure ListLimit (m : TaskMaps) (filters : TaskQuery) (n : Nat) : Prop where
  first : (m.listTasks (filters.upTo n)).1 = (m.listTasks filters.unlimited).1.take n
  newest : (m.listTasks (filters.upTo n)).1 = (m.newestTasks filters).take n
  limited (reads : List TaskRead) : ((reads.foldl TaskMaps.read m).listTasks (filters.upTo n)).1 =
    (m.listTasks (filters.upTo n)).1
  unlimited (reads : List TaskRead) :
    ((reads.foldl TaskMaps.read m).listTasks filters.unlimited).1 =
      (m.listTasks filters.unlimited).1
  task (reads : List TaskRead) (id : String) :
    ((reads.foldl TaskMaps.read m).getTask id).1 = (m.getTask id).1

/-! ## The condition -/

def newerTask (a b : TaskRecord) : Prop := b.createdAt.toText < a.createdAt.toText

instance : DecidableRel newerTask := fun _ _ => inferInstanceAs (Decidable (_ < _))

/-- Updated later, or at the same time under a smaller id. -/
def updatedBefore (a b : TaskRecord) : Prop :=
  b.updatedAt.toText < a.updatedAt.toText ∨
    a.updatedAt.toText = b.updatedAt.toText ∧ a.id < b.id

instance : DecidableRel updatedBefore := fun _ _ => inferInstanceAs (Decidable (_ ∨ _))

/-- Every matching task is in the map, or its row matches. Each one that fewer than `n` matching
tasks are newer than is in the map, or fewer than `n` matching rows were updated before its own. -/
structure NewestReached (m : TaskMaps) (filters : TaskQuery) (n : Nat) : Prop where
  stored : ∀ task ∈ m.known.rows, taskMatchesRuntimeFilters task filters = true →
    task ∈ m.tasks.rows ∨ ∃ row ∈ m.hot.rows, taskMatchesRuntimeFilters row filters = true ∧
      task = normalizeTaskRecord row
  newest : ∀ task ∈ m.known.rows, taskMatchesRuntimeFilters task filters = true →
    m.known.rows.countP (fun other =>
      taskMatchesRuntimeFilters other filters && newerTask other task) < n →
    task ∈ m.tasks.rows ∨ ∃ row ∈ m.hot.rows, taskMatchesRuntimeFilters row filters = true ∧
      m.hot.rows.countP (fun other =>
        taskMatchesRuntimeFilters other filters && updatedBefore other row) < n ∧
      task = normalizeTaskRecord row

/-! ## Orders -/

section

variable {α : Type} [Keyed α] {stamp : α → Timestamp}

instance : Std.Total (stampDescIdAsc stamp) where
  total a b := by
    rcases lt_trichotomy (stamp a).toText (stamp b).toText with h | h | h
    · exact .inr (.inl h)
    · rcases le_total (key a) (key b) with hk | hk
      · exact .inl (.inr ⟨h, hk⟩)
      · exact .inr (.inr ⟨h.symm, hk⟩)
    · exact .inl (.inl h)

instance : IsTrans α (stampDescIdAsc stamp) where
  trans a b c := by
    rintro (hab | ⟨hab, hkab⟩) (hbc | ⟨hbc, hkbc⟩)
    · exact .inl (hbc.trans hab)
    · exact .inl (hbc ▸ hab)
    · exact .inl (hab ▸ hbc)
    · exact .inr ⟨hab.trans hbc, hkab.trans hkbc⟩

end

instance : IsTrans TaskRecord newerTask where
  trans _ _ _ hab hbc := lt_trans (α := String) hbc hab

theorem newerTask_asymm (a b : TaskRecord) (h : newerTask a b) : ¬newerTask b a :=
  lt_asymm (α := String) h

theorem updatedBefore_asymm (a b : TaskRecord) (h : updatedBefore a b) : ¬updatedBefore b a := by
  rcases h with hab | ⟨hab, hkab⟩ <;> rintro (hba | ⟨hba, hkba⟩)
  · exact lt_asymm hab hba
  · exact absurd hba (ne_of_lt hab)
  · exact absurd hab (ne_of_lt hba)
  · exact lt_asymm hkab hkba

theorem sortedCopy_eq (tasks : List TaskRecord) :
    sortedCopy sortNewestTextFirst tasks = tasks.insertionSort newerTask := by
  have horder : (fun a b => sortNewestTextFirst b a ≠ .lt) = newerTask := by
    funext a b
    unfold sortNewestTextFirst newerTask
    split <;> simp_all
  unfold sortedCopy
  congr

theorem sortedCopy_pairwise {tasks : List TaskRecord}
    (h : tasks.Pairwise fun a b => newerTask a b ∨ newerTask b a) :
    (sortedCopy sortNewestTextFirst tasks).Pairwise newerTask := by
  rw [sortedCopy_eq]
  exact pairwise_insertionSort_of_apart h

/-- The list of tasks that were created at different times is the one order of them from new to
old. -/
theorem sortedCopy_newest {tasks sorted : List TaskRecord} (hperm : tasks.Perm sorted)
    (hsorted : sorted.Pairwise newerTask) : sortedCopy sortNewestTextFirst tasks = sorted := by
  have hapart : tasks.Pairwise fun a b => newerTask a b ∨ newerTask b a :=
    (hperm.pairwise_iff fun h => h.symm).mpr (hsorted.imp .inl)
  refine List.Perm.eq_of_pairwise (fun a b _ _ hab hba => absurd hba (newerTask_asymm a b hab))
    (sortedCopy_pairwise hapart) hsorted ?_
  rw [sortedCopy_eq]
  exact (List.perm_insertionSort _ tasks).trans hperm

/-! ## The repository -/

theorem normalizeRuntimeTaskListLimit_nat (n : Nat) :
    normalizeRuntimeTaskListLimit (some (.fin n)) = some n := by
  have hint : Rat.isInt (n : Rat) = true := by simp [Rat.isInt]
  have hpos : (0 : Rat) ≤ n := Rat.natCast_nonneg
  simp [normalizeRuntimeTaskListLimit, hint, hpos]

@[simp] theorem sliceTasks_sliceTasks (tasks : List TaskRecord) (n : Option Nat) :
    sliceTasks (sliceTasks tasks (n.filter (0 < ·))) n = sliceTasks tasks n := by
  cases n with
  | none => rfl
  | some n =>
    cases n with
    | zero => rfl
    | succ n => exact (List.take_take ..).trans (by rw [Nat.min_self]; rfl)

theorem mem_of_mem_sliceTasks {tasks : List TaskRecord} {n : Option Nat} {task : TaskRecord}
    (h : task ∈ sliceTasks tasks n) : task ∈ tasks := by
  cases n with
  | none => exact h
  | some n => exact List.mem_of_mem_take h

theorem mem_readHotTasksWhere {hot : Table TaskRecord} {filters : SqliteTaskHotTableFilters}
    {row : TaskRecord} (h : row ∈ readHotTasksWhere hot filters) :
    row ∈ hot.rows ∧ filters.clauses row = true :=
  Table.mem_select.mp (mem_of_mem_sliceTasks h)

/-- The columns that SQL tests. -/
def TaskQuery.hotFilters (filters : TaskQuery) (limit : Option Number) :
    SqliteTaskHotTableFilters :=
  { status := filters.status, targetNodeId := filters.targetNodeId, intent := filters.intent
    assignedWorkerId := filters.assignedWorkerId, taskOrigin := filters.taskOrigin, limit }

theorem taskMatches_hotFilters (row : TaskRecord) (filters : TaskQuery) (limit : Option Number) :
    taskMatchesRuntimeFilters row filters = ((filters.hotFilters limit).clauses row &&
      ((!truthy filters.exchangeId || row.exchangeId == filters.exchangeId) &&
        (!truthy filters.proposalId || row.proposalId == filters.proposalId) &&
        (!truthy filters.claimedBy || row.claimedBy == filters.claimedBy))) := by
  simp only [taskMatchesRuntimeFilters, taskMatchesFilters, TaskQuery.hotFilters,
    SqliteTaskHotTableFilters.clauses, truthy, Bool.not_false, Bool.true_or, Bool.true_and]
  ac_rfl

/-- The matching rows in the order of their last updates. -/
def TaskMaps.updatedRows (m : TaskMaps) (filters : TaskQuery) : List TaskRecord :=
  (m.hot.select (taskMatchesRuntimeFilters · filters) (stampDescIdAsc (·.updatedAt))).rows

/-- The rows are cut once. -/
theorem repository_listTasks (m : TaskMaps) (filters : TaskQuery) :
    SqliteTaskRuntimeRepository.listTasks m.hot filters =
      sliceTasks (m.updatedRows filters) (normalizeRuntimeTaskListLimit filters.limit) := by
  let canApplyLimit :=
    !truthy filters.exchangeId && !truthy filters.proposalId && !truthy filters.claimedBy
  let limit := if canApplyLimit then filters.limit else none
  show sliceTasks ((readHotTasksWhere m.hot (filters.hotFilters limit)).filter _) _ = _
  unfold readHotTasksWhere
  extract_lets rows
  have hselect : rows.filter (taskMatchesRuntimeFilters · filters) = m.updatedRows filters := by
    show ((m.hot.rows.filter (filters.hotFilters limit).clauses).insertionSort _).filter _ = _
    rw [filter_insertionSort, List.filter_filter]
    refine congrArg (List.insertionSort _) (List.filter_congr fun row _ => ?_)
    rw [taskMatches_hotFilters row filters limit, Bool.and_right_comm, Bool.and_self]
  cases hcan : canApplyLimit with
  | false =>
    have hlimit : (filters.hotFilters limit).limit = none := by
      show limit = none
      simp [limit, hcan]
    rw [hlimit, ← hselect]
    rfl
  | true =>
    have hlimit : (filters.hotFilters limit).limit = filters.limit := by
      show limit = filters.limit
      simp [limit, hcan]
    -- SQL has tested every filter.
    have hall : ∀ row ∈ rows, taskMatchesRuntimeFilters row filters = true := by
      intro row hrow
      have hclauses := (Table.mem_select.mp hrow).2
      simp only [canApplyLimit, Bool.and_eq_true] at hcan
      rw [taskMatches_hotFilters row filters limit, hclauses]
      simp [hcan]
    rw [List.filter_eq_self.mpr hall] at hselect
    rw [hlimit, List.filter_eq_self.mpr fun row hrow => hall row (mem_of_mem_sliceTasks hrow),
      sliceTasks_sliceTasks, hselect]

/-- A row that is read without its worker has the one it is targeted at. -/
theorem taskMatches_normalize {row : TaskRecord} {filters : TaskQuery}
    (h : taskMatchesRuntimeFilters row filters = true) :
    taskMatchesRuntimeFilters (normalizeTaskRecord row) filters = true := by
  unfold taskMatchesRuntimeFilters taskMatchesFilters at h ⊢
  simp only [normalizeTaskRecord]
  cases hworker : row.assignedWorkerId with
  | some worker => simpa [hworker] using h
  | none =>
    rw [hworker] at h
    cases hfilter : filters.assignedWorkerId with
    | none => simpa [hfilter, truthy] using h
    | some worker =>
      simp only [hfilter] at h ⊢
      simp_all

/-! ## Rows over the map -/

section

variable {m : TaskMaps} {filters : TaskQuery} {rows : List TaskRecord} {task : TaskRecord}
  {k : String}

/-- The map with rows as they are read. -/
def TaskMaps.overlaid (m : TaskMaps) (rows : List TaskRecord) : Table TaskRecord :=
  m.tasks.setAll (rows.map normalizeTaskRecord)

theorem TaskMaps.get?_overlaid (m : TaskMaps) (rows : List TaskRecord) (k : String) :
    (∃ row ∈ rows, row.id = k ∧ (m.overlaid rows).get? k = some (normalizeTaskRecord row)) ∨
      (∀ row ∈ rows, row.id ≠ k) ∧ (m.overlaid rows).get? k = m.tasks.get? k := by
  by_cases hk : ∃ row ∈ rows, row.id = k
  · obtain ⟨row, hrow, hid⟩ := hk
    obtain ⟨b, hb, -, hget⟩ := Table.exists_get?_setAll (t := m.tasks)
      ⟨_, List.mem_map_of_mem (f := normalizeTaskRecord) hrow, hid⟩
    obtain ⟨row', hrow', rfl⟩ := List.mem_map.mp hb
    exact .inl ⟨row', hrow', Table.key_of_get? hget, hget⟩
  · have hne : ∀ row ∈ rows, row.id ≠ k := fun row hrow hid => hk ⟨row, hrow, hid⟩
    refine .inr ⟨hne, Table.get?_setAll_of_ne fun b hb => ?_⟩
    obtain ⟨row, hrow, rfl⟩ := List.mem_map.mp hb
    exact hne row hrow

theorem TaskMaps.get?_known_of_row {row : TaskRecord} (hrow : row ∈ m.hot.rows) :
    m.known.get? row.id = some (normalizeTaskRecord row) := by
  rcases m.get?_overlaid m.hot.rows row.id with ⟨row', hrow', hid, hget⟩ | ⟨hne, -⟩
  · rw [← Table.eq_of_key_eq hrow' hrow hid]
    exact hid ▸ hget
  · exact absurd rfl (hne row hrow)

/-- A task under rows over the map stands for the known one with its id: it was created at the same
time, and it matches only what the known one matches. -/
theorem TaskMaps.Contents.known_of_overlaid (h : m.Contents)
    (hrows : ∀ row ∈ rows, row ∈ m.hot.rows) (hget : (m.overlaid rows).get? k = some task) :
    ∃ known, m.known.get? k = some known ∧ known.createdAt = task.createdAt ∧
      (taskMatchesRuntimeFilters task filters = true →
        taskMatchesRuntimeFilters known filters = true) := by
  rcases m.get?_overlaid rows k with ⟨row, hrow, rfl, hrowget⟩ | ⟨-, hmap⟩
  · cases hrowget.symm.trans hget
    exact ⟨_, get?_known_of_row (hrows row hrow), rfl, id⟩
  · rw [hmap] at hget
    obtain ⟨hmem, rfl⟩ := Table.get?_eq_some.mp hget
    rcases m.get?_overlaid m.hot.rows (key task) with ⟨row, hrow, hid, hknown⟩ | ⟨-, hknown⟩
    · refine ⟨_, hknown, ?_⟩
      rcases h.common task hmem row hrow hid.symm with rfl | rfl
      · exact ⟨rfl, taskMatches_normalize⟩
      · exact ⟨rfl, id⟩
    · exact ⟨task, hknown.trans hget, rfl, id⟩

/-- A known task is found over the map when the map has it, or a row that is read as it. -/
theorem TaskMaps.mem_overlaid (hrows : ∀ row ∈ rows, row ∈ m.hot.rows)
    (htask : task ∈ m.known.rows) : task ∈ (m.overlaid rows).rows ↔
      task ∈ m.tasks.rows ∨ ∃ row ∈ rows, task = normalizeTaskRecord row := by
  have hknown := Table.get?_key_of_mem htask
  rw [Table.mem_iff_get?]
  rcases m.get?_overlaid rows (key task) with ⟨row, hrow, hid, hget⟩ | ⟨hne, hget⟩
  · have hsame : task = normalizeTaskRecord row := by
      rw [← hid, get?_known_of_row (hrows row hrow)] at hknown
      exact (Option.some.inj hknown).symm
    exact iff_of_true (hget.trans (congrArg some hsame.symm)) (.inr ⟨row, hrow, hsame⟩)
  · rw [hget, ← Table.mem_iff_get?]
    refine ⟨.inl, fun h => h.resolve_right ?_⟩
    rintro ⟨row, hrow, rfl⟩
    exact hne row hrow rfl

/-! ## Lists -/

theorem TaskMaps.Contents.apart (h : m.Contents) {a b : TaskRecord} (ha : a ∈ m.known.rows)
    (hb : b ∈ m.known.rows) (hne : a.id ≠ b.id) : newerTask a b ∨ newerTask b a := by
  have hfrom : ∀ t ∈ m.known.rows, ∃ u ∈ m.tasks.rows ++ m.hot.rows, u.id = t.id ∧
      u.createdAt = t.createdAt := by
    intro t ht
    rcases (mem_overlaid (fun _ h => h) ht).mp ht with hmem | ⟨row, hrow, rfl⟩
    · exact ⟨t, List.mem_append_left _ hmem, rfl, rfl⟩
    · exact ⟨row, List.mem_append_right _ hrow, rfl, rfl⟩
  obtain ⟨u, hu, huid, hucreated⟩ := hfrom a ha
  obtain ⟨v, hv, hvid, hvcreated⟩ := hfrom b hb
  have hdistinct := h.distinct u hu v hv (by rwa [huid, hvid])
  rw [hucreated, hvcreated] at hdistinct
  exact (lt_or_gt_of_ne hdistinct).symm

theorem TaskMaps.Contents.pairwise_filter (h : m.Contents) :
    (m.known.rows.filter (taskMatchesRuntimeFilters · filters)).Pairwise
      fun a b => newerTask a b ∨ newerTask b a := by
  refine List.Pairwise.filter _ (List.Pairwise.imp_of_mem (fun ha hb hne => h.apart ha hb hne) ?_)
  exact List.pairwise_map.mp m.known.nodup

theorem TaskMaps.Contents.pairwise_newest (h : m.Contents) :
    (m.newestTasks filters).Pairwise newerTask :=
  sortedCopy_pairwise h.pairwise_filter

theorem TaskMaps.mem_newest : task ∈ m.newestTasks filters ↔
    task ∈ m.known.rows ∧ taskMatchesRuntimeFilters task filters = true := by
  rw [newestTasks, mem_sortedCopy, List.mem_filter]

/-- What a list that is made of rows over the map has in the place of a known task. -/
def TaskMaps.found (m : TaskMaps) (rows : List TaskRecord) (filters : TaskQuery)
    (known : TaskRecord) : Option TaskRecord :=
  ((m.overlaid rows).get? known.id).filter (taskMatchesRuntimeFilters · filters)

theorem TaskMaps.found_eq_some {known : TaskRecord} : m.found rows filters known = some task ↔
    (m.overlaid rows).get? known.id = some task ∧
      taskMatchesRuntimeFilters task filters = true := by
  rw [found, Option.filter_eq_some_iff]

theorem TaskMaps.Contents.found_createdAt (h : m.Contents)
    (hrows : ∀ row ∈ rows, row ∈ m.hot.rows) {known : TaskRecord} (hknown : known ∈ m.known.rows)
    (hfound : m.found rows filters known = some task) : known.createdAt = task.createdAt := by
  obtain ⟨known', hknown', hcreated, -⟩ :=
    @known_of_overlaid m filters rows task known.id h hrows (found_eq_some.mp hfound).1
  have hsame : known = known' :=
    Option.some.inj ((Table.get?_key_of_mem hknown).symm.trans hknown')
  exact hsame ▸ hcreated

theorem TaskMaps.Contents.listed_eq (h : m.Contents) (hrows : ∀ row ∈ rows, row ∈ m.hot.rows) :
    sortedCopy sortNewestTextFirst
        ((m.overlaid rows).rows.filter (taskMatchesRuntimeFilters · filters)) =
      (m.newestTasks filters).filterMap (m.found rows filters) := by
  have hsorted : ((m.newestTasks filters).filterMap (m.found rows filters)).Pairwise newerTask := by
    refine List.pairwise_filterMap.mpr (h.pairwise_newest.imp_of_mem ?_)
    intro a b ha hb hnewer a' ha' b' hb'
    unfold newerTask
    rw [← h.found_createdAt hrows (mem_newest.mp ha).1 ha',
      ← h.found_createdAt hrows (mem_newest.mp hb).1 hb']
    exact hnewer
  refine sortedCopy_newest ((List.perm_ext_iff_of_nodup ?_ ?_).mpr fun task => ?_) hsorted
  · exact (m.overlaid rows).nodup.of_map.filter _
  · refine hsorted.imp fun hab => ?_
    rintro rfl
    exact newerTask_asymm _ _ hab hab
  rw [List.mem_filter, List.mem_filterMap]
  constructor
  · rintro ⟨hmem, hmatches⟩
    have hget := Table.get?_key_of_mem hmem
    obtain ⟨known, hknown, -, hmatch⟩ := h.known_of_overlaid hrows hget
    obtain ⟨hkmem, hkey⟩ := Table.get?_eq_some.mp hknown
    have hid : known.id = key task := hkey
    exact ⟨known, mem_newest.mpr ⟨hkmem, hmatch hmatches⟩,
      found_eq_some.mpr ⟨hid ▸ hget, hmatches⟩⟩
  · rintro ⟨known, -, hfound⟩
    obtain ⟨hget, hmatches⟩ := found_eq_some.mp hfound
    exact ⟨Table.mem_of_get? hget, hmatches⟩

/-- A known task that the map has, or that one of the rows is read as. -/
def TaskMaps.Reaches (m : TaskMaps) (rows : List TaskRecord) (task : TaskRecord) : Prop :=
  task ∈ m.tasks.rows ∨ ∃ row ∈ rows, task = normalizeTaskRecord row

/-- The first `n` tasks of a list that is made of rows over the map are the `n` newest exactly when
these are reached. -/
theorem TaskMaps.Contents.take_listed_iff (h : m.Contents)
    (hrows : ∀ row ∈ rows, row ∈ m.hot.rows) (n : Nat) :
    (sortedCopy sortNewestTextFirst
        ((m.overlaid rows).rows.filter (taskMatchesRuntimeFilters · filters))).take n =
      (m.newestTasks filters).take n ↔
      ∀ task ∈ (m.newestTasks filters).take n, m.Reaches rows task := by
  have hnodup : ((m.newestTasks filters).map (·.id)).Nodup := by
    have hperm := (List.perm_insertionSort newerTask
      (m.known.rows.filter (taskMatchesRuntimeFilters · filters))).map (·.id)
    rw [newestTasks, sortedCopy_eq]
    exact hperm.nodup_iff.mpr (m.known.retain (taskMatchesRuntimeFilters · filters)).nodup
  rw [h.listed_eq hrows, take_filterMap_eq_iff hnodup]
  · refine forall₂_congr fun task htask => ?_
    obtain ⟨hknown, hmatches⟩ := mem_newest.mp (List.mem_of_mem_take htask)
    rw [found_eq_some, and_iff_left hmatches]
    exact Table.mem_iff_get?.symm.trans (mem_overlaid hrows hknown)
  · intro known _ task hfound
    exact Table.key_of_get? (found_eq_some.mp hfound).1

/-! ## The two lists -/

theorem TaskMaps.mem_updatedRows {row : TaskRecord} : row ∈ m.updatedRows filters ↔
    row ∈ m.hot.rows ∧ taskMatchesRuntimeFilters row filters = true :=
  Table.mem_select

theorem TaskMaps.listTasks_unlimited (m : TaskMaps) (filters : TaskQuery) :
    m.listTasks filters.unlimited = (sortedCopy sortNewestTextFirst
      ((m.overlaid (m.updatedRows filters)).rows.filter (taskMatchesRuntimeFilters · filters)),
      { m with tasks := m.overlaid (m.updatedRows filters) }) := by
  unfold listTasks
  rw [repository_listTasks]
  rfl

theorem TaskMaps.listTasks_upTo (m : TaskMaps) (filters : TaskQuery) (n : Nat) :
    m.listTasks (filters.upTo n) = ((sortedCopy sortNewestTextFirst
      ((m.overlaid ((m.updatedRows filters).take n)).rows.filter
        (taskMatchesRuntimeFilters · filters))).take n,
      { m with tasks := m.overlaid ((m.updatedRows filters).take n) }) := by
  unfold listTasks applyTaskListLimit
  rw [repository_listTasks, show (filters.upTo n).limit = some (.fin n) from rfl,
    normalizeRuntimeTaskListLimit_nat]
  rfl

theorem TaskMaps.Contents.upTo_iff (h : m.Contents) (n : Nat) :
    (m.listTasks (filters.upTo n)).1 = (m.newestTasks filters).take n ↔
      ∀ task ∈ (m.newestTasks filters).take n, m.Reaches ((m.updatedRows filters).take n) task := by
  rw [listTasks_upTo]
  exact h.take_listed_iff (fun row hrow => (mem_updatedRows.mp (List.mem_of_mem_take hrow)).1) n

theorem TaskMaps.Contents.unlimited_iff (h : m.Contents) :
    (m.listTasks filters.unlimited).1 = m.newestTasks filters ↔
      ∀ task ∈ m.newestTasks filters, m.Reaches (m.updatedRows filters) task := by
  rw [listTasks_unlimited]
  have hrows : ∀ row ∈ m.updatedRows filters, row ∈ m.hot.rows :=
    fun row hrow => (mem_updatedRows.mp hrow).1
  have hall := @take_listed_iff m filters _ h hrows (m.newestTasks filters).length
  have hlength : (sortedCopy sortNewestTextFirst ((m.overlaid (m.updatedRows filters)).rows.filter
      (taskMatchesRuntimeFilters · filters))).length ≤ (m.newestTasks filters).length := by
    rw [h.listed_eq hrows]
    exact List.length_filterMap_le ..
  rwa [List.take_of_length_le hlength, List.take_length] at hall

/-! ## Reads -/

theorem TaskMaps.getTask_writes (m : TaskMaps) (id : String) :
    ∃ rows, (∀ row ∈ rows, row ∈ m.hot.rows) ∧
      (m.getTask id).2 = { m with tasks := m.overlaid rows } := by
  unfold getTask
  cases hrow : SqliteTaskRuntimeRepository.getTask m.hot id with
  | none => exact ⟨[], by simp, rfl⟩
  | some row =>
    refine ⟨[row], fun row' hrow' => ?_, rfl⟩
    rw [List.mem_singleton.mp hrow']
    exact (mem_readHotTasksWhere (List.mem_of_mem_head? hrow)).1

theorem TaskMaps.listTasks_writes (m : TaskMaps) (filters : TaskQuery) :
    ∃ rows, (∀ row ∈ rows, row ∈ m.hot.rows) ∧
      (m.listTasks filters).2 = { m with tasks := m.overlaid rows } := by
  refine ⟨SqliteTaskRuntimeRepository.listTasks m.hot filters, fun row hrow => ?_, rfl⟩
  rw [repository_listTasks] at hrow
  exact (mem_updatedRows.mp (mem_of_mem_sliceTasks hrow)).1

/-- Reads put rows over the map and leave the table alone. -/
theorem TaskMaps.reads_writes (m : TaskMaps) (reads : List TaskRead) :
    ∃ rows, (∀ row ∈ rows, row ∈ m.hot.rows) ∧
      reads.foldl read m = { m with tasks := m.overlaid rows } := by
  induction reads generalizing m with
  | nil => exact ⟨[], by simp, rfl⟩
  | cons r reads ih =>
    have hstep : ∃ rows, (∀ row ∈ rows, row ∈ m.hot.rows) ∧
        m.read r = { m with tasks := m.overlaid rows } := by
      cases r with
      | list filters => exact m.listTasks_writes filters
      | get id => exact m.getTask_writes id
    obtain ⟨rows, hrows, hread⟩ := hstep
    obtain ⟨rows', hrows', hreads⟩ := ih (m.read r)
    rw [hread] at hrows' hreads
    refine ⟨rows ++ rows', fun row hrow => ?_, ?_⟩
    · exact (List.mem_append.mp hrow).elim (hrows row) (hrows' row)
    · rw [List.foldl_cons, hread, hreads]
      simp only [overlaid, List.map_append, Table.setAll, List.foldl_append]

/-- The map after reads. -/
structure TaskMaps.Follows (m m' : TaskMaps) : Prop where
  hot : m'.hot = m.hot
  tasks : ∃ rows, (∀ row ∈ rows, row ∈ m.hot.rows) ∧ m'.tasks = m.overlaid rows

variable {m' : TaskMaps}

theorem TaskMaps.follows_reads (m : TaskMaps) (reads : List TaskRead) :
    m.Follows (reads.foldl read m) := by
  obtain ⟨rows, hrows, hreads⟩ := m.reads_writes reads
  rw [hreads]
  exact ⟨rfl, rows, hrows, rfl⟩

theorem TaskMaps.Follows.get?_known (h : m.Follows m') (k : String) :
    m'.known.get? k = m.known.get? k := by
  obtain ⟨rows, hrows, htasks⟩ := h.tasks
  rcases m.get?_overlaid m.hot.rows k with ⟨row, hrow, rfl, hknown⟩ | ⟨hne, hknown⟩
  · rw [get?_known_of_row (h.hot ▸ hrow), get?_known_of_row hrow]
  · rcases m'.get?_overlaid m'.hot.rows k with ⟨row, hrow, hid, -⟩ | ⟨-, hknown'⟩
    · exact absurd hid (hne row (h.hot ▸ hrow))
    · refine hknown'.trans (Eq.trans ?_ hknown.symm)
      rw [htasks]
      rcases m.get?_overlaid rows k with ⟨row, hrow, hid, -⟩ | ⟨-, hget⟩
      · exact absurd hid (hne row (hrows row hrow))
      · exact hget

theorem TaskMaps.Follows.mem_known (h : m.Follows m') :
    task ∈ m'.known.rows ↔ task ∈ m.known.rows := by
  rw [Table.mem_iff_get?, Table.mem_iff_get?, h.get?_known]

theorem TaskMaps.Follows.newestTasks_eq (h : m.Follows m') (hc : m.Contents) :
    m'.newestTasks filters = m.newestTasks filters := by
  refine sortedCopy_newest ?_ hc.pairwise_newest
  refine (List.perm_ext_iff_of_nodup (m'.known.nodup.of_map.filter _) ?_).mpr fun task => ?_
  · refine hc.pairwise_newest.imp fun hab => ?_
    rintro rfl
    exact newerTask_asymm _ _ hab hab
  · rw [List.mem_filter, mem_newest, h.mem_known]

theorem TaskMaps.Follows.contents (h : m.Follows m') (hc : m.Contents) : m'.Contents := by
  obtain ⟨rows, hrows, htasks⟩ := h.tasks
  have hfrom : ∀ t ∈ m'.tasks.rows, t ∈ m.tasks.rows ∨
      ∃ row ∈ m.hot.rows, t = normalizeTaskRecord row := by
    intro t ht
    rw [htasks, Table.mem_iff_get?] at ht
    rcases m.get?_overlaid rows (key t) with ⟨row, hrow, -, hget⟩ | ⟨-, hget⟩
    · exact .inr ⟨row, hrows row hrow, Option.some.inj (ht.symm.trans hget)⟩
    · exact .inl (Table.mem_of_get? (hget.symm.trans ht))
  constructor
  · intro t ht row hrow hid
    rw [h.hot] at hrow
    rcases hfrom t ht with ht | ⟨row', hrow', rfl⟩
    · exact hc.common t ht row hrow hid
    · rw [Table.eq_of_key_eq hrow' hrow hid]
      exact .inr rfl
  · have hstamp : ∀ t ∈ m'.tasks.rows ++ m'.hot.rows, ∃ u ∈ m.tasks.rows ++ m.hot.rows,
        u.id = t.id ∧ u.createdAt = t.createdAt := by
      intro t ht
      rcases List.mem_append.mp ht with ht | ht
      · rcases hfrom t ht with ht | ⟨row, hrow, rfl⟩
        · exact ⟨t, List.mem_append_left _ ht, rfl, rfl⟩
        · exact ⟨row, List.mem_append_right _ hrow, rfl, rfl⟩
      · exact ⟨t, List.mem_append_right _ (h.hot ▸ ht), rfl, rfl⟩
    intro a ha b hb hne
    obtain ⟨u, hu, huid, hucreated⟩ := hstamp a ha
    obtain ⟨v, hv, hvid, hvcreated⟩ := hstamp b hb
    rw [← hucreated, ← hvcreated]
    exact hc.distinct u hu v hv (by rwa [huid, hvid])

theorem TaskMaps.Follows.reaches (h : m.Follows m') (htask : task ∈ m.known.rows)
    (hreaches : m.Reaches rows task) : m'.Reaches rows task := by
  refine hreaches.imp_left fun hmem => ?_
  obtain ⟨rows', hrows', htasks⟩ := h.tasks
  rw [htasks]
  exact (mem_overlaid hrows' htask).mpr (.inl hmem)

theorem TaskMaps.Follows.getTask_eq (h : m.Follows m') (id : String) :
    (m'.getTask id).1 = (m.getTask id).1 := by
  unfold getTask
  rw [h.hot]
  cases hrow : SqliteTaskRuntimeRepository.getTask m.hot id with
  | some row => rfl
  | none =>
    obtain ⟨rows, hrows, htasks⟩ := h.tasks
    have hnone : readHotTasksWhere m.hot { id := some id } = [] := List.head?_eq_none_iff.mp hrow
    show m'.tasks.get? id = m.tasks.get? id
    rw [htasks]
    rcases m.get?_overlaid rows id with ⟨row, hmem, hid, -⟩ | ⟨-, hget⟩
    · have hread : row ∈ readHotTasksWhere m.hot { id := some id } :=
        Table.mem_select.mpr ⟨hrows row hmem, by simp [SqliteTaskHotTableFilters.clauses, hid, truthy]⟩
      rw [hnone] at hread
      cases hread
    · exact hget

/-! ## Places -/

theorem TaskMaps.Contents.mem_take_newest (h : m.Contents) {n : Nat} :
    task ∈ (m.newestTasks filters).take n ↔
      (task ∈ m.known.rows ∧ taskMatchesRuntimeFilters task filters = true) ∧
        m.known.rows.countP (fun other =>
          taskMatchesRuntimeFilters other filters && newerTask other task) < n := by
  have hcount : (m.newestTasks filters).countP (fun other => newerTask other task) =
      m.known.rows.countP (fun other =>
        taskMatchesRuntimeFilters other filters && newerTask other task) := by
    rw [newestTasks, sortedCopy_eq, (List.perm_insertionSort ..).countP_eq, List.countP_filter]
    exact List.countP_congr fun other _ => by rw [Bool.and_comm]
  rw [← hcount, ← mem_newest]
  constructor
  · intro hmem
    have hnewest := List.mem_of_mem_take hmem
    exact ⟨hnewest, (mem_take_of_pairwise newerTask_asymm h.pairwise_newest hnewest).mp hmem⟩
  · rintro ⟨hnewest, hlt⟩
    exact (mem_take_of_pairwise newerTask_asymm h.pairwise_newest hnewest).mpr hlt

theorem TaskMaps.pairwise_updatedRows : (m.updatedRows filters).Pairwise updatedBefore := by
  have hsorted : (m.updatedRows filters).Pairwise (stampDescIdAsc (·.updatedAt)) :=
    List.pairwise_insertionSort ..
  have hids : (m.updatedRows filters).Pairwise fun a b => key a ≠ key b :=
    List.pairwise_map.mp (m.hot.select (taskMatchesRuntimeFilters · filters) _).nodup
  refine hsorted.imp₂ (fun a b hab hne => ?_) hids
  exact hab.imp_right fun ⟨heq, hle⟩ => ⟨heq, lt_of_le_of_ne hle hne⟩

theorem TaskMaps.mem_take_updatedRows {row : TaskRecord} {n : Nat} :
    row ∈ (m.updatedRows filters).take n ↔
      (row ∈ m.hot.rows ∧ taskMatchesRuntimeFilters row filters = true) ∧
        m.hot.rows.countP (fun other =>
          taskMatchesRuntimeFilters other filters && updatedBefore other row) < n := by
  have hcount : (m.updatedRows filters).countP (fun other => updatedBefore other row) =
      m.hot.rows.countP (fun other =>
        taskMatchesRuntimeFilters other filters && updatedBefore other row) := by
    have hperm : (m.updatedRows filters).Perm
        (m.hot.rows.filter (taskMatchesRuntimeFilters · filters)) := List.perm_insertionSort ..
    rw [hperm.countP_eq, List.countP_filter]
    exact List.countP_congr fun other _ => by rw [Bool.and_comm]
  rw [← hcount, ← mem_updatedRows]
  constructor
  · intro hmem
    have hrow := List.mem_of_mem_take hmem
    exact ⟨hrow, (mem_take_of_pairwise updatedBefore_asymm pairwise_updatedRows hrow).mp hmem⟩
  · rintro ⟨hrow, hlt⟩
    exact (mem_take_of_pairwise updatedBefore_asymm pairwise_updatedRows hrow).mpr hlt

theorem TaskMaps.Contents.newestReached_iff (h : m.Contents) (n : Nat) :
    NewestReached m filters n ↔
      (∀ task ∈ m.newestTasks filters, m.Reaches (m.updatedRows filters) task) ∧
        ∀ task ∈ (m.newestTasks filters).take n,
          m.Reaches ((m.updatedRows filters).take n) task := by
  constructor
  · intro hreached
    refine ⟨fun task htask => ?_, fun task htask => ?_⟩
    · obtain ⟨hknown, hmatches⟩ := mem_newest.mp htask
      refine (hreached.stored task hknown hmatches).imp_right ?_
      rintro ⟨row, hrow, hrowmatches, heq⟩
      exact ⟨row, mem_updatedRows.mpr ⟨hrow, hrowmatches⟩, heq⟩
    · obtain ⟨⟨hknown, hmatches⟩, hlt⟩ := h.mem_take_newest.mp htask
      refine (hreached.newest task hknown hmatches hlt).imp_right ?_
      rintro ⟨row, hrow, hrowmatches, hbefore, heq⟩
      exact ⟨row, mem_take_updatedRows.mpr ⟨⟨hrow, hrowmatches⟩, hbefore⟩, heq⟩
  · rintro ⟨hstored, hnewest⟩
    refine ⟨fun task hknown hmatches => ?_, fun task hknown hmatches hlt => ?_⟩
    · refine (hstored task (mem_newest.mpr ⟨hknown, hmatches⟩)).imp_right ?_
      rintro ⟨row, hrow, heq⟩
      obtain ⟨hrow, hrowmatches⟩ := mem_updatedRows.mp hrow
      exact ⟨row, hrow, hrowmatches, heq⟩
    · refine (hnewest task (h.mem_take_newest.mpr ⟨⟨hknown, hmatches⟩, hlt⟩)).imp_right ?_
      rintro ⟨row, hrow, heq⟩
      obtain ⟨⟨hrow, hrowmatches⟩, hbefore⟩ := mem_take_updatedRows.mp hrow
      exact ⟨row, hrow, hrowmatches, hbefore, heq⟩

end

/-- The lists after reads are the lists before them when the newest tasks are reached. -/
theorem TaskMaps.Follows.lists_eq {m m' : TaskMaps} {filters : TaskQuery} {n : Nat}
    (h : m.Follows m') (hc : m.Contents) (hreached : NewestReached m filters n) :
    (m'.listTasks (filters.upTo n)).1 = (m.newestTasks filters).take n ∧
      (m'.listTasks filters.unlimited).1 = m.newestTasks filters := by
  obtain ⟨hstored, hnewest⟩ := (hc.newestReached_iff n).mp hreached
  have hrows : m'.updatedRows filters = m.updatedRows filters := by
    unfold updatedRows
    rw [h.hot]
  rw [← h.newestTasks_eq hc]
  refine ⟨((h.contents hc).upTo_iff n).mpr ?_, (h.contents hc).unlimited_iff.mpr ?_⟩
  · rw [h.newestTasks_eq hc, hrows]
    exact fun task htask =>
      h.reaches (mem_newest.mp (List.mem_of_mem_take htask)).1 (hnewest task htask)
  · rw [h.newestTasks_eq hc, hrows]
    exact fun task htask => h.reaches (mem_newest.mp htask).1 (hstored task htask)

/-- After a list of everything, every known task is in the map. -/
theorem TaskMaps.Contents.unlimited_after_all {m : TaskMaps} (hc : m.Contents)
    (filters : TaskQuery) : ((m.read (.list {})).listTasks filters.unlimited).1 =
      m.newestTasks filters := by
  have hfollows : m.Follows (m.read (.list {})) := m.follows_reads [.list {}]
  rw [← hfollows.newestTasks_eq hc]
  refine (hfollows.contents hc).unlimited_iff.mpr fun task htask => .inl ?_
  rw [hfollows.newestTasks_eq hc] at htask
  have hknown := (mem_newest.mp htask).1
  have hmap : (m.read (.list {})).tasks = m.overlaid (m.updatedRows {}) :=
    congrArg (·.2.tasks) (m.listTasks_unlimited {})
  rw [hmap, mem_overlaid (fun row hrow => (mem_updatedRows.mp hrow).1) hknown]
  refine ((mem_overlaid (fun _ h => h) hknown).mp hknown).imp_right ?_
  rintro ⟨row, hrow, heq⟩
  refine ⟨row, mem_updatedRows.mpr ⟨hrow, ?_⟩, heq⟩
  simp [taskMatchesRuntimeFilters, taskMatchesFilters, truthy]

/-- A list of `n` tasks is right, and no read changes it, exactly when the `n` newest are in the map
or among the rows that were updated last. -/
theorem list_limit_iff (m : TaskMaps) (hc : m.Contents) (filters : TaskQuery) (n : Nat) :
    ListLimit m filters n ↔ NewestReached m filters n := by
  constructor
  · intro h
    have hall : (m.listTasks filters.unlimited).1 = m.newestTasks filters :=
      (h.unlimited [.list {}]).symm.trans (hc.unlimited_after_all filters)
    exact (hc.newestReached_iff n).mpr ⟨hc.unlimited_iff.mp hall, (hc.upTo_iff n).mp h.newest⟩
  · intro h
    obtain ⟨hupTo, hunlimited⟩ := (m.follows_reads []).lists_eq hc h
    refine ⟨?_, hupTo, fun reads => ?_, fun reads => ?_, fun reads id => ?_⟩
    · exact hupTo.trans (congrArg (List.take n) hunlimited.symm)
    · exact ((m.follows_reads reads).lists_eq hc h).1.trans hupTo.symm
    · exact ((m.follows_reads reads).lists_eq hc h).2.trans hunlimited.symm
    · exact (m.follows_reads reads).getTask_eq id

section Examples

def listedTask (id createdAt updatedAt : String) : TaskRecord where
  id
  exchangeId := none
  parentTaskId := none
  referenceTaskIds := []
  intent := .analyze
  requester := { id := "hub" }
  target := { id := "worker" }
  targetNodeId := "worker"
  assignedWorkerId := some "worker"
  workspace := none
  message := none
  proposalId := none
  artifactIds := []
  via := none
  policyContext := none
  payload := []
  status := .queued
  createdAt := .text createdAt
  updatedAt := .text updatedAt
  taskOrigin := .unknown
  brokerOfRecord := none
  teamId := none

/-- Nothing in the map, and the older of two stored tasks was updated last. -/
def storedPair : TaskMaps where
  hot := Table.empty.setAll
    [listedTask "old" "2026-01-01T00:00:00.000Z" "2026-01-03T00:00:00.000Z",
      listedTask "new" "2026-01-02T00:00:00.000Z" "2026-01-02T00:00:00.000Z"]

theorem storedPair_contents : storedPair.Contents where
  common := by
    intro task htask
    cases htask
  distinct := by decide

/-- The list of one task has the task that was updated last, not the newest. -/
theorem limit_drops_newest : storedPair.Contents ∧ ¬ListLimit storedPair {} 1 ∧
    (storedPair.listTasks ({ : TaskQuery }.upTo 1)).1.map (·.id) = ["old"] ∧
    (storedPair.listTasks { : TaskQuery }.unlimited).1.map (·.id) = ["new", "old"] := by
  have hlimited : (storedPair.listTasks ({ : TaskQuery }.upTo 1)).1.map (·.id) = ["old"] := by
    decide +kernel
  have hall : (storedPair.listTasks { : TaskQuery }.unlimited).1.map (·.id) = ["new", "old"] := by
    decide +kernel
  refine ⟨storedPair_contents, fun h => ?_, hlimited, hall⟩
  have hfirst := congrArg (List.map (·.id)) h.first
  rw [hlimited, List.map_take, hall] at hfirst
  exact absurd hfirst (by decide)

theorem list_limit_storedPair : ListLimit storedPair {} 2 ↔ NewestReached storedPair {} 2 :=
  list_limit_iff storedPair storedPair_contents {} 2

end Examples

end A2ABroker
