import A2ABroker.Server.TaskEvents
import A2ABroker.Verify.TaskStream

/-! # Resuming the event stream of a task

A connection is sent a replay, a snapshot and then the updates of the task, one for one
(`Written`). The snapshot is numbered by the length of the buffer. That is the number of the last
update as long as the buffer holds every update, and exactly then a client may resume from the last
id that it received (`resumes_iff`). -/

namespace A2ABroker

namespace TaskEvents

variable {env : Env} {max : Nat} {sys sys' : System} {st st' : TaskStreams} {id : String}
  {header : Option String} {n : Nat}

/-! ## Numbered updates -/

section
variable {E : List TaskUpdate} {u : TaskUpdate}

theorem pairwise_seq (h : E.map (·.seq) = List.range' 1 E.length) :
    E.Pairwise fun u v => u.seq < v.seq := by
  have hlt : (E.map (·.seq)).Pairwise (· < ·) := h ▸ List.pairwise_lt_range'
  exact List.pairwise_map.mp hlt

theorem seq_le_of_mem_take (h : E.map (·.seq) = List.range' 1 E.length) (hu : u ∈ E.take n) :
    u.seq ≤ n := by
  obtain ⟨i, hi, rfl⟩ := List.mem_take_iff_getElem.mp hu
  have hi : i < n ∧ i < E.length := Nat.lt_min.mp hi
  have hseq : (E.map (·.seq))[i]? = some E[i].seq := by
    rw [List.getElem?_map, List.getElem?_eq_getElem hi.2, Option.map_some]
  rw [h, List.getElem?_range' hi.2] at hseq
  have := Option.some.inj hseq
  omega

theorem lt_seq_of_mem_drop (h : E.map (·.seq) = List.range' 1 E.length) (hu : u ∈ E.drop n) :
    n < u.seq := by
  have hmem : u.seq ∈ (E.map (·.seq)).drop n := by
    rw [← List.map_drop]
    exact List.mem_map_of_mem hu
  rw [h, List.drop_range'] at hmem
  have := List.mem_range'_1.mp hmem
  omega

end

/-- The number of the last update is the number of updates. -/
theorem lastSeq_eq (h : TaskStreams.Synced max st id) :
    lastSeq st id = (st.emittedFor id).length := by
  rw [lastSeq, ← List.getLast?_map, h.seqs, List.getLast?_range']
  cases (st.emittedFor id).length with
  | zero => rfl
  | succ n => simp

/-! ## Calls -/

/-- The streams differ in their listeners only. -/
structure SameUpdates (st st' : TaskStreams) : Prop where
  emitted : st'.emitted = st.emitted
  seqs : st'.taskEventSeqs = st.taskEventSeqs
  buffers : st'.taskEventBuffers = st.taskEventBuffers

theorem SameUpdates.emittedFor (h : SameUpdates st st') (id : String) :
    st'.emittedFor id = st.emittedFor id := by
  rw [TaskStreams.emittedFor, h.emitted, TaskStreams.emittedFor]

theorem SameUpdates.synced (h : SameUpdates st st') (hs : TaskStreams.Synced max st id) :
    TaskStreams.Synced max st' id where
  seqs := h.emittedFor id ▸ hs.seqs
  last := by rw [h.seqs, hs.last, h.emittedFor]
  buffer := by rw [h.buffers, hs.buffer, h.emittedFor]

/-- Connections of one task end their subscriptions. -/
theorem foldl_unsubscribe (taskId : String) (called : List Connection)
    (h : ∀ c ∈ called, c.taskId = taskId) (st : TaskStreams) :
    SameUpdates st (called.foldl (fun st c => st.unsubscribe c.taskId c.listener) st) ∧
      ∀ id, id ≠ taskId → (called.foldl (fun st c => st.unsubscribe c.taskId c.listener)
        st).taskListeners id = st.taskListeners id := by
  induction called generalizing st with
  | nil => exact ⟨⟨rfl, rfl, rfl⟩, fun _ _ => rfl⟩
  | cons c called ih =>
    obtain ⟨hsame, hothers⟩ := ih (fun d hd => h d (List.mem_cons_of_mem _ hd))
      (st.unsubscribe c.taskId c.listener)
    refine ⟨⟨hsame.emitted, hsame.seqs, hsame.buffers⟩, fun id hid => (hothers id hid).trans ?_⟩
    have hne : id ≠ c.taskId := h c List.mem_cons_self ▸ hid
    exact Function.update_of_ne hne _ _

/-- Where someone listens, a call is an update. -/
theorem emitted_of_listener {task : TaskRecord} {reason : TaskUpdateReason}
    (h : st.taskListeners task.id ≠ []) :
    (st.emitTaskUpdate max task reason).emitted ≠ st.emitted := by
  unfold TaskStreams.emitTaskUpdate
  rw [if_neg (by simp [h])]
  intro hsame
  have hlength := congrArg List.length hsame
  simp [TaskStreams.bufferTaskEvent, TaskStreams.advanceTaskEventSeq] at hlength

/-- The update `u` was made: it is sent to each connection that listens. -/
structure Emits (u : TaskUpdate) (sys sys' : System) : Prop where
  connections : sys'.connections = sys.connections.map (Connection.hear u)
  emittedFor : ∀ id, sys'.streams.emittedFor id =
    sys.streams.emittedFor id ++ if u.task.id = id then [u] else []
  listeners : ∀ id, u.final = false ∨ id ≠ u.task.id →
    sys'.streams.taskListeners id = sys.streams.taskListeners id

theorem emit_cases (max : Nat) (sys : System) (task : TaskRecord) (reason : TaskUpdateReason) :
    (emit max sys task reason = sys ∧ sys.streams.taskListeners task.id = []) ∨
    (∃ u, Emits u sys (emit max sys task reason)) ∧
      ∃ st, SameUpdates (sys.streams.emitTaskUpdate max task reason) st ∧
        (emit max sys task reason).streams = st := by
  have hlisteners : (sys.streams.emitTaskUpdate max task reason).taskListeners =
      sys.streams.taskListeners := by
    unfold TaskStreams.emitTaskUpdate
    split <;> rfl
  rcases TaskStreams.emitTaskUpdate_cases max sys.streams task reason with hsame |
    ⟨u, rfl, -, -, -, hemitted, -, -⟩
  · refine .inl ⟨?_, by_contra fun hne => emitted_of_listener hne (congrArg _ hsame)⟩
    unfold emit
    dsimp only
    rw [hsame, List.drop_length]
  · refine .inr ?_
    have hdrop : (sys.streams.emitTaskUpdate max u.task reason).emitted.drop
        sys.streams.emitted.length = [u] := by rw [hemitted, List.drop_left]
    have hfor (id : String) : (sys.streams.emitTaskUpdate max u.task reason).emittedFor id =
        sys.streams.emittedFor id ++ if u.task.id = id then [u] else [] := by
      unfold TaskStreams.emittedFor
      rw [hemitted, List.filter_append, List.filter_singleton]
      by_cases hid : u.task.id = id <;> simp [hid]
    unfold emit
    dsimp only
    rw [hdrop]
    dsimp only
    split
    · rename_i hfinal
      obtain ⟨hsame, hothers⟩ := foldl_unsubscribe u.task.id
        (sys.connections.filter fun c => c.listening && c.taskId == u.task.id)
        (fun c hc => by simpa using (Bool.and_eq_true_iff.mp (List.mem_filter.mp hc).2).2)
        (sys.streams.emitTaskUpdate max u.task reason)
      refine ⟨⟨u, rfl, fun id => (hsame.emittedFor id).trans (hfor id), fun id hid => ?_⟩, _,
        hsame, rfl⟩
      have hne : id ≠ u.task.id := hid.resolve_left (by simp [hfinal])
      exact (hothers id hne).trans (congrFun hlisteners id)
    · exact ⟨⟨u, rfl, hfor, fun id _ => congrFun hlisteners id⟩, _, ⟨rfl, rfl, rfl⟩, rfl⟩

/-! ## Systems -/

/-- The streams are numbered, and the listener of a connection is subscribed while it listens. -/
structure Sound (max : Nat) (sys : System) : Prop where
  synced : ∀ id, TaskStreams.Synced max sys.streams id
  listener : ∀ n c, sys.connections[n]? = some c → c.listener = 2 * n
  subscribed : ∀ c ∈ sys.connections, c.listening = true →
    c.listener ∈ sys.streams.taskListeners c.taskId

theorem hear_listener (u : TaskUpdate) (c : Connection) :
    (c.hear u).listener = c.listener ∧ (c.hear u).taskId = c.taskId ∧
      ((c.hear u).listening = true → c.listening = true ∧
        (u.final = false ∨ c.taskId ≠ u.task.id)) := by
  unfold Connection.hear
  split
  · rename_i h
    exact ⟨rfl, rfl, fun hl => ⟨(Bool.and_eq_true_iff.mp h).1, .inl (by simpa using hl)⟩⟩
  · rename_i h
    refine ⟨rfl, rfl, fun hl => ⟨hl, .inr fun hid => h ?_⟩⟩
    simp [hl, hid]

theorem Sound.emits {u : TaskUpdate} (h : Sound max sys) (he : Emits u sys sys')
    (hsynced : ∀ id, TaskStreams.Synced max sys'.streams id) : Sound max sys' where
  synced := hsynced
  listener n c hc := by
    rw [he.connections, List.getElem?_map] at hc
    obtain ⟨d, hd, rfl⟩ := Option.map_eq_some_iff.mp hc
    exact (hear_listener u d).1.trans (h.listener n d hd)
  subscribed c hc hl := by
    rw [he.connections] at hc
    obtain ⟨d, hd, rfl⟩ := List.mem_map.mp hc
    obtain ⟨hlistener, htask, hlistening⟩ := hear_listener u d
    obtain ⟨hl, hopen⟩ := hlistening hl
    rw [hlistener, htask, he.listeners _ hopen]
    exact h.subscribed d hd hl

theorem Sound.emit (h : Sound max sys) (task : TaskRecord) (reason : TaskUpdateReason) :
    Sound max (emit max sys task reason) := by
  rcases emit_cases max sys task reason with ⟨hsame, -⟩ | ⟨⟨u, he⟩, st, hsame, hstreams⟩
  · rw [hsame]
    exact h
  · refine h.emits he fun id => ?_
    rw [hstreams]
    exact hsame.synced (TaskStreams.emitTaskUpdate_synced task reason (h.synced id))

/-- A subscription of another listener, or its end, or one of a connection. -/
theorem Sound.listeners (h : Sound max sys) (hconnections : sys'.connections = sys.connections)
    (hsame : SameUpdates sys.streams sys'.streams)
    (hmem : ∀ id n, 2 * n ∈ sys.streams.taskListeners id → 2 * n ∈ sys'.streams.taskListeners id) :
    Sound max sys' where
  synced id := hsame.synced (h.synced id)
  listener n c hc := h.listener n c (hconnections ▸ hc)
  subscribed c hc hl := by
    rw [hconnections] at hc
    obtain ⟨n, hn⟩ := List.mem_iff_getElem?.mp hc
    have hmem := hmem c.taskId n
    rw [← h.listener n c hn] at hmem
    exact hmem (h.subscribed c hc hl)

theorem mem_subscribeToTask {listener l : Nat} {taskId : String}
    (h : l ∈ st.taskListeners id) : l ∈ (st.subscribeToTask taskId listener).taskListeners id := by
  unfold TaskStreams.subscribeToTask
  dsimp only
  by_cases hid : id = taskId
  · subst hid
    rw [Function.update_self]
    split
    · exact h
    · exact List.mem_append_left _ h
  · rw [Function.update_of_ne hid]
    exact h

theorem self_mem_subscribeToTask (st : TaskStreams) (taskId : String) (listener : Nat) :
    listener ∈ (st.subscribeToTask taskId listener).taskListeners taskId := by
  unfold TaskStreams.subscribeToTask
  dsimp only
  rw [Function.update_self]
  split
  · rename_i h
    simpa using h
  · exact List.mem_append_right _ (List.mem_singleton_self _)

theorem mem_unsubscribe {listener l : Nat} {taskId : String} (h : l ∈ st.taskListeners id)
    (hne : l ≠ listener) : l ∈ (st.unsubscribe taskId listener).taskListeners id := by
  unfold TaskStreams.unsubscribe
  dsimp only
  by_cases hid : id = taskId
  · subst hid
    rw [Function.update_self]
    exact List.mem_filter.mpr ⟨h, by simpa using hne⟩
  · rw [Function.update_of_ne hid]
    exact h

theorem Sound.handle (h : Sound max sys) (task : TaskRecord) :
    Sound max (handleTaskEventStream sys task header) := by
  have hsame : SameUpdates sys.streams (handleTaskEventStream sys task header).streams := by
    unfold handleTaskEventStream
    dsimp only
    split <;> exact ⟨rfl, rfl, rfl⟩
  have hmem {id : String} {l : Nat} (hl : l ∈ sys.streams.taskListeners id) :
      l ∈ (handleTaskEventStream sys task header).streams.taskListeners id := by
    unfold handleTaskEventStream
    dsimp only
    split
    · exact mem_subscribeToTask hl
    · exact hl
  refine ⟨fun id => hsame.synced (h.synced id), fun n c hc => ?_, fun c hc hl => ?_⟩
  · have hc : (sys.connections ++ [_])[n]? = some c := hc
    rw [List.getElem?_append] at hc
    split at hc
    · exact h.listener n c hc
    · rename_i hn
      rw [List.getElem?_singleton] at hc
      split at hc
      · rename_i hzero
        cases hc
        show 2 * sys.connections.length = 2 * n
        omega
      · cases hc
  · rcases List.mem_append.mp hc with hc | hc
    · exact hmem (h.subscribed c hc hl)
    · obtain rfl := List.mem_singleton.mp hc
      unfold handleTaskEventStream
      dsimp only
      rw [if_pos hl]
      exact self_mem_subscribeToTask _ _ _

theorem Sound.connect (h : Sound max sys) (taskId : String) (header : Option String) :
    Sound max (connect sys taskId header) := by
  unfold TaskEvents.connect
  split
  · exact h
  · split
    · exact h
    · exact h.handle _

theorem Sound.disconnect (h : Sound max sys) (n : Nat) : Sound max (disconnect sys n) := by
  unfold TaskEvents.disconnect
  split
  · exact h
  · rename_i c hc
    have hsame : SameUpdates sys.streams
        (if c.listening then sys.streams.unsubscribe c.taskId c.listener else sys.streams) := by
      split <;> exact ⟨rfl, rfl, rfl⟩
    refine ⟨fun id => hsame.synced (h.synced id), fun m d hd => ?_, fun d hd hl => ?_⟩
    · have hd : (sys.connections.set n _)[m]? = some d := hd
      rw [List.getElem?_set] at hd
      split at hd
      · rename_i hnm
        split at hd
        · cases hd
          exact hnm ▸ h.listener n c hc
        · cases hd
      · exact h.listener m d hd
    · obtain ⟨m, hm⟩ := List.mem_iff_getElem?.mp hd
      have hm : (sys.connections.set n _)[m]? = some d := hm
      rw [List.getElem?_set] at hm
      split at hm
      · split at hm
        · cases hm
          cases hl
        · cases hm
      · rename_i hnm
        have hmem := h.subscribed d (List.mem_of_getElem? hm) hl
        dsimp only
        split
        · refine mem_unsubscribe hmem ?_
          rw [h.listener m d hm, h.listener n c hc]
          omega
        · exact hmem

theorem Sound.step (h : Sound max sys) (a : Action) : Sound max (step env max sys a) := by
  cases a with
  | op op =>
    have hbroker : Sound max { sys with broker := exec env sys.broker op } :=
      h.listeners rfl ⟨rfl, rfl, rfl⟩ fun _ _ h => h
    unfold TaskEvents.step
    dsimp only
    generalize updatesOf sys.broker (exec env sys.broker op) = calls
    generalize { sys with broker := exec env sys.broker op } = sys₁ at hbroker
    induction calls generalizing sys₁ with
    | nil => exact hbroker
    | cons call calls ih => exact ih _ (hbroker.emit call.1 call.2)
  | connect taskId header => exact h.connect taskId header
  | disconnect n => exact h.disconnect n
  | subscribe taskId listener =>
    exact h.listeners rfl ⟨rfl, rfl, rfl⟩ fun _ _ h => mem_subscribeToTask h
  | unsubscribe taskId listener =>
    exact h.listeners rfl ⟨rfl, rfl, rfl⟩ fun _ _ h => mem_unsubscribe h (by omega)

theorem systemAfter_concat (ks : List Action) (a : Action) :
    systemAfter env max (ks ++ [a]) = step env max (systemAfter env max ks) a := List.foldl_append

theorem systemAfter_append (ks ls : List Action) :
    systemAfter env max (ks ++ ls) = ls.foldl (step env max) (systemAfter env max ks) :=
  List.foldl_append

theorem systemAfter_sound (env : Env) (max : Nat) (ks : List Action) :
    Sound max (systemAfter env max ks) := by
  induction ks using List.reverseRecOn with
  | nil =>
    refine ⟨fun id => TaskStreams.synced_empty, fun n c hc => ?_, fun c hc => ?_⟩
    · cases hc
    · cases hc
  | append_singleton ks a ih =>
    rw [systemAfter_concat]
    exact ih.step a

/-! ## One connection -/

/-- The connection has written `opening`, when the updates `before` of its task had been made, and
then each update, one for one. Once it stopped to listen, later ones are missing. -/
structure Written (opening : List SseEvent) (before : List TaskUpdate) (c : Connection)
    (E : List TaskUpdate) : Prop where
  grown : before <+: E
  live : ∃ live, c.written = opening ++ live.map updateEvent ∧ live <+: E.drop before.length ∧
    (c.listening = true → live = E.drop before.length)

/-- A connection is written to while it is kept under its index. -/
def Attends (opening : List SseEvent) (before : List TaskUpdate) (i : Nat) (id : String)
    (sys : System) : Prop :=
  ∃ c, sys.connections[i]? = some c ∧ c.taskId = id ∧
    Written opening before c (sys.streams.emittedFor id)

variable {opening : List SseEvent} {before : List TaskUpdate} {i : Nat}

theorem Written.emits {u : TaskUpdate} {c : Connection} {E : List TaskUpdate}
    (h : Written opening before c E) :
    Written opening before (c.hear u) (E ++ if u.task.id = c.taskId then [u] else []) := by
  obtain ⟨hgrown, live, hwritten, hpart, hlive⟩ := h
  refine ⟨hgrown.trans (List.prefix_append _ _), ?_⟩
  rw [List.drop_append_of_le_length hgrown.length_le]
  unfold Connection.hear
  split
  · rename_i hcalled
    simp only [Bool.and_eq_true, beq_iff_eq] at hcalled
    obtain ⟨hl, hid⟩ := hcalled
    rw [if_pos hid.symm, ← hlive hl]
    refine ⟨live ++ [u], ?_, List.prefix_refl _, fun _ => rfl⟩
    rw [hwritten, List.append_assoc, List.map_append]
    rfl
  · rename_i hnot
    refine ⟨live, hwritten, hpart.trans (List.prefix_append _ _), fun hl => ?_⟩
    have hid : ¬u.task.id = c.taskId := fun hid => hnot (by simp [hl, hid])
    rw [if_neg hid, List.append_nil]
    exact hlive hl

theorem Attends.emits {u : TaskUpdate} (h : Attends opening before i id sys)
    (he : Emits u sys sys') : Attends opening before i id sys' := by
  obtain ⟨c, hc, rfl, hwritten⟩ := h
  refine ⟨c.hear u, ?_, (hear_listener u c).2.1, ?_⟩
  · rw [he.connections, List.getElem?_map, hc]
    rfl
  · rw [he.emittedFor]
    exact hwritten.emits

theorem Attends.emit (h : Attends opening before i id sys) (task : TaskRecord)
    (reason : TaskUpdateReason) : Attends opening before i id (emit max sys task reason) := by
  rcases emit_cases max sys task reason with ⟨hsame, -⟩ | ⟨⟨u, he⟩, -⟩
  · rw [hsame]
    exact h
  · exact h.emits he

/-- Nothing was emitted, and the connection is as it was. -/
theorem Attends.same (h : Attends opening before i id sys)
    (hconnection : ∀ c, sys.connections[i]? = some c → sys'.connections[i]? = some c)
    (hemitted : sys'.streams.emitted = sys.streams.emitted) : Attends opening before i id sys' := by
  obtain ⟨c, hc, hid, hwritten⟩ := h
  refine ⟨c, hconnection c hc, hid, ?_⟩
  rw [TaskStreams.emittedFor, hemitted]
  exact hwritten

theorem Attends.handle (h : Attends opening before i id sys) (task : TaskRecord) :
    Attends opening before i id (handleTaskEventStream sys task header) := by
  refine h.same (fun c hc => ?_) ?_
  · show (sys.connections ++ [_])[i]? = some c
    rw [List.getElem?_append_left (List.getElem?_eq_some_iff.mp hc).1]
    exact hc
  · unfold handleTaskEventStream
    dsimp only
    split <;> rfl

theorem Attends.disconnect (h : Attends opening before i id sys) (m : Nat) :
    Attends opening before i id (disconnect sys m) := by
  unfold TaskEvents.disconnect
  split
  · exact h
  · rename_i d hd
    have hemitted : (if d.listening then sys.streams.unsubscribe d.taskId d.listener
        else sys.streams).emitted = sys.streams.emitted := by split <;> rfl
    by_cases hm : m = i
    · subst hm
      obtain ⟨c, hc, rfl, hgrown, live, hwritten, hpart, -⟩ := h
      obtain rfl : c = d := Option.some.inj (hc.symm.trans hd)
      refine ⟨{ c with listening := false }, ?_, rfl, ?_⟩
      · show (sys.connections.set m _)[m]? = _
        rw [List.getElem?_set_self (List.getElem?_eq_some_iff.mp hc).1]
      · rw [TaskStreams.emittedFor, hemitted]
        exact ⟨hgrown, live, hwritten, hpart, fun hl => by cases hl⟩
    · refine h.same (fun c hc => ?_) hemitted
      show (sys.connections.set m _)[i]? = some c
      rw [List.getElem?_set_ne hm]
      exact hc

theorem Attends.step (h : Attends opening before i id sys) (a : Action) :
    Attends opening before i id (step env max sys a) := by
  cases a with
  | op op =>
    have hbroker : Attends opening before i id { sys with broker := exec env sys.broker op } :=
      h.same (fun _ hc => hc) rfl
    unfold TaskEvents.step
    dsimp only
    generalize updatesOf sys.broker (exec env sys.broker op) = calls
    generalize { sys with broker := exec env sys.broker op } = sys₁ at hbroker
    induction calls generalizing sys₁ with
    | nil => exact hbroker
    | cons call calls ih => exact ih _ (hbroker.emit call.1 call.2)
  | connect taskId header =>
    unfold TaskEvents.step TaskEvents.connect
    dsimp only
    split
    · exact h
    · split
      · exact h
      · exact h.handle _
  | disconnect m => exact h.disconnect m
  | subscribe => exact h.same (fun _ hc => hc) rfl
  | unsubscribe => exact h.same (fun _ hc => hc) rfl

theorem Attends.run (h : Attends opening before i id sys) (env : Env) (max : Nat)
    (ls : List Action) :
    Attends opening before i id (ls.foldl (TaskEvents.step env max) sys) := by
  induction ls generalizing sys with
  | nil => exact h
  | cons a ls ih => exact ih (h.step a)

/-- Right after it opened. -/
theorem attends_handle (sys : System) (header : Option String) (task : TaskRecord) :
    Attends (openingReplay sys.streams task header ++ [openingSnapshot sys.streams task])
      (sys.streams.emittedFor task.id) sys.connections.length task.id
      (handleTaskEventStream sys task header) := by
  have hemitted : (handleTaskEventStream sys task header).streams.emitted = sys.streams.emitted := by
    unfold handleTaskEventStream
    dsimp only
    split <;> rfl
  have hfor : (handleTaskEventStream sys task header).streams.emittedFor task.id =
      sys.streams.emittedFor task.id := by
    unfold TaskStreams.emittedFor
    rw [hemitted]
  refine ⟨_, List.getElem?_concat_length, rfl, ?_⟩
  rw [hfor]
  refine ⟨List.prefix_refl _, [], (List.append_nil _).symm, List.nil_prefix, fun _ => ?_⟩
  exact (List.drop_length).symm

/-! ## Clients -/

/-- After the actions `ks` the route of the task finds its record. -/
structure Opens (env : Env) (max : Nat) (ks : List Action) (id : String) (task : TaskRecord) :
    Prop where
  routed : id ≠ ""
  stored : (systemAfter env max ks).broker.tasks.get? id = some task

/-- The connection of the task that was opened after `ks` with this header, after the further
actions `ls`. -/
structure Connected (env : Env) (max : Nat) (id : String) (ks : List Action)
    (header : Option String) (ls : List Action) (c : Connection) : Prop where
  opens : ∃ task, Opens env max ks id task
  here : (systemAfter env max (ks ++ .connect id header :: ls)).connections[
    (systemAfter env max ks).connections.length]? = some c

/-- After the actions, a client of the task may have received these events: what was written to its
first connection up to some event, then what was written to a second one that it opened with the id
of this event, and so on. -/
inductive Client (env : Env) (max : Nat) (id : String) : List Action → List SseEvent → Prop
  | connects {ks header ls c got} (hc : Connected env max id ks header ls c)
      (hgot : got <+: c.written) : Client env max id (ks ++ .connect id header :: ls) got
  | reconnects {ks seen last ls c got} (h : Client env max id ks (seen ++ [last]))
      (hc : Connected env max id ks (some (formatSseEventId id last.seq)) ls c)
      (hgot : got <+: c.written) :
      Client env max id (ks ++ .connect id (some (formatSseEventId id last.seq)) :: ls)
        (seen ++ [last] ++ got)

/-- What a client may rely on in a run. -/
structure Resumes (env : Env) (max : Nat) (actions : List Action) : Prop where
  ordered : ∀ ks id header ls c, Connected env max id ks header ls c →
    ks ++ .connect id header :: ls <+: actions → c.written.Pairwise fun f g => f.seq ≤ g.seq
  snapshot : ∀ ks id header ls c, Connected env max id ks header ls c →
    ks ++ .connect id header :: ls <+: actions → ∀ f ∈ c.written, f.reason = .snapshot →
      f.seq = lastSeq (systemAfter env max ks).streams id
  /-- A client that reconnects is sent the buffered updates after the last event that it received,
  one for one, a snapshot, and then, as long as it is connected, each update when it is made. -/
  resumed : ∀ ks id seen last ls c, Client env max id ks (seen ++ [last]) →
    Connected env max id ks (some (formatSseEventId id last.seq)) ls c →
    ks ++ .connect id (some (formatSseEventId id last.seq)) :: ls <+: actions →
    ∃ snapshot live, snapshot.reason = .snapshot ∧
      c.written = (((systemAfter env max ks).streams.replayTaskEvents id (-1)).filter
        fun e => last.reflects < e.seq).map replayedEvent ++ snapshot :: live.map updateEvent ∧
      live <+: ((systemAfter env max (ks ++ .connect id
        (some (formatSseEventId id last.seq)) :: ls)).streams.emittedFor id).drop
          ((systemAfter env max ks).streams.emittedFor id).length ∧
      (c.listening = true → live = ((systemAfter env max (ks ++ .connect id
        (some (formatSseEventId id last.seq)) :: ls)).streams.emittedFor id).drop
          ((systemAfter env max ks).streams.emittedFor id).length)
  /-- A client is not sent an update that it has seen or that a snapshot told it of. -/
  once : ∀ ks id received, ks <+: actions → Client env max id ks received →
    received.Pairwise fun f g => g.reason ≠ .snapshot → f.reflects < g.seq

/-- Each connection opens while the buffer of its task holds all its updates. -/
def OpensEarly (env : Env) (max : Nat) (actions : List Action) : Prop :=
  ∀ ks id header task, ks ++ [.connect id header] <+: actions → Opens env max ks id task →
    ((systemAfter env max ks).streams.emittedFor id).length ≤ max

theorem Opens.connect {ks : List Action} {task : TaskRecord} (h : Opens env max ks id task)
    (header : Option String) (ls : List Action) :
    task.id = id ∧ systemAfter env max (ks ++ .connect id header :: ls) =
      ls.foldl (step env max) (handleTaskEventStream (systemAfter env max ks) task header) := by
  refine ⟨Table.key_of_get? h.stored, ?_⟩
  rw [systemAfter_append, List.foldl_cons]
  congr 1
  unfold TaskEvents.step TaskEvents.connect
  dsimp only
  rw [if_neg h.routed, h.stored]

/-- What a connection writes, from its opening on. -/
theorem Connected.written {ks ls : List Action} {task : TaskRecord} {c : Connection}
    (h : Connected env max id ks header ls c) (ho : Opens env max ks id task) :
    Written (openingReplay (systemAfter env max ks).streams task header ++
        [openingSnapshot (systemAfter env max ks).streams task])
      ((systemAfter env max ks).streams.emittedFor id) c
      ((systemAfter env max (ks ++ .connect id header :: ls)).streams.emittedFor id) := by
  obtain ⟨rfl, hrun⟩ := ho.connect header ls
  obtain ⟨d, hd, -, hwritten⟩ := (attends_handle (systemAfter env max ks) header task).run env max ls
  have hc := h.here
  rw [hrun] at hc ⊢
  obtain rfl : d = c := Option.some.inj (hd.symm.trans hc)
  exact hwritten

theorem exists_connected {ks : List Action} {task : TaskRecord} (ho : Opens env max ks id task)
    (header : Option String) (ls : List Action) : ∃ c, Connected env max id ks header ls c := by
  obtain ⟨rfl, hrun⟩ := ho.connect header ls
  obtain ⟨c, hc, -⟩ := (attends_handle (systemAfter env max ks) header task).run env max ls
  refine ⟨c, ⟨task, ho⟩, ?_⟩
  rw [hrun]
  exact hc

/-! ## The opening -/

variable {task : TaskRecord} {ks ls actions : List Action} {c : Connection}

theorem replayTaskEvents_all (st : TaskStreams) (id : String) :
    st.replayTaskEvents id (-1) = (st.taskEventBuffers id).getD [] := by
  rw [TaskStreams.replayTaskEvents_eq, List.filter_eq_self]
  intro e _
  have hseq : (0 : Rat) ≤ (e.seq : Rat) := Nat.cast_nonneg _
  exact decide_eq_true ((by decide : (-1 : Rat) < 0).trans_le hseq)

/-- The snapshot is numbered by what the buffer can hold. -/
theorem openingSnapshot_seq (h : TaskStreams.Synced max st task.id) :
    (openingSnapshot st task).seq = min max (st.emittedFor task.id).length := by
  have hlength : (st.replayTaskEvents task.id (-1)).length =
      min max (st.emittedFor task.id).length := by
    rw [replayTaskEvents_all, h.buffer, Window.length_rtake, List.length_map]
  show (if 0 < (st.replayTaskEvents task.id (-1)).length then _ else _) = _
  rw [hlength]
  split <;> omega

/-- As long as the buffer holds every update, the opening is numbered as it tells. -/
structure Exact (after : Rat) (before : List TaskUpdate) (opening : List SseEvent) : Prop where
  parts : ∃ (replay : List TaskUpdate) (snapshot : SseEvent),
    opening = replay.map updateEvent ++ [snapshot] ∧ replay.Sublist before ∧ (∀ u ∈ replay, after < u.seq) ∧ snapshot.reason = .snapshot ∧
    snapshot.seq = before.length ∧ snapshot.reflects = before.length

theorem opening_exact (h : TaskStreams.Synced max st task.id)
    (hroom : (st.emittedFor task.id).length ≤ max) :
    Exact (replayAfterSeq task.id header) (st.emittedFor task.id)
      (openingReplay st task header ++ [openingSnapshot st task]) := by
  have hseq : (openingSnapshot st task).seq = (st.emittedFor task.id).length := by
    rw [openingSnapshot_seq h, Nat.min_eq_right hroom]
  have hreflects : (openingSnapshot st task).reflects = (st.emittedFor task.id).length :=
    lastSeq_eq h
  unfold openingReplay
  dsimp only
  split
  · refine ⟨(st.emittedFor task.id).filter fun u => replayAfterSeq task.id header < u.seq, _, ?_,
      List.filter_sublist, fun u hu => ?_, rfl, hseq, hreflects⟩
    · rw [TaskStreams.replayTaskEvents_eq, h.buffer, Window.rtake_of_length_le (by simpa using hroom),
        List.filter_map, List.map_map]
      rfl
    · exact of_decide_eq_true (List.mem_filter.mp hu).2
  · exact ⟨[], _, rfl, List.nil_sublist _, fun _ hu => absurd hu List.not_mem_nil, rfl, hseq,
      hreflects⟩

/-! ## Numbers of a connection -/

/-- One event may follow another: it tells of no less, and is no update of which the other one
tells. -/
def Follows (f g : SseEvent) : Prop :=
  f.reflects ≤ g.reflects ∧ (g.reason ≠ .snapshot → f.reflects < g.seq)

/-- What was written tells of at most `last` updates, is numbered as it tells, and goes beyond the
number `after`. -/
structure Numbered (after : Rat) (last : Nat) (f : SseEvent) : Prop where
  seq : f.seq = f.reflects
  le : f.reflects ≤ last
  after : after ≤ f.reflects ∧ (f.reason ≠ .snapshot → after < f.seq)

theorem Exact.numbered {after : Rat} {E : List TaskUpdate} (h : Exact after before opening)
    (hwritten : Written opening before c E) (hseqs : E.map (·.seq) = List.range' 1 E.length)
    (hafter : after ≤ before.length) :
    c.written.Pairwise Follows ∧ ∀ f ∈ c.written, Numbered after E.length f := by
  obtain ⟨replay, snapshot, rfl, hreplay, hlater, hreason, hseq, hreflects⟩ := h.parts
  obtain ⟨hgrown, live, hevents, hlive, -⟩ := hwritten
  have hbefore : before = E.take before.length := List.prefix_iff_eq_take.mp hgrown
  have hlast : ∀ u ∈ E, u.seq ≤ E.length := fun u hu =>
    seq_le_of_mem_take hseqs (n := E.length) (by rwa [List.take_length])
  have hreplayE : replay.Sublist E := hreplay.trans hgrown.sublist
  have hliveE : live.Sublist E := hlive.sublist.trans (List.drop_sublist _ _)
  have hreplayed : ∀ u ∈ replay, u.seq ≤ before.length := fun u hu =>
    seq_le_of_mem_take hseqs (hbefore ▸ hreplay.subset hu)
  have hlived : ∀ u ∈ live, before.length < u.seq := fun u hu =>
    lt_seq_of_mem_drop hseqs (hlive.subset hu)
  have hpair {l : List TaskUpdate} (hl : l.Sublist E) : (l.map updateEvent).Pairwise Follows :=
    List.pairwise_map.mpr (((pairwise_seq hseqs).sublist hl).imp fun hlt =>
      ⟨Nat.le_of_lt hlt, fun _ => hlt⟩)
  rw [hevents, List.append_assoc, List.singleton_append]
  constructor
  · refine List.pairwise_append.mpr ⟨hpair hreplayE, List.pairwise_cons.mpr ⟨fun g hg => ?_,
      hpair hliveE⟩, fun f hf g hg => ?_⟩
    · obtain ⟨v, hv, rfl⟩ := List.mem_map.mp hg
      have hlt := hlived v hv
      rw [Follows, hreflects]
      exact ⟨Nat.le_of_lt hlt, fun _ => hlt⟩
    · obtain ⟨u, hu, rfl⟩ := List.mem_map.mp hf
      have hle : (updateEvent u).reflects ≤ before.length := hreplayed u hu
      rcases List.mem_cons.mp hg with rfl | hg
      · exact ⟨hle.trans hreflects.ge, fun hne => absurd hreason hne⟩
      · obtain ⟨v, hv, rfl⟩ := List.mem_map.mp hg
        have hlt : (updateEvent u).reflects < v.seq := hle.trans_lt (hlived v hv)
        exact ⟨Nat.le_of_lt hlt, fun _ => hlt⟩
  · intro f hf
    rcases List.mem_append.mp hf with hf | hf
    · obtain ⟨u, hu, rfl⟩ := List.mem_map.mp hf
      exact ⟨rfl, hlast u (hreplayE.subset hu), (hlater u hu).le, fun _ => hlater u hu⟩
    · rcases List.mem_cons.mp hf with rfl | hf
      · exact ⟨hseq.trans hreflects.symm, hreflects.trans_le hgrown.length_le,
          by rwa [hreflects], fun hne => absurd hreason hne⟩
      · obtain ⟨u, hu, rfl⟩ := List.mem_map.mp hf
        have hlt : after < (u.seq : Rat) := hafter.trans_lt (Nat.cast_lt.mpr (hlived u hu))
        exact ⟨rfl, hlast u (hliveE.subset hu), hlt.le, fun _ => hlt⟩

theorem Exact.any {after : Rat} (h : Exact after before opening) : Exact (-1) before opening := by
  obtain ⟨replay, snapshot, hopening, hreplay, -, hrest⟩ := h.parts
  refine ⟨replay, snapshot, hopening, hreplay, fun u _ => ?_, hrest⟩
  exact (by decide : (-1 : Rat) < 0).trans_le (Nat.cast_nonneg _)

/-- The id of an event is understood. -/
theorem replayAfterSeq_format (hid : id ≠ "") (n : Nat) :
    replayAfterSeq id (some (formatSseEventId id n)) = n := by
  have hne : formatSseEventId id n ≠ "" := fun h => by
    have hparse := parseSseEventId_format hid n
    rw [h] at hparse
    cases hparse
  unfold replayAfterSeq
  rw [Option.filter_some_pos (by simpa using hne)]
  dsimp only
  rw [parseSseEventId_format hid n]
  exact if_pos rfl

theorem OpensEarly.exact (h : OpensEarly env max actions) (hc : Connected env max id ks header ls c)
    (hpart : ks ++ .connect id header :: ls <+: actions) :
    ∃ opening, Exact (replayAfterSeq id header) ((systemAfter env max ks).streams.emittedFor id)
        opening ∧
      Written opening ((systemAfter env max ks).streams.emittedFor id) c
        ((systemAfter env max (ks ++ .connect id header :: ls)).streams.emittedFor id) := by
  obtain ⟨task, ho⟩ := hc.opens
  have hopened : ks ++ [.connect id header] <+: actions := by
    refine List.IsPrefix.trans ⟨ls, ?_⟩ hpart
    rw [List.append_assoc, List.singleton_append]
  have hroom := h ks id header task hopened ho
  have hwritten := hc.written ho
  obtain rfl : task.id = id := (ho.connect header ls).1
  exact ⟨_, opening_exact ((systemAfter_sound env max ks).synced task.id) hroom, hwritten⟩

/-- What a client has received is in order and numbered as it tells. -/
theorem Client.received {received : List SseEvent} (h : Client env max id ks received)
    (hearly : OpensEarly env max actions) (hpart : ks <+: actions) :
    received.Pairwise Follows ∧ ∀ f ∈ received, f.seq = f.reflects ∧
      f.reflects ≤ ((systemAfter env max ks).streams.emittedFor id).length := by
  induction h with
  | @connects ks header ls c got hc hgot =>
    obtain ⟨opening, hexact, hwritten⟩ := hearly.exact hc hpart
    have hneg : (-1 : Rat) ≤ ((systemAfter env max ks).streams.emittedFor id).length :=
      (by decide : (-1 : Rat) ≤ 0).trans (Nat.cast_nonneg _)
    obtain ⟨hpair, hnumbered⟩ := hexact.any.numbered hwritten
      ((systemAfter_sound env max _).synced id).seqs hneg
    exact ⟨hpair.sublist hgot.sublist, fun f hf =>
      ⟨(hnumbered f (hgot.subset hf)).seq, (hnumbered f (hgot.subset hf)).le⟩⟩
  | @reconnects ks seen last ls c got h hc hgot ih =>
    obtain ⟨hseen, hlast⟩ := ih ((List.prefix_append _ _).trans hpart)
    obtain ⟨hseq, hle⟩ := hlast last (List.mem_append_right _ (List.mem_singleton_self _))
    obtain ⟨opening, hexact, hwritten⟩ := hearly.exact hc hpart
    obtain ⟨task, ho⟩ := hc.opens
    rw [replayAfterSeq_format ho.routed, hseq] at hexact
    obtain ⟨hpair, hnumbered⟩ := hexact.numbered hwritten
      ((systemAfter_sound env max _).synced id).seqs (Nat.cast_le.mpr hle)
    have hgrown := hwritten.grown.length_le
    refine ⟨List.pairwise_append.mpr ⟨hseen, hpair.sublist hgot.sublist, fun f hf g hg => ?_⟩,
      fun f hf => ?_⟩
    · have hfirst : f.reflects ≤ last.reflects := by
        rcases List.mem_append.mp hf with hf | hf
        · exact ((List.pairwise_append.mp hseen).2.2 f hf last (List.mem_singleton_self _)).1
        · rw [List.mem_singleton.mp hf]
      obtain ⟨hafter, hnew⟩ := (hnumbered g (hgot.subset hg)).after
      exact ⟨hfirst.trans (Nat.cast_le.mp hafter),
        fun hne => hfirst.trans_lt (Nat.cast_lt.mp (hnew hne))⟩
    · rcases List.mem_append.mp hf with hf | hf
      · exact ⟨(hlast f hf).1, (hlast f hf).2.trans hgrown⟩
      · have hf := hnumbered f (hgot.subset hf)
        exact ⟨hf.seq, hf.le⟩

/-! ## Resumption -/

theorem OpensEarly.resumes (h : OpensEarly env max actions) : Resumes env max actions where
  ordered ks id header ls c hc hpart := by
    have hclient : Client env max id (ks ++ .connect id header :: ls) c.written :=
      .connects hc (List.prefix_refl _)
    obtain ⟨hpair, hnumbered⟩ := hclient.received h hpart
    refine hpair.imp_of_mem fun {f g} hf hg hfollows => ?_
    rw [(hnumbered f hf).1, (hnumbered g hg).1]
    exact hfollows.1
  snapshot ks id header ls c hc hpart f hf hreason := by
    obtain ⟨opening, hexact, hwritten⟩ := h.exact hc hpart
    obtain ⟨replay, snapshot, rfl, -, -, -, hseq, -⟩ := hexact.parts
    obtain ⟨-, live, hevents, -⟩ := hwritten
    rw [lastSeq_eq ((systemAfter_sound env max ks).synced id)]
    rw [hevents, List.append_assoc, List.singleton_append] at hf
    rcases List.mem_append.mp hf with hf | hf
    · obtain ⟨u, -, rfl⟩ := List.mem_map.mp hf
      cases hreason
    · rcases List.mem_cons.mp hf with rfl | hf
      · exact hseq
      · obtain ⟨u, -, rfl⟩ := List.mem_map.mp hf
        cases hreason
  resumed ks id seen last ls c hclient hc hpart := by
    obtain ⟨-, hnumbered⟩ := hclient.received h ((List.prefix_append _ _).trans hpart)
    have hseq := (hnumbered last (List.mem_append_right _ (List.mem_singleton_self _))).1
    obtain ⟨task, ho⟩ := hc.opens
    obtain ⟨-, live, hevents, hlive, hlistening⟩ := hc.written ho
    refine ⟨openingSnapshot (systemAfter env max ks).streams task, live, rfl, ?_, hlive,
      hlistening⟩
    rw [hevents, List.append_assoc, List.singleton_append]
    congr 1
    obtain rfl : task.id = id := (ho.connect none []).1
    unfold openingReplay
    rw [replayAfterSeq_format ho.routed, if_pos (Nat.cast_nonneg _), replayTaskEvents_all,
      TaskStreams.replayTaskEvents_eq, hseq]
    refine congrArg _ (List.filter_congr fun e _ => ?_)
    exact decide_eq_decide.mpr Nat.cast_lt
  once ks id received hpart hclient :=
    (hclient.received h hpart).1.imp fun hfollows => hfollows.2

theorem Resumes.opensEarly (h : Resumes env max actions) : OpensEarly env max actions := by
  intro ks id header task hpart ho
  obtain ⟨c, hc⟩ := exists_connected ho header []
  obtain ⟨-, live, hevents, -⟩ := hc.written ho
  have hsynced := (systemAfter_sound env max ks).synced id
  obtain rfl : task.id = id := (ho.connect header []).1
  have hseq := h.snapshot ks task.id header [] c hc hpart
    (openingSnapshot (systemAfter env max ks).streams task) (by simp [hevents]) rfl
  rw [openingSnapshot_seq hsynced, lastSeq_eq hsynced] at hseq
  omega

/-- Clients may resume the event stream of a task from the last id that they received exactly in the
runs in which no connection opens after an update was dropped from the buffer of its task. -/
theorem resumes_iff (env : Env) (max : Nat) (actions : List Action) :
    Resumes env max actions ↔ OpensEarly env max actions :=
  ⟨Resumes.opensEarly, OpensEarly.resumes⟩

/-- With a buffer of one update, a second client connects after two updates. -/
def lateClient : List Action :=
  [.op (.registerWorker { nodeId := "worker", role := .analyst }), .op (createFor "task"),
    .connect "task" none, .op (.claimTask "task" "worker"), .op (.startTask "task" "worker"),
    .connect "task" none]

/-- Its snapshot reflects the second update and has the number of the first. -/
theorem not_resumes_late : ¬Resumes (Env.numbered {}) 1 lateClient := by
  intro h
  let ks := lateClient.take 5
  have hstored : ((systemAfter (Env.numbered {}) 1 ks).broker.tasks.get? "task").isSome = true := by
    decide +kernel
  obtain ⟨task, htask⟩ := Option.isSome_iff_exists.mp hstored
  have hcount : ((systemAfter (Env.numbered {}) 1 ks).streams.emittedFor "task").length = 2 := by
    decide +kernel
  have hearly := h.opensEarly ks "task" none task (List.prefix_refl _) ⟨by decide, htask⟩
  rw [hcount] at hearly
  omega

end TaskEvents

end A2ABroker
