import A2ABroker.Core.TaskStream
import A2ABroker.Lib.Window
import Mathlib.Algebra.Order.Ring.Rat
import Mathlib.Data.Nat.Cast.Order.Ring

/-! # What a stream holds

After any interleaving of calls and subscriptions: the updates of a task are numbered from one, its
buffer is a window on them (`Synced`), and so a replay is exact as long as the window reaches back
to the number asked for. Event ids are read back as they were written. -/

namespace A2ABroker

/-! ## Numbered updates -/

section
variable {E : List TaskUpdate} {k n : Nat}

/-- Among updates that are numbered from `k` on, those after `n` are a suffix. -/
theorem filter_seq (h : E.map (·.seq) = List.range' k E.length) :
    E.filter (fun u => n < u.seq) = E.drop (n + 1 - k) := by
  induction E generalizing k with
  | nil => simp
  | cons u E ih =>
    simp only [List.map_cons, List.length_cons, List.range'_succ, List.cons.injEq] at h
    obtain ⟨rfl, hrest⟩ := h
    have ih := ih hrest
    by_cases hlt : n < u.seq
    · have hzero : n + 1 - u.seq = 0 := by omega
      have hzero' : n + 1 - (u.seq + 1) = 0 := by omega
      rw [hzero', List.drop_zero] at ih
      rw [hzero, List.drop_zero, List.filter_cons_of_pos (by simpa using hlt), ih]
    · have hsucc : n + 1 - u.seq = (n + 1 - (u.seq + 1)) + 1 := by omega
      rw [hsucc, List.drop_succ_cons, List.filter_cons_of_neg (by simpa using hlt), ih]

theorem seq_drop (h : E.map (·.seq) = List.range' 1 E.length) :
    (E.drop n).map (·.seq) = List.range' (1 + n) (E.drop n).length := by
  rw [List.map_drop, h, List.drop_range', List.length_drop, Nat.mul_one]

end

/-! ## One stream -/

namespace TaskStreams

variable {max : Nat} {st : TaskStreams} {id : String}

/-- The stream of a task: numbers from one, the last of them, and a window of `max` updates. -/
structure Synced (max : Nat) (st : TaskStreams) (id : String) : Prop where
  seqs : (st.emittedFor id).map (·.seq) = List.range' 1 (st.emittedFor id).length
  last : (st.taskEventSeqs id).getD 0 = (st.emittedFor id).length
  buffer : (st.taskEventBuffers id).getD [] = ((st.emittedFor id).map (·.buffered)).rtake max

theorem synced_empty : Synced max {} id := ⟨rfl, rfl, by simp [emittedFor]⟩

/-- What a call does: nothing, or one update with the next number. -/
theorem emitTaskUpdate_cases (max : Nat) (st : TaskStreams) (task : TaskRecord)
    (reason : TaskUpdateReason) :
    st.emitTaskUpdate max task reason = st ∨
    ∃ u : TaskUpdate, u.task = task ∧ u.reason = reason ∧ u.final = task.status.terminal ∧
      u.seq = (st.taskEventSeqs task.id).getD 0 + 1 ∧
      (st.emitTaskUpdate max task reason).emitted = st.emitted ++ [u] ∧
      (st.emitTaskUpdate max task reason).taskEventSeqs =
        Function.update st.taskEventSeqs task.id (some u.seq) ∧
      (st.emitTaskUpdate max task reason).taskEventBuffers =
        Function.update st.taskEventBuffers task.id
          (some (((st.taskEventBuffers task.id).getD [] ++ [u.buffered]).rtake max)) := by
  unfold emitTaskUpdate
  split
  · exact .inl rfl
  · refine .inr ⟨_, rfl, rfl, rfl, rfl, rfl, rfl, ?_⟩
    rw [← Window.trim_eq_rtake]
    rfl

theorem emitTaskUpdate_synced (task : TaskRecord) (reason : TaskUpdateReason)
    (h : Synced max st id) : Synced max (st.emitTaskUpdate max task reason) id := by
  rcases emitTaskUpdate_cases max st task reason with hsame |
    ⟨u, rfl, -, -, hseq, hemitted, hseqs, hbuffers⟩
  · rw [hsame]
    exact h
  · have hfor : (st.emitTaskUpdate max u.task reason).emittedFor id =
        st.emittedFor id ++ if u.task.id = id then [u] else [] := by
      unfold emittedFor
      rw [hemitted, List.filter_append, List.filter_singleton]
      by_cases hid : u.task.id = id <;> simp [hid]
    by_cases hid : u.task.id = id
    · subst hid
      rw [if_pos rfl] at hfor
      have hlen : u.seq = (st.emittedFor u.task.id).length + 1 := by rw [hseq, h.last]
      refine ⟨?_, ?_, ?_⟩
      · rw [hfor, List.map_append, h.seqs, List.length_append, List.length_singleton,
          List.range'_concat, List.map_singleton, hlen]
        simp [Nat.add_comm]
      · rw [hfor, hseqs, Function.update_self, List.length_append, List.length_singleton]
        exact hlen
      · rw [hfor, hbuffers, Function.update_self, List.map_append, List.map_singleton, h.buffer]
        refine Window.rtake_concat_congr ?_
        rw [Window.rtake_rtake, Nat.min_self]
    · rw [if_neg hid, List.append_nil] at hfor
      have hne : id ≠ u.task.id := fun he => hid he.symm
      refine ⟨?_, ?_, ?_⟩
      · rw [hfor]
        exact h.seqs
      · rw [hfor, hseqs, Function.update_of_ne hne]
        exact h.last
      · rw [hfor, hbuffers, Function.update_of_ne hne]
        exact h.buffer

theorem act_synced (a : StreamAction) (h : Synced max st id) : Synced max (st.act max a) id := by
  cases a with
  | subscribe => exact ⟨h.seqs, h.last, h.buffer⟩
  | unsubscribe => exact ⟨h.seqs, h.last, h.buffer⟩
  | emit task reason => exact emitTaskUpdate_synced task reason h

theorem follow_concat (max : Nat) (actions : List StreamAction) (a : StreamAction) :
    follow max (actions ++ [a]) = (follow max actions).act max a := List.foldl_append

theorem follow_synced (actions : List StreamAction) : Synced max (follow max actions) id := by
  induction actions using List.reverseRecOn with
  | nil => exact synced_empty
  | append_singleton actions a ih =>
    rw [follow_concat]
    exact act_synced a ih

/-! ## Replay -/

theorem replayTaskEvents_eq (afterSeq : Rat) : st.replayTaskEvents id afterSeq =
    ((st.taskEventBuffers id).getD []).filter fun e => afterSeq < e.seq := by
  unfold replayTaskEvents
  cases st.taskEventBuffers id <;> rfl

/-- A replay is exact where the window holds all that was emitted since. -/
theorem Synced.replay (h : Synced max st id) {n : Nat}
    (hn : ((st.emittedFor id).filter fun u => n < u.seq).length ≤ max) :
    st.replayTaskEvents id n =
      ((st.emittedFor id).filter fun u => n < u.seq).map (·.buffered) := by
  rw [filter_seq h.seqs, Nat.add_sub_cancel, List.length_drop] at hn
  have hcast : ∀ e : BufferedTaskEvent, decide ((n : Rat) < (e.seq : Rat)) = decide (n < e.seq) := by
    intro e
    rw [decide_eq_decide]
    exact Nat.cast_lt
  rw [replayTaskEvents_eq, h.buffer, ← Window.map_rtake, List.filter_map]
  simp only [hcast]
  congr 1
  rw [Window.rtake_eq_drop]
  show ((st.emittedFor id).drop _).filter (fun u => n < u.seq) = _
  rw [filter_seq (seq_drop h.seqs), filter_seq h.seqs, List.drop_drop]
  congr 1
  omega

/-! ## What was called is what was emitted, in order -/

theorem follow_emitted (max : Nat) (actions : List StreamAction) :
    ((follow max actions).emitted.map fun u => (u.task, u.reason)).Sublist
      (actions.filterMap (·.call?)) ∧
    ∀ u ∈ (follow max actions).emitted, u.final = u.task.status.terminal := by
  induction actions using List.reverseRecOn with
  | nil => exact ⟨.slnil, fun u hu => absurd hu List.not_mem_nil⟩
  | append_singleton actions a ih =>
    obtain ⟨hsub, hfinal⟩ := ih
    rw [follow_concat, List.filterMap_append]
    cases a with
    | subscribe => exact ⟨hsub.trans (List.sublist_append_left _ _), hfinal⟩
    | unsubscribe => exact ⟨hsub.trans (List.sublist_append_left _ _), hfinal⟩
    | emit task reason =>
      show ((emitTaskUpdate max (follow max actions) task reason).emitted.map _).Sublist _ ∧ _
      rcases emitTaskUpdate_cases max (follow max actions) task reason with hsame |
        ⟨u, htask, hreason, hterminal, -, hemitted, -⟩
      · rw [act, hsame]
        exact ⟨hsub.trans (List.sublist_append_left _ _), hfinal⟩
      · rw [act, hemitted, List.map_append]
        refine ⟨hsub.append ?_, fun v hv => ?_⟩
        · rw [← htask, ← hreason]
          exact .refl _
        · rcases List.mem_append.mp hv with hv | hv
          · exact hfinal v hv
          · rw [List.mem_singleton.mp hv, hterminal, htask]

end TaskStreams

/-! ## Event ids -/

/-- The decimal digits of a number. -/
def IsDecimal (ds : List Char) : Prop := ds ≠ [] ∧ ∀ c ∈ ds, isDigit c = true

theorem isDecimal_toDigits (n : Nat) : IsDecimal (Nat.toDigits 10 n) := by
  refine ⟨Nat.toDigits_ne_nil, fun c hc => ?_⟩
  have hdigit := Nat.isDigit_of_mem_toDigits (by decide) (by decide) hc
  simpa [Char.isDigit, isDigit, Char.le_def] using hdigit

namespace IsDecimal

variable {ds : List Char} {c : Char}

theorem reverse (h : IsDecimal ds) : IsDecimal ds.reverse :=
  ⟨fun he => h.1 (List.reverse_eq_nil_iff.mp he), fun c hc => h.2 c (List.mem_reverse.mp hc)⟩

theorem ne (h : IsDecimal ds) (hc : c ∈ ds) {d : Char} (hd : isDigit d = false) : c ≠ d := by
  rintro rfl
  rw [h.2 c hc] at hd
  cases hd

theorem isSpace_of_mem (h : IsDecimal ds) (hc : c ∈ ds) : isSpace c = false := by
  have hdigit := h.2 c hc
  simp only [isDigit, Char.le_def, Bool.and_eq_true, decide_eq_true_eq,
    UInt32.le_iff_toNat_le] at hdigit
  have hlow : 48 ≤ c.toNat := hdigit.1
  have hhigh : c.toNat ≤ 57 := hdigit.2
  simp only [isSpace, Bool.or_eq_false_iff, Bool.and_eq_false_iff, decide_eq_false_iff_not,
    beq_eq_false_iff_ne]
  omega

theorem dropWhile_isSpace (h : IsDecimal ds) : ds.dropWhile isSpace = ds := by
  cases ds with
  | nil => rfl
  | cons c ds => rw [List.dropWhile_cons_of_neg (by simp [h.isSpace_of_mem (.head _)])]

theorem trim_eq (h : IsDecimal ds) : trim (String.ofList ds) = String.ofList ds := by
  unfold trim
  rw [String.toList_ofList, h.dropWhile_isSpace, h.reverse.dropWhile_isSpace, List.reverse_reverse]

theorem takeWhile_isDigit (h : IsDecimal ds) : ds.takeWhile isDigit = ds :=
  List.takeWhile_eq_self_iff.mpr h.2

theorem dropWhile_isDigit (h : IsDecimal ds) : ds.dropWhile isDigit = [] :=
  List.dropWhile_eq_nil_iff.mpr h.2

theorem decimalValue_eq (h : IsDecimal ds) : decimalValue ds = some (digitsValue ds : Rat) := by
  have hne : ds.isEmpty = false := by simpa [List.isEmpty_eq_false_iff] using h.1
  simp [decimalValue, h.takeWhile_isDigit, h.dropWhile_isDigit, hne, exponentValue]

/-- No digit reads as a prefix or a sign. -/
theorem finiteNumber_eq (h : IsDecimal ds) :
    finiteNumber (String.ofList ds) = some (digitsValue ds : Rat) := by
  unfold finiteNumber
  rw [h.trim_eq, String.toList_ofList]
  split
  · exact absurd rfl h.1
  -- the six radix prefixes, then the two signs
  iterate 6 · exact absurd (h.2 _ (List.mem_cons_of_mem _ List.mem_cons_self)) (by decide)
  iterate 2 · exact absurd (h.2 _ List.mem_cons_self) (by decide)
  · exact h.decimalValue_eq

end IsDecimal

theorem finiteNumber_toString (n : Nat) : finiteNumber (toString n) = some (n : Rat) := by
  have hdigits : toString n = String.ofList (Nat.toDigits 10 n) := Nat.repr_eq_ofList_toDigits
  rw [hdigits, (isDecimal_toDigits n).finiteNumber_eq]
  show some ((Nat.ofDigitChars 10 (Nat.toDigits 10 n) 0 : Nat) : Rat) = _
  rw [Nat.ofDigitChars_toDigits (by decide) (by decide)]

/-- An event id is read back as it was written, unless the task id is empty. -/
theorem parseSseEventId_format {taskId : String} (hid : taskId ≠ "") (n : Nat) :
    parseSseEventId (formatSseEventId taskId n) = some ⟨taskId, n⟩ := by
  have hdec := isDecimal_toDigits n
  have hdigits : toString n = String.ofList (Nat.toDigits 10 n) := Nat.repr_eq_ofList_toDigits
  have hchars : (formatSseEventId taskId n).toList.reverse =
      (Nat.toDigits 10 n).reverse ++ ':' :: taskId.toList.reverse := by
    unfold formatSseEventId
    rw [hdigits]
    simp
  have hcolon : ∀ c ∈ (Nat.toDigits 10 n).reverse, (c != ':') = true := by
    intro c hc
    simpa using hdec.reverse.ne hc (by decide : isDigit ':' = false)
  unfold parseSseEventId
  dsimp only
  rw [hchars, List.dropWhile_append_of_pos hcolon, List.takeWhile_append_of_pos hcolon,
    List.dropWhile_cons_of_neg (by simp), List.takeWhile_cons_of_neg (by simp), List.append_nil,
    List.reverse_reverse, ← hdigits, finiteNumber_toString]
  have hrev : taskId.toList.reverse ≠ [] := by simpa using hid
  cases htask : taskId.toList.reverse with
  | nil => exact absurd htask hrev
  | cons c cs =>
    have hback : String.ofList (c :: cs).reverse = taskId := by
      rw [← htask, List.reverse_reverse, String.ofList_toList]
    have hnonneg : ¬(n : Rat) < 0 := by
      rw [not_lt]
      exact Nat.cast_nonneg n
    simp only [hback, if_neg hnonneg]

end A2ABroker
