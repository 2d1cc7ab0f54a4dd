import A2ABroker.Worker.SessionIsolation

/-! # Which sessions are isolated

The session id joins two names with a character that both may contain, and only the first session
flag of the arguments is looked at. -/

namespace A2ABroker.SessionIsolation

variable {n t n' t' id flag value : String} {args base pre post : List String} {i : Nat}

/-! ## The property -/

/-- Each session flag that has an argument after it is followed by `id`. -/
def Single (id : String) (args : List String) : Prop :=
  ∀ pre flag value post, args = pre ++ flag :: value :: post → isSessionFlag flag = true → value = id

/-- The arguments are the base arguments, in order, but for a session flag and its value. -/
def KeepsOthers (id : String) (base args : List String) : Prop :=
  (∃ pre flag value post, isSessionFlag flag = true ∧ base = pre ++ flag :: value :: post ∧
    args = pre ++ flag :: id :: post) ∨
  args = base ++ ["--session-id", id]

/-- What the isolation contract says of two tasks on their nodes and of the base arguments of the
first. -/
structure Isolated (base : List String) (n t n' t' : String) : Prop where
  injective : deriveTaskSessionId n t = deriveTaskSessionId n' t' → n = n' ∧ t = t'
  built : ∃ args, buildSessionIsolatedArgs base n t = .ok args
  accepted : ∀ args, buildSessionIsolatedArgs base n t = .ok args → ∀ task : TaskRecord,
    task.id = t → ∃ check, validateSessionIsolation task n args = .ok check ∧ check.valid = true
  single : ∀ args, buildSessionIsolatedArgs base n t = .ok args → Single (sessionId n t) args
  kept : ∀ args, buildSessionIsolatedArgs base n t = .ok args → KeepsOthers (sessionId n t) base args
  fixed : ∀ args, buildSessionIsolatedArgs base n t = .ok args →
    buildSessionIsolatedArgs args n t = .ok args

/-- One node id goes on with a hyphen and a text with which the other task id begins. -/
def Clash (n t n' t' : String) : Prop :=
  (∃ u, n' = n ++ "-" ++ u ∧ t = u ++ "-" ++ t') ∨ (∃ u, n = n' ++ "-" ++ u ∧ t' = u ++ "-" ++ t)

/-- There is no session flag, or the first one has a value and those after its value name `id`. -/
def Unambiguous (id : String) (base : List String) : Prop :=
  match findSessionIdInArgs base with
  | none => ∀ arg ∈ base, isSessionFlag arg = false
  | some i => Single id (base.drop (i + 2))

/-! ## Session ids -/

theorem derive_ok (hn : isNonEmpty n = true) (ht : isNonEmpty t = true) :
    deriveTaskSessionId n t = .ok (sessionId n t) := by
  rw [deriveTaskSessionId, hn, ht]
  rfl

theorem sessionId_toList : (sessionId n t).toList =
    A2A_SESSION_ID_PREFIX.toList ++ (n.toList ++ '-' :: t.toList) := by
  simp [sessionId]

/-- A text followed by a hyphen and more. -/
theorem split_hyphen {a b c d u : List Char} (ha : a = c ++ u) (hd : '-' :: d = u ++ '-' :: b) :
    (a = c ∧ b = d) ∨ ∃ v, a = c ++ '-' :: v ∧ d = v ++ '-' :: b := by
  cases u with
  | nil =>
    obtain ⟨-, rfl⟩ := List.cons_eq_cons.mp hd
    exact .inl ⟨ha.trans (List.append_nil c), rfl⟩
  | cons x v =>
    rw [List.cons_append, List.cons_eq_cons] at hd
    obtain ⟨rfl, rfl⟩ := hd
    exact .inr ⟨v, ha, rfl⟩

/-- Two pairs have one session id when they are the same, or clash. -/
theorem sessionId_eq_iff : sessionId n t = sessionId n' t' ↔ (n = n' ∧ t = t') ∨ Clash n t n' t' := by
  constructor
  · intro h
    have hlist : n.toList ++ '-' :: t.toList = n'.toList ++ '-' :: t'.toList := by
      have heq := congrArg String.toList h
      rw [sessionId_toList, sessionId_toList] at heq
      exact List.append_cancel_left heq
    rcases List.append_eq_append_iff.mp hlist with ⟨u, hn, ht⟩ | ⟨u, hn, ht⟩
    · rcases split_hyphen hn ht with ⟨hnn, htt⟩ | ⟨v, hnv, htv⟩
      · exact .inl ⟨String.toList_inj.mp hnn.symm, String.toList_inj.mp htt.symm⟩
      · refine .inr (.inl ⟨String.ofList v, String.toList_inj.mp ?_, String.toList_inj.mp ?_⟩)
        · simpa using hnv
        · simpa using htv
    · rcases split_hyphen hn ht with ⟨hnn, htt⟩ | ⟨v, hnv, htv⟩
      · exact .inl ⟨String.toList_inj.mp hnn, String.toList_inj.mp htt⟩
      · refine .inr (.inr ⟨String.ofList v, String.toList_inj.mp ?_, String.toList_inj.mp ?_⟩)
        · simpa using hnv
        · simpa using htv
  · rintro (⟨rfl, rfl⟩ | ⟨u, rfl, rfl⟩ | ⟨u, rfl, rfl⟩)
    · rfl
    · simp only [sessionId, String.append_assoc]
    · simp only [sessionId, String.append_assoc]

theorem isSessionFlag_sessionId : isSessionFlag (sessionId n t) = false := by
  have hne : ∀ flag : String, flag.toList.head? = some '-' → sessionId n t ≠ flag := by
    intro flag hhead heq
    rw [← heq, sessionId_toList] at hhead
    cases hhead
  simp only [isSessionFlag, Bool.or_eq_false_iff, beq_eq_false_iff_ne]
  exact ⟨⟨hne _ rfl, hne _ rfl⟩, hne _ rfl⟩

/-- What stands after the prefix of a session id has a hyphen. -/
theorem sessionId_not_forbidden : FORBIDDEN_SESSION_IDS.contains (sessionId n t) = false := by
  have hhyphen : '-' ∈ (sessionId n t).toList.drop 4 := by
    rw [sessionId_toList, List.drop_left' (by rfl)]
    exact List.mem_append_right _ (.head _)
  have hforbidden : ∀ forbidden ∈ FORBIDDEN_SESSION_IDS, forbidden = "openclaw-tui" ∨
      '-' ∉ forbidden.toList.drop 4 := by decide
  rw [Bool.eq_false_iff, ne_eq, List.contains_iff_mem]
  intro hmem
  rcases hforbidden _ hmem with heq | hnot
  · have hhead := congrArg (fun s => s.toList.head?) heq
    rw [sessionId_toList] at hhead
    change some 'a' = some 'o' at hhead
    exact absurd hhead (by decide)
  · exact hnot hhyphen

/-! ## Session flags -/

theorem find_append (hpre : ∀ arg ∈ pre, isSessionFlag arg = false)
    (hflag : isSessionFlag flag = true) :
    findSessionIdInArgs (pre ++ flag :: value :: post) = some pre.length := by
  induction pre with
  | nil => simp [findSessionIdInArgs, hflag]
  | cons arg pre ih =>
    obtain ⟨next, rest, hrest⟩ : ∃ next rest, pre ++ flag :: value :: post = next :: rest := by
      cases pre <;> exact ⟨_, _, rfl⟩
    have htail := ih fun arg hmem => hpre arg (.tail _ hmem)
    rw [List.cons_append, hrest, findSessionIdInArgs, if_neg (by simp [hpre arg (.head _)]),
      ← hrest, htail]
    rfl

theorem find_some (h : findSessionIdInArgs args = some i) : ∃ pre flag value post,
    args = pre ++ flag :: value :: post ∧ pre.length = i ∧ isSessionFlag flag = true ∧
      ∀ arg ∈ pre, isSessionFlag arg = false := by
  induction args generalizing i with
  | nil => cases h
  | cons arg args ih =>
    cases args with
    | nil => cases h
    | cons next rest =>
      rw [findSessionIdInArgs] at h
      split at h
      · rename_i hflag
        cases h
        exact ⟨[], arg, next, rest, rfl, rfl, hflag, List.forall_mem_nil _⟩
      · rename_i hflag
        obtain ⟨j, hj, rfl⟩ := Option.map_eq_some_iff.mp h
        obtain ⟨pre, flag, value, post, heq, rfl, hfound, hpre⟩ := ih hj
        refine ⟨arg :: pre, flag, value, post, by rw [heq]; rfl, rfl, hfound, ?_⟩
        exact List.forall_mem_cons.mpr ⟨Bool.eq_false_iff.mpr hflag, hpre⟩

/-- When no flag is found, the only flag there can be is the last argument. -/
theorem find_none (h : findSessionIdInArgs args = none) (hargs : args = pre ++ flag :: post)
    (hflag : isSessionFlag flag = true) : post = [] := by
  induction pre generalizing args with
  | nil =>
    cases post with
    | nil => rfl
    | cons value post =>
      rw [hargs, List.nil_append, findSessionIdInArgs, if_pos hflag] at h
      cases h
  | cons arg pre ih =>
    obtain ⟨next, rest, hrest⟩ : ∃ next rest, pre ++ flag :: post = next :: rest := by
      cases pre <;> exact ⟨_, _, rfl⟩
    rw [hargs, List.cons_append, hrest, findSessionIdInArgs] at h
    split at h
    · cases h
    · exact ih (Option.map_eq_none_iff.mp h) hrest.symm

theorem single_cons_cons : Single id (flag :: value :: post) ↔
    (isSessionFlag flag = true → value = id) ∧ Single id (value :: post) := by
  constructor
  · intro h
    refine ⟨h [] flag value post rfl, fun pre a b rest heq => h (flag :: pre) a b rest ?_⟩
    rw [heq]
    rfl
  · rintro ⟨hfirst, hrest⟩ pre a b rest heq
    cases pre with
    | nil =>
      cases heq
      exact hfirst
    | cons arg pre =>
      rw [List.cons_append, List.cons_eq_cons] at heq
      exact hrest pre a b rest heq.2

theorem single_nil : Single id [] := fun pre _ _ _ heq => by
  cases pre <;> cases heq

theorem single_singleton : Single id [flag] := fun pre _ _ _ heq => by
  rcases pre with _ | ⟨a, _ | ⟨b, pre⟩⟩ <;> cases heq

theorem single_cons (h : isSessionFlag flag = false) : Single id (flag :: post) ↔ Single id post := by
  cases post with
  | nil => exact iff_of_true single_singleton single_nil
  | cons value post =>
    rw [single_cons_cons, and_iff_right]
    exact fun hflag => absurd (h.symm.trans hflag) Bool.false_ne_true

theorem single_append (h : ∀ arg ∈ pre, isSessionFlag arg = false) :
    Single id (pre ++ post) ↔ Single id post := by
  induction pre with
  | nil => rfl
  | cons arg pre ih =>
    obtain ⟨harg, hpre⟩ := List.forall_mem_cons.mp h
    rw [List.cons_append, single_cons harg, ih hpre]

/-- A flag with `id`, among arguments that are no flags before it. -/
theorem single_replaced (hpre : ∀ arg ∈ pre, isSessionFlag arg = false)
    (hid : isSessionFlag id = false) : Single id (pre ++ flag :: id :: post) ↔ Single id post := by
  rw [single_append hpre, single_cons_cons, and_iff_right fun _ => rfl, single_cons hid]

/-! ## Built arguments -/

theorem withSessionId_append (hpre : ∀ arg ∈ pre, isSessionFlag arg = false)
    (hflag : isSessionFlag flag = true) :
    withSessionId (pre ++ flag :: value :: post) id = pre ++ flag :: id :: post := by
  simp [withSessionId, find_append hpre hflag]

theorem validate_ok (hn : isNonEmpty n = true) (hpre : ∀ arg ∈ pre, isSessionFlag arg = false)
    (hflag : isSessionFlag flag = true) {task : TaskRecord} (ht : isNonEmpty task.id = true) :
    validateSessionIsolation task n (pre ++ flag :: sessionId n task.id :: post) =
      .ok { valid := true, expectedSessionId := sessionId n task.id
            foundSessionId := some (sessionId n task.id) } := by
  have hget : (pre ++ flag :: sessionId n task.id :: post).getD (pre.length + 1) "" =
      sessionId n task.id := by
    simp [List.getD_eq_getElem?_getD]
  simp only [validateSessionIsolation, deriveSessionIdFromTask, derive_ok hn ht, find_append hpre hflag,
    hget, sessionId_not_forbidden]
  simp [pure, Except.pure, bind, Except.bind]

theorem build_ok (hn : isNonEmpty n = true) (ht : isNonEmpty t = true) :
    buildSessionIsolatedArgs base n t = .ok (withSessionId base (sessionId n t)) := by
  rw [buildSessionIsolatedArgs, derive_ok hn ht]
  rfl

/-- A flag with the session id, and no other flag with another value: all that the contract asks of
the arguments. -/
theorem isolated_of_built (hn : isNonEmpty n = true) (ht : isNonEmpty t = true)
    (hpre : ∀ arg ∈ pre, isSessionFlag arg = false) (hflag : isSessionFlag flag = true)
    (hbuilt : withSessionId base (sessionId n t) = pre ++ flag :: sessionId n t :: post)
    (hsingle : Single (sessionId n t) post)
    (hkept : KeepsOthers (sessionId n t) base (pre ++ flag :: sessionId n t :: post))
    (hclash : ¬ Clash n t n' t') (hn' : isNonEmpty n' = true) (ht' : isNonEmpty t' = true) :
    Isolated base n t n' t' := by
  have hbuild : buildSessionIsolatedArgs base n t =
      .ok (pre ++ flag :: sessionId n t :: post) := by
    rw [build_ok hn ht, hbuilt]
  have hargs : ∀ {args}, buildSessionIsolatedArgs base n t = .ok args →
      args = pre ++ flag :: sessionId n t :: post := fun h =>
    (Except.ok.inj (hbuild.symm.trans h)).symm
  refine ⟨?_, ⟨_, hbuild⟩, ?_, ?_, ?_, ?_⟩
  · intro heq
    rw [derive_ok hn ht, derive_ok hn' ht'] at heq
    exact (sessionId_eq_iff.mp (Except.ok.inj heq)).resolve_right hclash
  · rintro args h task rfl
    rw [hargs h]
    exact ⟨_, validate_ok hn hpre hflag ht, rfl⟩
  · intro args h
    rw [hargs h, single_replaced hpre isSessionFlag_sessionId]
    exact hsingle
  · intro args h
    rw [hargs h]
    exact hkept
  · intro args h
    rw [hargs h, build_ok hn ht, withSessionId_append hpre hflag]

theorem Clash.ne (h : Clash n t n' t') : n ≠ n' := by
  rintro rfl
  rcases h with ⟨u, hn, -⟩ | ⟨u, hn, -⟩
  all_goals
    have hlength := congrArg String.length hn
    simp only [String.length_append] at hlength
    have hhyphen : "-".length = 1 := rfl
    omega

theorem Isolated.not_clash (h : Isolated base n t n' t') (hn : isNonEmpty n = true)
    (ht : isNonEmpty t = true) (hn' : isNonEmpty n' = true) (ht' : isNonEmpty t' = true) :
    ¬ Clash n t n' t' := by
  intro hclash
  refine hclash.ne (h.injective ?_).1
  rw [derive_ok hn ht, derive_ok hn' ht', sessionId_eq_iff.mpr (.inr hclash)]

/-- The contract holds exactly for pairs that do not clash and base arguments with one session
flag at most that counts. -/
theorem isolated_iff (hn : isNonEmpty n = true) (ht : isNonEmpty t = true)
    (hn' : isNonEmpty n' = true) (ht' : isNonEmpty t' = true) :
    Isolated base n t n' t' ↔ ¬ Clash n t n' t' ∧ Unambiguous (sessionId n t) base := by
  have hid : isSessionFlag (sessionId n t) = false := isSessionFlag_sessionId
  unfold Unambiguous
  cases hfind : findSessionIdInArgs base with
  | none =>
    have hbuilt : withSessionId base (sessionId n t) = base ++ "--session-id" :: [sessionId n t] := by
      rw [withSessionId, hfind]
    constructor
    · intro h
      refine ⟨h.not_clash hn ht hn' ht', fun arg hmem => Bool.eq_false_iff.mpr fun hflag => ?_⟩
      -- A flag that ends the base arguments takes `--session-id` for its value.
      obtain ⟨pre, post, rfl⟩ := List.append_of_mem hmem
      have hpost := find_none hfind rfl hflag
      subst hpost
      have hsingle := h.single _ (build_ok hn ht) pre arg "--session-id" [sessionId n t]
        (by rw [hbuilt]; simp) hflag
      rw [← hsingle] at hid
      cases hid
    · rintro ⟨hclash, hbase⟩
      exact isolated_of_built hn ht hbase rfl hbuilt single_nil (.inr rfl) hclash hn' ht'
  | some i =>
    obtain ⟨pre, flag, value, post, rfl, rfl, hflag, hpre⟩ := find_some hfind
    have hbuilt : withSessionId (pre ++ flag :: value :: post) (sessionId n t) =
        pre ++ flag :: sessionId n t :: post := withSessionId_append hpre hflag
    have hdrop : (pre ++ flag :: value :: post).drop (pre.length + 2) = post := by simp
    simp only [hdrop]
    constructor
    · intro h
      refine ⟨h.not_clash hn ht hn' ht', ?_⟩
      have hsingle := h.single _ (build_ok hn ht)
      rwa [hbuilt, single_replaced hpre hid] at hsingle
    · rintro ⟨hclash, hpost⟩
      exact isolated_of_built hn ht hpre hflag hbuilt hpost (.inl ⟨_, _, _, _, hflag, rfl, rfl⟩)
        hclash hn' ht'

theorem isolated_opus : Isolated ["agent", "--session-id", "main", "--print"] "dungae" "task-1"
    "sogyo" "task-1" := by
  refine (isolated_iff (by decide) (by decide) (by decide) (by decide)).mpr ⟨?_, ?_⟩
  · rintro (⟨u, hu, -⟩ | ⟨u, hu, -⟩)
    all_goals
      have hlist := congrArg String.toList hu
      simp at hlist
  · exact single_singleton

/-- Task `c` on node `a-b` has the session of task `b-c` on node `a`. -/
theorem session_shared : ¬ Isolated [] "a-b" "c" "a" "b-c" := by
  intro h
  have hsame := h.injective (by decide)
  exact absurd hsame.1 (by decide)

end A2ABroker.SessionIsolation
