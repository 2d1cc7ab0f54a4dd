import A2ABroker.Lib.Closure
import A2ABroker.Verify.Fresh

/-! # Exchange threads

The messages of an exchange form a tree: each but the root has a parent in the same exchange, and the
parent links lead to the root. `addExchangeMessage` breaks this for an empty `parentMessageId`, which
it does not look up and yet stores, and for an exchange whose active task belongs elsewhere, since
retention may then drop the exchange while the message is being added (`foreign_task_breaks_thread`).
Runs without such messages keep every thread. -/

namespace A2ABroker

open Prog Relation

variable {env : Env} {s : State} {e e' : ExchangeState} {m : ExchangeMessageRecord}
  {thread : List ExchangeMessageRecord}

/-! ## Threads -/

/-- The stored messages of an exchange. -/
def threadOf (messages : Table ExchangeMessageRecord) (exchangeId : String) :
    List ExchangeMessageRecord :=
  messages.rows.filter fun m => m.exchangeId == exchangeId

/-- One of the messages has the id `a` and the parent `b`. -/
abbrev ParentLink (messages : List ExchangeMessageRecord) : String → String → Prop :=
  Closure.Link (·.id) (·.parentMessageId) messages

theorem mem_threadOf {messages : Table ExchangeMessageRecord} {exchangeId : String} :
    m ∈ threadOf messages exchangeId ↔ m ∈ messages.rows ∧ m.exchangeId = exchangeId := by
  simp [threadOf]

/-- What an exchange says about its messages. -/
structure Threaded (e : ExchangeState) (thread : List ExchangeMessageRecord) : Prop where
  count : e.messageCount = thread.length
  root : ∃ m ∈ thread, m.id = e.rootMessageId ∧ m.parentMessageId = none
  latest : ∃ m ∈ thread, m.id = e.latestMessageId
  parent : ∀ m ∈ thread, m.id ≠ e.rootMessageId → ∃ p ∈ thread, m.parentMessageId = some p.id
  reach : ∀ m ∈ thread, ReflTransGen (ParentLink thread) m.id e.rootMessageId

namespace Threaded

theorem congr (h : Threaded e thread) (hthread : SameThread e e') : Threaded e' thread where
  count := hthread.count ▸ h.count
  root := hthread.root ▸ h.root
  latest := hthread.latest ▸ h.latest
  parent := hthread.root ▸ h.parent
  reach := hthread.root ▸ h.reach

/-- A new exchange has its root. -/
theorem opened (hp : m.parentMessageId = none)
    (he : e.rootMessageId = m.id ∧ e.latestMessageId = m.id ∧ e.messageCount = 1) :
    Threaded e [m] where
  count := he.2.2
  root := ⟨m, List.mem_singleton_self m, he.1.symm, hp⟩
  latest := ⟨m, List.mem_singleton_self m, he.2.1.symm⟩
  parent m' hm' hne := by
    rw [List.mem_singleton.mp hm'] at hne
    exact absurd he.1.symm hne
  reach m' hm' := by
    rw [List.mem_singleton.mp hm', he.1]

/-- A message under a parent of the thread extends it. -/
theorem posted (h : Threaded e thread) {p : ExchangeMessageRecord} (hp : p ∈ thread)
    (hm : m.parentMessageId = some p.id) : Threaded (e.posted m) (thread ++ [m]) where
  count := by
    rw [List.length_append, ← h.count]
    rfl
  root := by
    obtain ⟨r, hr, hroot⟩ := h.root
    exact ⟨r, List.mem_append_left _ hr, hroot⟩
  latest := ⟨m, by simp, rfl⟩
  parent m' hm' hne := by
    rcases List.mem_append.mp hm' with hold | hnew
    · obtain ⟨q, hq, hparent⟩ := h.parent m' hold hne
      exact ⟨q, List.mem_append_left _ hq, hparent⟩
    · rw [List.mem_singleton.mp hnew]
      exact ⟨p, List.mem_append_left _ hp, hm⟩
  reach := by
    have hlift : ∀ q ∈ thread, ReflTransGen (ParentLink (thread ++ [m])) q.id e.rootMessageId := by
      intro q hq
      exact Closure.leads_mono (List.subset_append_left _ _) (h.reach q hq)
    intro m' hm'
    rcases List.mem_append.mp hm' with hold | hnew
    · exact hlift m' hold
    · rw [List.mem_singleton.mp hnew]
      exact .head ⟨m, by simp, rfl, hm⟩ (hlift p hp)

/-- A parent is a message of the thread. -/
theorem parent_mem (h : Threaded e thread) (hn : (thread.map (·.id)).Nodup) (hm : m ∈ thread)
    {p : String} (hp : m.parentMessageId = some p) : ∃ q ∈ thread, q.id = p := by
  by_cases hroot : m.id = e.rootMessageId
  · obtain ⟨r, hr, hid, hnone⟩ := h.root
    obtain rfl : m = r := List.inj_on_of_nodup_map hn hm hr (hroot.trans hid.symm)
    rw [hnone] at hp
    cases hp
  · obtain ⟨q, hq, hparent⟩ := h.parent m hm hroot
    exact ⟨q, hq, Option.some.inj (hparent.symm.trans hp)⟩

end Threaded

/-! ## Threads of a board -/

section
variable {messages : Table ExchangeMessageRecord} {exchangeId : String}

theorem nodup_threadOf : ((threadOf messages exchangeId).map (·.id)).Nodup :=
  messages.nodup.sublist (List.filter_sublist.map _)

theorem threadOf_set (h : messages.get? m.id = none) : threadOf (messages.set m) exchangeId =
    if m.exchangeId = exchangeId then threadOf messages exchangeId ++ [m]
    else threadOf messages exchangeId := by
  unfold threadOf
  rw [Table.rows_set_of_none h, List.filter_append]
  split
  · rename_i hx
    simp [hx]
  · rename_i hx
    simp [hx]

theorem threadOf_retain {keep : String → Bool} (h : keep exchangeId = true) :
    threadOf (messages.retain fun m => keep m.exchangeId) exchangeId =
      threadOf messages exchangeId := by
  unfold threadOf Table.retain
  rw [List.filter_filter]
  refine List.filter_congr fun m _ => ?_
  by_cases hx : m.exchangeId = exchangeId
  · simp [hx, h]
  · simp [hx]

end

/-- Every exchange has its thread, every message has its exchange, and no id to come is in use. -/
structure Board.Threads (env : Env) (b : Board) : Prop where
  exchanges : Unused env b.exchanges b.draws
  messages : Unused env b.messages b.draws
  named : b.exchanges.get? "" = none ∧ b.messages.get? "" = none
  home : ∀ m ∈ b.messages.rows, (b.exchanges.get? m.exchangeId).isSome = true
  thread : ∀ e ∈ b.exchanges.rows, Threaded e (threadOf b.messages e.id)

namespace Board.Threads

variable {b b' : Board}

/-- Of another exchange, or none at all. -/
theorem of_other (h : b.Threads env) (hx : b'.exchanges = b.exchanges)
    (hm : b'.messages = b.messages) (hle : b.draws ≤ b'.draws) : b'.Threads env where
  exchanges := hx ▸ h.exchanges.mono hle
  messages := hm ▸ h.messages.mono hle
  named := by
    rw [hx, hm]
    exact h.named
  home := by
    rw [hx, hm]
    exact h.home
  thread := by
    rw [hx, hm]
    exact h.thread

theorem pruned (h : b.Threads env) (hp : b.Pruned b') : b'.Threads env := by
  obtain ⟨keep, hx, hm, -⟩ := hp.threads
  have hget : ∀ id, b'.exchanges.get? id = (b.exchanges.get? id).filter fun e => keep e.id := by
    intro id
    rw [hx, Table.get?_retain]
  refine ⟨?_, ?_, ⟨?_, ?_⟩, fun m hmem => ?_, fun e he => ?_⟩
  · rw [hx, hp.draws]
    exact h.exchanges.retain _
  · rw [hm, hp.draws]
    exact h.messages.retain _
  · rw [hget, h.named.1]
    rfl
  · rw [hm, Table.get?_retain, h.named.2]
    rfl
  · rw [hm] at hmem
    obtain ⟨hmem, hkeep⟩ := Table.mem_rows_retain.mp hmem
    obtain ⟨e, he⟩ := Option.isSome_iff_exists.mp (h.home m hmem)
    have hid : e.id = m.exchangeId := Table.key_of_get? he
    rw [hget, he, Option.filter_some, hid, hkeep]
    rfl
  · rw [hx] at he
    obtain ⟨he, hkeep⟩ := Table.mem_rows_retain.mp he
    rw [hm, threadOf_retain hkeep]
    exact h.thread e he

theorem relinked (h : b.Threads env) (hget : b.exchanges.get? e.id = some e)
    (hthread : SameThread e e') : Board.Threads env { b with exchanges := b.exchanges.set e' } := by
  have hget' : b.exchanges.get? (key e') = some e := by
    rw [show key e' = e.id from hthread.id]
    exact hget
  refine ⟨h.exchanges.replace hget', h.messages, ⟨?_, h.named.2⟩, fun m hm => ?_, fun x hx => ?_⟩
  · refine (Table.get?_set_of_ne fun heq => ?_).trans h.named.1
    rw [heq, h.named.1] at hget'
    cases hget'
  · show ((b.exchanges.set e').get? m.exchangeId).isSome = true
    rw [Table.get?_set]
    split
    · rfl
    · exact h.home m hm
  · rcases Table.mem_rows_set.mp hx with rfl | ⟨hx, -⟩
    · have hold := h.thread e (Table.mem_of_get? hget)
      rw [← hthread.id] at hold
      exact hold.congr hthread
    · exact h.thread x hx

/-- An exchange without messages yet. -/
theorem threadOf_eq_nil (h : b.Threads env) {exchangeId : String}
    (hnone : b.exchanges.get? exchangeId = none) : threadOf b.messages exchangeId = [] := by
  refine List.filter_eq_nil_iff.mpr fun m hm => ?_
  have hhome := h.home m hm
  simp only [beq_iff_eq]
  rintro rfl
  rw [hnone] at hhome
  cases hhome

/-- An exchange and a new message of it are stored. -/
theorem stored (h : b.Threads env) (htext : ∀ n, env.randomUUID n ≠ "")
    (hinj : Function.Injective env.randomUUID) {n draws : Nat} (hm : m.exchangeId = e.id)
    (hid : m.id = env.randomUUID n) (hn : b.draws ≤ n) (hdraws : n < draws) (hne : e.id ≠ "")
    (hused : Unused env (b.exchanges.set e) draws)
    (hthread : Threaded e (threadOf b.messages e.id ++ [m])) :
    Board.Threads env
      { b with exchanges := b.exchanges.set e, messages := b.messages.set m, draws := draws } := by
  have hfresh : b.messages.get? m.id = none := hid ▸ h.messages n hn
  refine ⟨hused, h.messages.drawn hinj hid hdraws (hn.trans hdraws.le), ⟨?_, ?_⟩,
    fun m' hm' => ?_, fun x hx => ?_⟩
  · exact (Table.get?_set_of_ne hne).trans h.named.1
  · exact (Table.get?_set_of_ne (by rw [show key m = m.id from rfl, hid]; exact htext n)).trans
      h.named.2
  · show ((b.exchanges.set e).get? m'.exchangeId).isSome = true
    rw [Table.get?_set]
    split
    · rfl
    · rename_i hother
      rcases Table.mem_rows_set.mp hm' with rfl | ⟨hm', -⟩
      · exact absurd hm.symm hother
      · exact h.home m' hm'
  · show Threaded x (threadOf (b.messages.set m) x.id)
    rw [threadOf_set hfresh]
    rcases Table.mem_rows_set.mp hx with rfl | ⟨hx, hother⟩
    · rw [if_pos hm]
      exact hthread
    · rw [if_neg fun heq => hother (heq.symm.trans hm)]
      exact h.thread x hx

end Board.Threads

/-- Every move keeps the threads, but for a message without a parent and an exchange that is set
again. -/
theorem Board.Step.threads {mv : Move} {b b' : Board} (h : Board.Step env mv b b')
    (hinj : Function.Injective env.randomUUID) (htext : ∀ n, env.randomUUID n ≠ "")
    (hpost : ∀ e e' m, mv = .post e e' m → m.parentMessageId = some "" → e.rootMessageId = "")
    (hrestore : ∀ e, mv ≠ .restore e) (hb : b.Threads env) : b'.Threads env := by
  cases h with
  | draw => exact hb.of_other rfl rfl (Nat.le_succ _)
  | prune hp => exact hb.pruned hp
  | create_drawn => exact hb.of_other rfl rfl (Nat.le_succ _)
  | propose => exact hb.of_other rfl rfl (Nat.le_succ _)
  | create_named | act | review => exact hb.of_other rfl rfl (Nat.le_refl _)
  | relink hget hthread => exact hb.relinked hget hthread
  | restore => exact absurd rfl (hrestore _)
  | @openThread _ e m hid hroot hm hp he =>
    have hnone : b.exchanges.get? e.id = none := hid ▸ hb.exchanges _ (Nat.le_refl _)
    refine hb.stored htext hinj hm hroot (by omega) (Nat.lt_succ_self _) (hid ▸ htext _)
      (hb.exchanges.drawn hinj hid (by omega) (by omega)) ?_
    rw [hb.threadOf_eq_nil hnone]
    exact .opened hp he
  | @post _ e m hget hid hm hp =>
    have hthread := hb.thread e (Table.mem_of_get? hget)
    have hne : e.id ≠ "" := by
      intro heq
      rw [heq, hb.named.1] at hget
      cases hget
    refine hb.stored (e := e.posted m) htext hinj hm hid (Nat.le_refl _) (Nat.lt_succ_self _) hne
      ((hb.exchanges.mono (Nat.le_succ _)).replace hget) ?_
    obtain ⟨p, hparent, hp⟩ := hp
    have hroot : ∃ r ∈ threadOf b.messages e.id, e.rootMessageId = r.id := by
      obtain ⟨r, hr, hid, -⟩ := hthread.root
      exact ⟨r, hr, hid.symm⟩
    have hstored : ∃ q ∈ threadOf b.messages e.id, p = q.id := by
      rcases hp with rfl | rfl | ⟨q, hq, hx⟩
      · exact hpost _ _ _ rfl hparent ▸ hroot
      · exact hroot
      · exact ⟨q, mem_threadOf.mpr ⟨Table.mem_of_get? hq, hx⟩, (Table.key_of_get? hq).symm⟩
    obtain ⟨q, hq, rfl⟩ := hstored
    exact hthread.posted hq hparent

/-! ## Runs -/

/-- A message names no empty parent, and the live task of its exchange belongs to the exchange. -/
def Op.KeepsThreads (s : State) : Op → Prop
  | addExchangeMessage id request => request.parentMessageId ≠ some "" ∧ ThreadOwnsTask s id
  | _ => True

theorem exec_threads (hinj : Function.Injective env.randomUUID)
    (htext : ∀ n, env.randomUUID n ≠ "") {op : Op} (hop : op.KeepsThreads s)
    (hs : s.board.Threads env) : (exec env s op).board.Threads env := by
  refine (exec_refines env s op).invariant (fun mv b b' hallows hstep hb => ?_) hs
  refine hstep.threads hinj htext ?_ ?_ hb
  · rintro e e' m rfl hempty
    cases hallows with
    | @post request _ _ _ hparent =>
      cases hp : request.parentMessageId with
      | none =>
        rw [hp, hempty] at hparent
        exact (Option.some.inj hparent).symm
      | some p =>
        rw [hp, hempty] at hparent
        exact absurd (hp.trans hparent.symm) hop.1
  · rintro e rfl
    cases hallows with
    | restore hstored hforeign =>
      rcases hforeign with hid | hforeign
      · rw [hid, show s.exchanges.get? "" = none from hs.named.1] at hstored
        cases hstored
      · exact hforeign hop.2

theorem initial_threads (env : Env) : (initial env).board.Threads env where
  exchanges := .empty
  messages := .empty
  named := ⟨rfl, rfl⟩
  home _ hm := by cases hm
  thread _ he := by cases he

theorem run_threads (hinj : Function.Injective env.randomUUID)
    (htext : ∀ n, env.randomUUID n ≠ "") {ops : List Op}
    (h : RunWith env Op.KeepsThreads ops) : (run env ops).board.Threads env :=
  Along.invariant (P := fun s => s.board.Threads env) h
    (fun _ _ hop hs => exec_threads hinj htext hop hs) (initial_threads env)

/-! ## Listing a thread -/

/-- The parent that the loop of `collectThreadMessageIds` follows. -/
def truthyParent (m : ExchangeMessageRecord) : Option String :=
  if truthy m.parentMessageId then m.parentMessageId else none

theorem threadPass_eq (messages : List ExchangeMessageRecord) (allowedIds : List String) :
    threadPass messages allowedIds = Closure.pass (·.id) truthyParent messages allowedIds := by
  have hvisit : ∀ (allowed : List String) (m : ExchangeMessageRecord),
      (if truthy m.parentMessageId && m.parentMessageId.any (allowed.contains ·) &&
        !allowed.contains m.id then m.id :: allowed else allowed) =
        Closure.visit (·.id) truthyParent allowed m := by
    intro allowed m
    unfold Closure.visit truthyParent
    cases truthy m.parentMessageId <;> rfl
  unfold threadPass Closure.pass
  congr 1
  funext allowed m
  exact hvisit allowed m

theorem threadPasses_eq (messages : List ExchangeMessageRecord) (fuel : Nat)
    (allowedIds : List String) : threadPasses messages fuel allowedIds =
      Closure.passes (·.id) truthyParent messages fuel allowedIds := by
  induction fuel generalizing allowedIds with
  | zero => rfl
  | succ fuel ih =>
    unfold threadPasses Closure.passes
    dsimp only
    rw [threadPass_eq, ih]

/-- The loop finds the messages that lead to the parent. -/
theorem mem_collectThreadMessageIds {messages : List ExchangeMessageRecord} {parent id : String} :
    id ∈ collectThreadMessageIds messages parent ↔
      ReflTransGen (Closure.Link (·.id) truthyParent messages) id parent := by
  unfold collectThreadMessageIds
  rw [threadPasses_eq]
  exact Closure.mem_collect

namespace Board.Threads

variable {b : Board} {p : ExchangeMessageRecord}

/-- A parent is stored in the exchange of its message. -/
theorem parent_stored (h : b.Threads env) (hm : m ∈ b.messages.rows) {id : String}
    (hparent : m.parentMessageId = some id) :
    ∃ p ∈ b.messages.rows, p.id = id ∧ p.exchangeId = m.exchangeId := by
  obtain ⟨e, he⟩ := Option.isSome_iff_exists.mp (h.home m hm)
  have hid : e.id = m.exchangeId := Table.key_of_get? he
  obtain ⟨p, hp, hpid⟩ := (h.thread e (Table.mem_of_get? he)).parent_mem nodup_threadOf
    (mem_threadOf.mpr ⟨hm, hid.symm⟩) hparent
  obtain ⟨hp, hx⟩ := mem_threadOf.mp hp
  exact ⟨p, hp, hpid, hx.trans hid⟩

/-- The loop's links are the parent links: no message has an empty parent. -/
theorem link_truthyParent (h : b.Threads env) {messages : List ExchangeMessageRecord}
    (hsub : messages ⊆ b.messages.rows) (i j : String) :
    Closure.Link (·.id) truthyParent messages i j ↔ ParentLink messages i j := by
  refine exists_congr fun m => and_congr_right fun hm => and_congr_right fun _ => ?_
  unfold truthyParent
  cases hparent : m.parentMessageId with
  | none => simp [hparent]
  | some id =>
    obtain ⟨p, hp, rfl, -⟩ := h.parent_stored (hsub hm) hparent
    have hne : p.id ≠ "" := by
      intro heq
      have hget : b.messages.get? p.id = some p := Table.get?_key_of_mem hp
      rw [heq, h.named.2] at hget
      cases hget
    simp [truthy, hne, hparent]

/-- What leads to a message of an exchange is in that exchange. -/
theorem leads_iff (h : b.Threads env) (hp : p ∈ b.messages.rows) (hm : m ∈ b.messages.rows) :
    ReflTransGen (ParentLink b.messages.rows) m.id p.id ↔
      m.exchangeId = p.exchangeId ∧
        ReflTransGen (ParentLink (threadOf b.messages p.exchangeId)) m.id p.id := by
  have hsame : ∀ {x y : ExchangeMessageRecord}, x ∈ b.messages.rows → y ∈ b.messages.rows →
      x.id = y.id → x = y :=
    fun hx hy hid => List.inj_on_of_nodup_map b.messages.nodup hx hy hid
  constructor
  · intro hlead
    generalize hid : m.id = i at hlead
    induction hlead using ReflTransGen.head_induction_on generalizing m with
    | refl =>
      cases hsame hm hp hid
      exact ⟨rfl, .refl⟩
    | head hlink _ ih =>
      obtain ⟨x, hx, rfl, hparent⟩ := hlink
      cases hsame hm hx hid
      obtain ⟨q, hq, rfl, hqx⟩ := h.parent_stored hm hparent
      obtain ⟨hqp, hrest⟩ := ih hq rfl
      have hmx : m.exchangeId = p.exchangeId := hqx.symm.trans hqp
      exact ⟨hmx, .head ⟨m, mem_threadOf.mpr ⟨hm, hmx⟩, rfl, hparent⟩ hrest⟩
  · exact fun hlead => Closure.leads_mono (List.filter_subset_self _) hlead.2

end Board.Threads

/-- What holds of a stored exchange: its counters and ids are those of its stored messages, which form
a tree under the root, and the listing of a message's descendants is complete. -/
structure ThreadSound (s : State) (e : ExchangeState) : Prop where
  count : e.messageCount = (threadOf s.exchangeMessages e.id).length
  root : ∃ m, s.exchangeMessages.get? e.rootMessageId = some m ∧ m.exchangeId = e.id ∧
    m.parentMessageId = none
  latest : ∃ m, s.exchangeMessages.get? e.latestMessageId = some m ∧ m.exchangeId = e.id
  parent : ∀ m ∈ s.exchangeMessages.rows, m.exchangeId = e.id → m.id ≠ e.rootMessageId →
    ∃ id p, m.parentMessageId = some id ∧ s.exchangeMessages.get? id = some p ∧
      p.exchangeId = e.id
  reach : ∀ m ∈ s.exchangeMessages.rows, m.exchangeId = e.id →
    ReflTransGen (ParentLink s.exchangeMessages.rows) m.id e.rootMessageId
  acyclic : ∀ m ∈ s.exchangeMessages.rows, m.exchangeId = e.id →
    ¬TransGen (ParentLink s.exchangeMessages.rows) m.id m.id
  listed : ∀ p ∈ s.exchangeMessages.rows, p.exchangeId = e.id → ∃ items,
    listExchangeMessages e.id { parentMessageId := some p.id, includeDescendants := true } s =
      .ok items s ∧ items.Nodup ∧
    ∀ m, m ∈ items ↔ m ∈ s.exchangeMessages.rows ∧
      ReflTransGen (ParentLink s.exchangeMessages.rows) m.id p.id

theorem mem_exchangeItems {exchangeId : String} :
    m ∈ exchangeItems s exchangeId ↔ m ∈ threadOf s.exchangeMessages exchangeId := mem_sortedCopy

theorem listExchangeMessages_run {p : ExchangeMessageRecord}
    (he : s.exchanges.get? e.id = some e) (hp : s.exchangeMessages.get? p.id = some p)
    (hx : p.exchangeId = e.id) (hne : p.id ≠ "") :
    listExchangeMessages e.id { parentMessageId := some p.id, includeDescendants := true } s =
      .ok ((exchangeItems s e.id).filter fun m =>
        (collectThreadMessageIds (exchangeItems s e.id) p.id).contains m.id) s := by
  have hexchange : requireExchange e.id s = .ok e s := by
    rw [requireExchange, check, he]
  have hmessage : requireExchangeMessage e.id p.id s = .ok p s := by
    rw [requireExchangeMessage, check, hp]
    simp only [hx, if_true]
  unfold listExchangeMessages
  rw [bind_run_ok hexchange, bind_run_ok (get_run s)]
  dsimp only
  rw [if_neg hne, bind_run_ok hmessage]
  rfl

namespace Board.Threads

variable {p : ExchangeMessageRecord}

theorem threadSound (h : s.board.Threads env) (he : e ∈ s.exchanges.rows) : ThreadSound s e := by
  have hthread : Threaded e (threadOf s.exchangeMessages e.id) := h.thread e he
  have hget : ∀ m ∈ s.exchangeMessages.rows, s.exchangeMessages.get? m.id = some m :=
    fun _ hm => Table.get?_key_of_mem hm
  have hreach : ∀ m ∈ s.exchangeMessages.rows, m.exchangeId = e.id →
      ReflTransGen (ParentLink s.exchangeMessages.rows) m.id e.rootMessageId := fun m hm hx =>
    Closure.leads_mono (List.filter_subset_self _) (hthread.reach m (mem_threadOf.mpr ⟨hm, hx⟩))
  obtain ⟨r, hr, hroot, hnone⟩ := hthread.root
  obtain ⟨hr, hrx⟩ := mem_threadOf.mp hr
  refine ⟨hthread.count, ⟨r, hroot ▸ hget r hr, hrx, hnone⟩, ?_, fun m hm hx hne => ?_, hreach,
    fun m hm hx => ?_, fun p hp hpx => ?_⟩
  · obtain ⟨m, hm, hid⟩ := hthread.latest
    obtain ⟨hm, hx⟩ := mem_threadOf.mp hm
    exact ⟨m, hid ▸ hget m hm, hx⟩
  · obtain ⟨p, hp, hparent⟩ := hthread.parent m (mem_threadOf.mpr ⟨hm, hx⟩) hne
    obtain ⟨hp, hpx⟩ := mem_threadOf.mp hp
    exact ⟨p.id, p, hparent, hget p hp, hpx⟩
  · refine Closure.not_transGen_self s.exchangeMessages.nodup (fun b hlink => ?_) (hreach m hm hx)
    obtain ⟨x, hxr, hid, hparent⟩ := hlink
    obtain rfl : x = r :=
      List.inj_on_of_nodup_map s.exchangeMessages.nodup hxr hr (hid.trans hroot.symm)
    exact absurd (hnone.symm.trans hparent) (by simp)
  · have hne : p.id ≠ "" := by
      intro heq
      have hp' := hget p hp
      rw [heq, show s.exchangeMessages.get? "" = none from h.named.2] at hp'
      cases hp'
    refine ⟨_, listExchangeMessages_run (Table.get?_key_of_mem he) (hget p hp) hpx hne, ?_,
      fun m => ?_⟩
    · refine List.Nodup.filter _ ?_
      have hperm : (exchangeItems s e.id).Perm (threadOf s.exchangeMessages e.id) :=
        List.perm_insertionSort _ _
      exact hperm.nodup_iff.mpr (List.Nodup.of_map _ nodup_threadOf)
    · have hitems : ∀ i j, Closure.Link (·.id) truthyParent (exchangeItems s e.id) i j ↔
          ParentLink (threadOf s.exchangeMessages e.id) i j := by
        intro i j
        rw [h.link_truthyParent (fun x hx => (mem_threadOf.mp (mem_exchangeItems.mp hx)).1)]
        exact exists_congr fun x => and_congr_left fun _ => mem_exchangeItems
      rw [List.mem_filter, mem_exchangeItems, mem_threadOf, List.contains_iff_mem,
        mem_collectThreadMessageIds, funext₂ fun i j => propext (hitems i j)]
      constructor
      · rintro ⟨⟨hm, hx⟩, hlead⟩
        exact ⟨hm, (h.leads_iff hp hm).mpr ⟨hx.trans hpx.symm, hpx ▸ hlead⟩⟩
      · rintro ⟨hm, hlead⟩
        obtain ⟨hx, hlead⟩ := (h.leads_iff hp hm).mp hlead
        exact ⟨⟨hm, hx.trans hpx⟩, hpx ▸ hlead⟩

end Board.Threads

/-- In a run whose thread messages name no empty parent and are added to exchanges that own their
task, every exchange has its thread. -/
theorem threads_sound (hinj : Function.Injective env.randomUUID)
    (htext : ∀ n, env.randomUUID n ≠ "") {ops : List Op} (h : RunWith env Op.KeepsThreads ops) :
    ∀ e ∈ (run env ops).exchanges.rows, ThreadSound (run env ops) e :=
  fun _ he => (run_threads hinj htext h).threadSound he

/-- A worker registers, an exchange with it is started, and two messages are added, the second under
`parent`. -/
def threadRun (parent : String) : List Op :=
  [.registerWorker { nodeId := "worker", role := .analyst },
   .startExchange { requester := { id := "hub" }, target := { id := "worker" }, message := "go" },
   .addExchangeMessage "id-1" { actor := { id := "hub" }, message := "first" },
   .addExchangeMessage "id-1"
     { actor := { id := "hub" }, message := "second", parentMessageId := some parent }]

instance (s : State) (id : String) : Decidable (ThreadOwnsTask s id) :=
  decidable_of_iff (∀ t ∈ (s.exchanges.get? id).bind (·.liveTask s), t.exchangeId = some id) <| by
    simp only [ThreadOwnsTask, Option.mem_def, Option.bind_eq_some_iff]
    exact ⟨fun h e t he ht => h t ⟨e, he, ht⟩, fun h t ⟨e, he, ht⟩ => h e t he ht⟩

theorem threads_sound_two_messages :
    let s := run (Env.numbered {}) (threadRun "id-3")
    ∃ e ∈ s.exchanges.rows, e.messageCount = 3 ∧ ThreadSound s e := by
  have hthread : RunWith (Env.numbered {}) Op.KeepsThreads (threadRun "id-3") :=
    .cons trivial (.cons trivial (.cons ⟨by decide, by decide +kernel⟩
      (.cons ⟨by decide, by decide +kernel⟩ .nil)))
  have hsound := threads_sound (Env.numbered_randomUUID_injective {})
    (fun n h => by simp [Env.numbered] at h) hthread
  have hcount : (run (Env.numbered {}) (threadRun "id-3")).exchanges.rows.any
      (fun e => e.messageCount == 3) = true := by decide +kernel
  obtain ⟨e, he, hthree⟩ := List.any_eq_true.mp hcount
  exact ⟨e, he, by simpa using hthree, hsound e he⟩

/-- The empty parent is stored, and names no message. -/
theorem empty_parent_breaks_thread :
    ¬∀ e ∈ (run (Env.numbered {}) (threadRun "")).exchanges.rows,
      ThreadSound (run (Env.numbered {}) (threadRun "")) e := by
  intro h
  have hbroken : (run (Env.numbered {}) (threadRun "")).exchanges.rows.any (fun e =>
      (run (Env.numbered {}) (threadRun "")).exchangeMessages.rows.any fun m =>
        m.exchangeId == e.id && m.id != e.rootMessageId && m.parentMessageId == some "" &&
          ((run (Env.numbered {}) (threadRun "")).exchangeMessages.get? "").isNone) = true := by
    decide +kernel
  obtain ⟨e, he, hbroken⟩ := List.any_eq_true.mp hbroken
  obtain ⟨m, hm, hbroken⟩ := List.any_eq_true.mp hbroken
  simp only [Bool.and_eq_true, beq_iff_eq, bne_iff_ne, Option.isNone_iff_eq_none] at hbroken
  obtain ⟨⟨⟨hx, hne⟩, hparent⟩, hnone⟩ := hbroken
  obtain ⟨id, p, hid, hget, -⟩ := (h e he).parent m hm hx hne
  cases hparent.symm.trans hid
  rw [hnone] at hget
  cases hget

/-- A task of the exchange `id-1`. -/
def createIn (id : String) : Op :=
  .createTask { id := some id, exchangeId := some "id-1", intent := .analyze
                requester := { id := "hub" }, target := { id := "worker" } }

/-- Two tasks of an exchange fail at the same time. A full save keeps the first of them and with it
the exchange, which still points at the second. A task of no exchange takes the id of the second, and
is canceled by a message that declines. -/
def foreignRun : List Op :=
  [.registerWorker { nodeId := "worker", role := .analyst },
   .startExchange { requester := { id := "hub" }, target := { id := "worker" }, message := "go" },
   createIn "first", createIn "second",
   .claimTask "first" "worker", .failTask "first" "worker" none,
   .claimTask "second" "worker", .failTask "second" "worker" none,
   .registerWorker { nodeId := "worker", role := .analyst },
   createFor "second",
   .addExchangeMessage "id-1"
     { actor := { id := "worker" }, message := "no", decision := some .declined }]

/-- A broker that keeps one terminal task and no terminal exchange, with a full save at the second
registration and one in the last operation. -/
def foreignEnv : Env :=
  { Env.numbered { store := .hot, retention :=
      { terminalRetentionMs := 0, maxTerminalTasks := 1, maxTerminalExchanges := 0 } } with
    dateNow := fun n => if n < 35 then 0 else if n < 44 then 300000 + n else 600000 + n }

/-- The save of the cancellation drops the exchange with its messages, and the exchange is set
again. -/
theorem foreign_task_breaks_thread :
    ∃ e ∈ (run foreignEnv foreignRun).exchanges.rows,
      e.messageCount = 2 ∧ (run foreignEnv foreignRun).exchangeMessages.rows = [] := by
  have hlost : ((run foreignEnv foreignRun).exchanges.rows.any (·.messageCount == 2) &&
      (run foreignEnv foreignRun).exchangeMessages.rows.isEmpty) = true := by decide +kernel
  obtain ⟨hcount, hempty⟩ := Bool.and_eq_true_iff.mp hlost
  obtain ⟨e, he, htwo⟩ := List.any_eq_true.mp hcount
  exact ⟨e, he, by simpa using htwo, List.isEmpty_iff.mp hempty⟩

end A2ABroker
