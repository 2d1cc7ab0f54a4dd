import A2ABroker.Core.WakeAudit
import A2ABroker.Lib.Pending

/-! # Duplicate wakes

A request for a session whose wake is active emits no second `wake_requested`, but it writes
`duplicate_suppressed` over the status of the wake. The wake then counts as inactive and can go
nowhere: its next report is refused and the next request starts a wake next to it. -/

namespace A2ABroker.WakeAudit

open Prog

variable {now : Nat → Int} {m m' : WakeAuditManager} {maxEvents : Option Int}

/-! ## The property -/

/-- The event asks for a wake of the session. -/
def Opens (key : String) (e : WakeEvent) : Prop := e.sessionKey = key ∧ e.kind = .requested

/-- The event ends a wake of the session. -/
def Closes (key : String) (e : WakeEvent) : Prop :=
  e.sessionKey = key ∧ (e.kind = .replied ∨ e.kind = .failed ∨ e.kind = .unreachable)

/-- The wake of the session is active. -/
def Active (m : WakeAuditManager) (key : String) : Prop :=
  ∃ session, m.sessions.get? key = some session ∧ session.status.isWakeActive = true

/-- Neither the progress of the wake nor what may be applied to it is different: only the time of the
last change is. -/
def SameWake (m m' : WakeAuditManager) (key : String) : Prop :=
  ∀ session, m.sessions.get? key = some session → ∃ session',
    m'.sessions.get? key = some session' ∧
    session' = { session with updatedAt := session'.updatedAt } ∧
    ∀ target, target ∈ wakeTransitions session'.status ↔ target ∈ wakeTransitions session.status

/-- No session has a second wake requested while one is under way, and a duplicate request leaves the
wake as it is. -/
structure SuppressesDuplicates (now : Nat → Int) (maxEvents : Option Int) (calls : List WakeCall) :
    Prop where
  single : ∀ key, OneAtATime (Opens key) (Closes key) (wakeRun now maxEvents calls).buffer.pushed
  harmless : ∀ before input after, calls = before ++ .requestWake input :: after →
    Active (wakeRun now maxEvents before) input.sessionKey →
      SameWake (wakeRun now maxEvents before)
        (wakeStep now (wakeRun now maxEvents before) (.requestWake input)) input.sessionKey

/-! ## One call -/

theorem emitWakeEvent_run (now : Nat → Int) (sessionKey peerNodeId : String) (parentTaskId : Option String)
    (kind : WakeEventKind) (metadata : WakeEventMetadata) (runId : Option String)
    (m : WakeAuditManager) : ∃ e m', emitWakeEvent now sessionKey peerNodeId parentTaskId kind
        metadata runId m = .ok () m' ∧
      e.sessionKey = sessionKey ∧ e.kind = kind ∧ m'.sessions = m.sessions ∧
      m'.buffer.pushed = m.buffer.pushed ++ [e] :=
  ⟨{ id := m.buffer.nextId + 1, timestamp := .iso (now m.clockReads), sessionKey, peerNodeId, runId
     parentTaskId, kind, metadata }, _, rfl, rfl, rfl, rfl, rfl⟩

/-- A call writes one session and emits events of it, of one kind. -/
structure Wrote (m m' : WakeAuditManager) (session : WakeSessionState) (kind : WakeEventKind)
    (es : List WakeEvent) : Prop where
  sessions : m'.sessions = m.sessions.set session
  pushed : m'.buffer.pushed = m.buffer.pushed ++ es
  events : ∀ e ∈ es, e.sessionKey = session.sessionKey ∧ e.kind = kind

theorem wakeTransition_run {sessionKey : String} {target : WakeStatus}
    {apply : WakeSessionState → WakeSessionState} (happly : ∀ s, (apply s).status = s.status ∧
      (apply s).sessionKey = s.sessionKey) (durationMs : Option Int)
    (failureCode : Option WakeFailureCode) (m : WakeAuditManager) :
    (∃ e, wakeTransition now sessionKey target apply durationMs failureCode m = .error e m) ∨
    ∃ old session e m', m.sessions.get? sessionKey = some old ∧
      target ∈ wakeTransitions old.status ∧ session.status = target ∧
      session.sessionKey = sessionKey ∧ Wrote m m' session target.eventKind [e] ∧
      wakeTransition now sessionKey target apply durationMs failureCode m = .ok session m' := by
  unfold wakeTransition
  cases hget : m.sessions.get? sessionKey with
  | none =>
    have hrequire : requireSession sessionKey m =
        .error ⟨"Wake session not found: " ++ sessionKey, "NOT_FOUND"⟩ m := by
      simp [requireSession, check, hget]
    exact .inl ⟨_, bind_run_error hrequire⟩
  | some old =>
    have hrequire : requireSession sessionKey m = .ok old m := by
      simp [requireSession, check, hget]
    rw [bind_run_ok hrequire]
    cases hallowed : (wakeTransitions old.status).contains target with
    | false =>
      have hassert : ∃ e, assertWakeTransition old target m = .error e m := by
        unfold assertWakeTransition
        rw [hallowed]
        exact ⟨_, rfl⟩
      obtain ⟨e, he⟩ := hassert
      exact .inl ⟨e, bind_run_error he⟩
    | true =>
      have hassert : assertWakeTransition old target m = .ok () m := by
        unfold assertWakeTransition
        rw [hallowed]
        rfl
      obtain ⟨session, hsession⟩ : ∃ session, session =
        apply { old with status := target, updatedAt := .iso (now m.clockReads) } := ⟨_, rfl⟩
      have hstatus : session.status = target := hsession ▸ (happly _).1
      have hkey : session.sessionKey = sessionKey := by
        rw [hsession]
        exact (happly _).2.trans (Table.key_of_get? hget)
      obtain ⟨e, m', hemit, hekey, hekind, hsessions, hpushed⟩ := emitWakeEvent_run now sessionKey
        session.peerNodeId session.parentTaskId target.eventKind
        { durationMs, replayCursor := session.replayCursor, failureCode } session.runId
        { m with sessions := m.sessions.set session, clockReads := m.clockReads + 1 }
      refine .inr ⟨old, session, e, m', rfl, List.contains_iff_mem.mp hallowed, hstatus, hkey,
        ⟨hsessions, hpushed, fun e' he => ?_⟩, ?_⟩
      · obtain rfl := List.mem_singleton.mp he
        exact ⟨hekey.trans hkey.symm, hekind⟩
      · rw [bind_run_ok hassert]
        show (emitWakeEvent now sessionKey _ _ _ _ _ >>= fun _ => pure _) _ = _
        rw [← hsession, bind_run_ok hemit]
        rfl

/-- What a call does to the manager. -/
inductive WakeStepped (m : WakeAuditManager) : WakeCall → WakeAuditManager → Prop where
  | refused (call : WakeCall) : WakeStepped m call m
  | suppressed {input : WakeRequestInput} {session : WakeSessionState} {e : WakeEvent}
    {m' : WakeAuditManager} (active : Active m input.sessionKey)
    (status : session.status = .duplicateSuppressed) (key : session.sessionKey = input.sessionKey)
    (wrote : Wrote m m' session .duplicateSuppressed [e]) : WakeStepped m (.requestWake input) m'
  | started {input : WakeRequestInput} {session : WakeSessionState} {e : WakeEvent}
    {m' : WakeAuditManager} (inactive : ¬Active m input.sessionKey)
    (status : session.status = .requested) (key : session.sessionKey = input.sessionKey)
    (wrote : Wrote m m' session .requested [e]) : WakeStepped m (.requestWake input) m'
  | moved {call : WakeCall} {session : WakeSessionState} {e : WakeEvent} {es : List WakeEvent}
    {m' : WakeAuditManager}
    (reported : session.status ≠ .requested ∧ session.status ≠ .duplicateSuppressed)
    (wrote : Wrote m m' session session.status.eventKind (e :: es)) : WakeStepped m call m'

/-- A duplicate request: the wake's status is lost. -/
theorem requestWake_suppressed {input : WakeRequestInput} {existing : WakeSessionState}
    (hget : m.sessions.get? input.sessionKey = some existing)
    (hactive : existing.status.isWakeActive = true) :
    ∃ session e, session.status = .duplicateSuppressed ∧ session.sessionKey = input.sessionKey ∧
      Wrote m (finalState (requestWake now input m)) session .duplicateSuppressed [e] := by
  have hkey : existing.sessionKey = input.sessionKey := Table.key_of_get? hget
  have hfilter : (m.sessions.get? input.sessionKey).filter (·.status.isWakeActive) =
      some existing := by
    rw [hget, Option.filter_some, if_pos hactive]
  unfold requestWake
  rw [bind_run_ok (get_run m), hfilter]
  refine ⟨{ existing with status := .duplicateSuppressed, updatedAt := .iso (now m.clockReads) }, _,
    rfl, hkey, rfl, rfl, fun e he => ?_⟩
  obtain rfl := List.mem_singleton.mp he
  exact ⟨hkey.symm, rfl⟩

theorem requestWake_stepped (m : WakeAuditManager) (input : WakeRequestInput) :
    WakeStepped m (.requestWake input) (finalState (requestWake now input m)) := by
  by_cases hactive : Active m input.sessionKey
  · obtain ⟨existing, hget, hexisting⟩ := hactive
    obtain ⟨session, e, hstatus, hkey, hwrote⟩ := requestWake_suppressed hget hexisting
    exact .suppressed ⟨existing, hget, hexisting⟩ hstatus hkey hwrote
  · have hfilter : (m.sessions.get? input.sessionKey).filter (·.status.isWakeActive) = none := by
      rw [Option.filter_eq_none_iff]
      exact fun session hget hexisting => hactive ⟨session, hget, hexisting⟩
    unfold requestWake
    rw [bind_run_ok (get_run m), hfilter]
    refine .started hactive ?_ ?_ ⟨rfl, rfl, fun e he => ?_⟩
    · rfl
    · rfl
    · obtain rfl := List.mem_singleton.mp he
      exact ⟨rfl, rfl⟩

theorem withRunId_frame (s : WakeSessionState) (runId : Option String) :
    (s.withRunId runId).status = s.status ∧ (s.withRunId runId).sessionKey = s.sessionKey := by
  unfold WakeSessionState.withRunId
  split <;> exact ⟨rfl, rfl⟩

theorem wakeTransition_stepped {call : WakeCall} {sessionKey : String} {target : WakeStatus}
    {apply : WakeSessionState → WakeSessionState} {durationMs : Option Int}
    {failureCode : Option WakeFailureCode} {m : WakeAuditManager}
    (htarget : target ≠ .requested ∧ target ≠ .duplicateSuppressed)
    (happly : ∀ s, (apply s).status = s.status ∧ (apply s).sessionKey = s.sessionKey) :
    WakeStepped m call
      (finalState (wakeTransition now sessionKey target apply durationMs failureCode m)) := by
  rcases wakeTransition_run happly durationMs failureCode m with
    ⟨e, he⟩ | ⟨old, session, e, m', hget, hallowed, hstatus, hkey, hwrote, hrun⟩
  · rw [he]
    exact .refused call
  · rw [hrun]
    exact .moved (hstatus ▸ htarget) (hstatus ▸ hwrote)

theorem launchWake_stepped {call : WakeCall} (sessionKey : String) (runId : Option String)
    (m : WakeAuditManager) : WakeStepped m call (finalState (launchWake now sessionKey runId m)) := by
  have happly : ∀ s : WakeSessionState,
      ({ s with startedAt := some s.updatedAt }.withRunId runId).status = s.status ∧
      ({ s with startedAt := some s.updatedAt }.withRunId runId).sessionKey = s.sessionKey :=
    fun s => withRunId_frame { s with startedAt := some s.updatedAt } runId
  have hrun := @wakeTransition_run now sessionKey .launched _ happly none none m
  unfold launchWake
  rcases hrun with ⟨e, he⟩ | ⟨old, session, e, m₁, hget, hallowed, hstatus, hkey, hwrote, hrun⟩
  · rw [bind_run_error he]
    exact .refused call
  · obtain ⟨e', m', hemit, hekey, hekind, hsessions, hpushed⟩ := emitWakeEvent_run now sessionKey
      session.peerNodeId session.parentTaskId .launched {} none m₁
    rw [bind_run_ok hrun, bind_run_ok hemit]
    have hlaunched : session.status ≠ .requested ∧ session.status ≠ .duplicateSuppressed :=
      hstatus ▸ ⟨nofun, nofun⟩
    suffices h : Wrote m m' session session.status.eventKind [e, e'] from .moved hlaunched h
    refine ⟨hsessions.trans hwrote.sessions, ?_, ?_⟩
    · refine hpushed.trans ?_
      rw [hwrote.pushed, List.append_assoc]
      rfl
    · rw [hstatus]
      refine List.forall_mem_cons.mpr ⟨hwrote.events e (.head _), fun e'' he => ?_⟩
      obtain rfl := List.mem_singleton.mp he
      exact ⟨hekey.trans hkey.symm, hekind⟩

theorem wakeStep_stepped (m : WakeAuditManager) (call : WakeCall) :
    WakeStepped m call (wakeStep now m call) := by
  cases call with
  | requestWake input => exact requestWake_stepped m input
  | acceptWake sessionKey runId =>
    show WakeStepped m _ (finalState (acceptWake now sessionKey runId m))
    unfold acceptWake
    refine wakeTransition_stepped ⟨nofun, nofun⟩ fun s => ?_
    exact withRunId_frame { s with acceptedAt := some s.updatedAt } runId
  | resumeWake sessionKey =>
    show WakeStepped m _ (finalState (resumeWake now sessionKey m))
    unfold resumeWake
    exact wakeTransition_stepped ⟨nofun, nofun⟩ fun _ => ⟨rfl, rfl⟩
  | launchWake sessionKey runId => exact launchWake_stepped sessionKey runId m
  | replyWake sessionKey durationMs =>
    show WakeStepped m _ (finalState (replyWake now sessionKey durationMs m))
    unfold replyWake
    exact wakeTransition_stepped ⟨nofun, nofun⟩ fun _ => ⟨rfl, rfl⟩
  | failWake sessionKey reason =>
    show WakeStepped m _ (finalState (failWake now sessionKey reason m))
    unfold failWake
    exact wakeTransition_stepped ⟨nofun, nofun⟩ fun _ => ⟨rfl, rfl⟩
  | markUnreachable sessionKey =>
    show WakeStepped m _ (finalState (markUnreachable now sessionKey m))
    unfold markUnreachable
    exact wakeTransition_stepped ⟨nofun, nofun⟩ fun _ => ⟨rfl, rfl⟩

/-! ## Runs -/

/-- A pending wake is active, and no other one was requested next to it. -/
structure Tracked (m : WakeAuditManager) (key : String) : Prop where
  single : OneAtATime (Opens key) (Closes key) m.buffer.pushed
  active : Pending (Opens key) (Closes key) m.buffer.pushed → Active m key

theorem tracked_create (maxEvents : Option Int) (key : String) :
    Tracked (.create maxEvents) key :=
  ⟨oneAtATime_nil, fun h => absurd h not_pending_nil⟩

theorem Wrote.active {session : WakeSessionState} {kind : WakeEventKind} {es : List WakeEvent}
    (h : Wrote m m' session kind es) (hactive : session.status.isWakeActive = true) :
    Active m' session.sessionKey :=
  ⟨session, by rw [h.sessions]; exact Table.get?_set_self (a := session), hactive⟩

/-- A call writes and reports one session only. -/
theorem Wrote.other {session : WakeSessionState} {kind : WakeEventKind} {es : List WakeEvent}
    {key : String} (h : Wrote m m' session kind es) (hm : Tracked m key)
    (hne : session.sessionKey ≠ key) : Tracked m' key := by
  have hopens : ∀ e ∈ es, ¬Opens key e := fun e he ho =>
    hne ((h.events e he).1.symm.trans ho.1)
  have hcloses : ∀ e ∈ es, ¬Closes key e := fun e he hc =>
    hne ((h.events e he).1.symm.trans hc.1)
  refine ⟨h.pushed ▸ oneAtATime_append hopens hm.single, fun h' => ?_⟩
  rw [h.pushed, pending_append fun e he => ⟨hopens e he, hcloses e he⟩] at h'
  obtain ⟨session', hget, hactive⟩ := hm.active h'
  exact ⟨session', by rw [h.sessions, Table.get?_set_of_ne hne]; exact hget, hactive⟩

/-- A report opens nothing, and closes the wake when it is a last one. -/
theorem Wrote.reported {session : WakeSessionState} {e : WakeEvent} {es : List WakeEvent}
    (h : Wrote m m' session session.status.eventKind (e :: es))
    (hreported : session.status ≠ .requested ∧ session.status ≠ .duplicateSuppressed)
    (hm : Tracked m session.sessionKey) : Tracked m' session.sessionKey := by
  have hopens : ∀ e' ∈ e :: es, ¬Opens session.sessionKey e' := by
    intro e' he hopens
    have hkind := (h.events e' he).2.symm.trans hopens.2
    cases hstatus : session.status <;> simp_all [WakeStatus.eventKind]
  have hsingle := oneAtATime_append hopens hm.single
  rw [← h.pushed] at hsingle
  refine ⟨hsingle, fun hpending => ?_⟩
  by_cases hactive : session.status.isWakeActive = true
  · exact h.active hactive
  · have hcloses : ∀ e' ∈ e :: es, Closes session.sessionKey e' := by
      intro e' he
      refine ⟨(h.events e' he).1, ?_⟩
      rw [(h.events e' he).2]
      cases hstatus : session.status <;> rw [hstatus] at hactive hreported <;>
        simp_all [WakeStatus.eventKind, WakeStatus.isWakeActive]
    rw [h.pushed] at hpending
    refine absurd hpending (not_pending_append (List.cons_ne_nil e es) fun e' he => ?_)
    exact ⟨hopens e' he, hcloses e' he⟩

/-- A call keeps the sessions tracked, unless it is a duplicate request. -/
theorem WakeStepped.tracked {call : WakeCall} {key : String} (h : WakeStepped m call m')
    (hduplicate : ∀ input, call = .requestWake input → ¬Active m input.sessionKey)
    (hm : Tracked m key) : Tracked m' key := by
  cases h with
  | refused => exact hm
  | suppressed hactive => exact absurd hactive (hduplicate _ rfl)
  | started hinactive hstatus hkey hwrote =>
    rename_i input session e
    by_cases hne : session.sessionKey = key
    · subst hne
      have hidle : ¬Pending (Opens session.sessionKey) (Closes session.sessionKey) m.buffer.pushed :=
        fun hpending => hinactive (hkey ▸ hm.active hpending)
      refine ⟨?_, fun _ => hwrote.active (by rw [hstatus]; rfl)⟩
      rw [hwrote.pushed]
      exact oneAtATime_concat.mpr ⟨hm.single, fun _ => hidle⟩
    · exact hwrote.other hm hne
  | moved hreported hwrote =>
    rename_i session e es
    by_cases hne : session.sessionKey = key
    · subst hne
      exact hwrote.reported hreported hm
    · exact hwrote.other hm hne

theorem wakeRun_concat (maxEvents : Option Int) (calls : List WakeCall) (call : WakeCall) :
    wakeRun now maxEvents (calls ++ [call]) =
      wakeStep now (wakeRun now maxEvents calls) call := by
  rw [wakeRun, List.foldl_concat]
  rfl

/-- Along a run without duplicate requests every session stays tracked. -/
theorem tracked_run {calls : List WakeCall}
    (h : ∀ before input after, calls = before ++ .requestWake input :: after →
      ¬Active (wakeRun now maxEvents before) input.sessionKey) (key : String) :
    Tracked (wakeRun now maxEvents calls) key := by
  induction calls using List.reverseRecOn with
  | nil => exact tracked_create maxEvents key
  | append_singleton calls call ih =>
    have hbefore : Tracked (wakeRun now maxEvents calls) key := ih fun before input after heq =>
      h before input (after ++ [call]) (by rw [heq, List.append_assoc, List.cons_append])
    rw [wakeRun_concat]
    exact (wakeStep_stepped _ call).tracked (fun input heq => h calls input [] (heq ▸ rfl)) hbefore

theorem not_sameWake_of_active {input : WakeRequestInput} (h : Active m input.sessionKey) :
    ¬SameWake m (wakeStep now m (.requestWake input)) input.sessionKey := by
  intro hsame
  obtain ⟨existing, hget, hactive⟩ := h
  obtain ⟨session, hget', hsession, -⟩ := hsame existing hget
  obtain ⟨written, e, hstatus, hkey, hwrote⟩ := @requestWake_suppressed now m _ _ hget hactive
  have hafter : (finalState (requestWake now input m)).sessions.get? input.sessionKey =
    some session := hget'
  have hwritten : written = session := by
    rw [hwrote.sessions, ← hkey] at hafter
    exact Option.some.inj (Table.get?_set_self.symm.trans hafter)
  have hexisting : session.status = existing.status := by rw [hsession]
  rw [← hexisting, ← hwritten, hstatus] at hactive
  cases hactive

/-- A run suppresses duplicates as it should exactly when there are none: no wake is requested for a
session whose wake is active. -/
theorem suppressesDuplicates_iff (now : Nat → Int) (maxEvents : Option Int)
    (calls : List WakeCall) :
    SuppressesDuplicates now maxEvents calls ↔
      ∀ before input after, calls = before ++ .requestWake input :: after →
        ¬Active (wakeRun now maxEvents before) input.sessionKey := by
  constructor
  · intro h before input after heq hactive
    exact not_sameWake_of_active hactive (h.harmless before input after heq hactive)
  · intro h
    exact ⟨fun key => (tracked_run h key).single, fun before input after heq hactive =>
      absurd hactive (h before input after heq)⟩

/-- Of three requests in a row for one session, the first and the third start a wake. -/
theorem third_request_starts :
    let input : WakeRequestInput := { sessionKey := "s", peerNodeId := "p" }
    let calls : List WakeCall := [.requestWake input, .requestWake input, .requestWake input]
    (wakeRun (fun _ => 0) none calls).buffer.pushed.map (·.kind) =
        [.requested, .duplicateSuppressed, .requested] ∧
      ¬SuppressesDuplicates (fun _ => 0) none calls := by
  refine ⟨by decide, fun h => ?_⟩
  have hsingle := h.single "s"
  generalize hrun : (wakeRun _ none _).buffer.pushed = events at hsingle
  have hkinds : events.map (fun e => (e.sessionKey, e.kind)) =
      [("s", .requested), ("s", .duplicateSuppressed), ("s", .requested)] := by
    rw [← hrun]
    decide
  obtain ⟨e₁, _, rfl, h₁, hkinds⟩ := List.map_eq_cons_iff.mp hkinds
  obtain ⟨e₂, _, rfl, h₂, hkinds⟩ := List.map_eq_cons_iff.mp hkinds
  obtain ⟨e₃, _, rfl, h₃, hkinds⟩ := List.map_eq_cons_iff.mp hkinds
  obtain rfl := List.map_eq_nil_iff.mp hkinds
  have hopens : ∀ e : WakeEvent, (e.sessionKey, e.kind) = ("s", .requested) → Opens "s" e :=
    fun _ heq => Prod.mk.inj heq
  refine hsingle [e₁, e₂] e₃ [] rfl (hopens e₃ h₃) ⟨[], e₁, [e₂], rfl, hopens e₁ h₁, ?_⟩
  intro e he hcloses
  obtain rfl := List.mem_singleton.mp he
  rw [Closes, (Prod.mk.inj h₂).2] at hcloses
  simp at hcloses

end A2ABroker.WakeAudit
