import A2ABroker.Core.ConferenceFanIn

/-! # The timeouts of a conference

The rule for idle participants is written twice: `effectiveParticipants` applies it to copies for a
preview, and `reconcileTimeouts` applies it to the stored participants and moves the decision clock.
Both come to the same (`preview_commits`): the verdicts differ in their numbers at most. -/

namespace A2ABroker.FanIn

open ConferenceFanIn

variable {engine : Engine} {s : ConferenceFanIn} {asOf : Int}

/-! ## What the loop does -/

/-- The participant that the loop stores in the place of `p`, if it does. -/
def timedOut? (s : ConferenceFanIn) (asOf : Int) (p : ConferenceParticipant) :
    Option ConferenceParticipant :=
  if isTimeoutEligible p && s.idleSince p.lastActiveAt asOf then
    some { p with status := .timedOut, leftAt := some asOf, lastActiveAt := asOf }
  else none

theorem timedOut?_key {p q : ConferenceParticipant} (h : timedOut? s asOf p = some q) :
    key q = key p := by
  unfold timedOut? at h
  split at h
  · cases h
    rfl
  · cases h

/-- Where it does, the preview sees the same participant. -/
theorem effective_eq (p : ConferenceParticipant) :
    s.effective asOf true p = (timedOut? s asOf p).getD p := by
  unfold effective timedOut?
  rw [Bool.true_and]
  split <;> rfl

theorem timeOutParticipants_eq (s : ConferenceFanIn) (asOf : Int) :
    s.timeOutParticipants asOf =
      (s.participants.rows.foldl (fun u p => (timedOut? s asOf p).elim u u.set) s.participants,
        s.participants.rows.any fun p => (timedOut? s asOf p).isSome) := by
  have hstep : s.timeOutParticipants asOf = s.participants.rows.foldl (fun x p =>
      ((timedOut? s asOf p).elim x.1 x.1.set, x.2 || (timedOut? s asOf p).isSome))
      (s.participants, false) := by
    unfold timeOutParticipants
    congr 1
    funext x p
    obtain ⟨u, changed⟩ := x
    unfold timedOut?
    cases isTimeoutEligible p <;> cases s.idleSince p.lastActiveAt asOf <;> simp
  have hloop : ∀ (ps : List ConferenceParticipant) (u : Table ConferenceParticipant)
      (changed : Bool), ps.foldl (fun x p =>
        ((timedOut? s asOf p).elim x.1 x.1.set, x.2 || (timedOut? s asOf p).isSome)) (u, changed) =
      (ps.foldl (fun u p => (timedOut? s asOf p).elim u u.set) u,
        changed || ps.any fun p => (timedOut? s asOf p).isSome) := by
    intro ps
    induction ps with
    | nil => intro u changed; simp
    | cons p ps ih =>
      intro u changed
      rw [List.foldl_cons, List.foldl_cons, List.any_cons, ih, Bool.or_assoc]
  rw [hstep, hloop, Bool.false_or]

/-- The stored participants become those of the preview. -/
theorem timeOutParticipants_rows (s : ConferenceFanIn) (asOf : Int) :
    (s.timeOutParticipants asOf).1.rows = s.participants.rows.map (s.effective asOf true) := by
  rw [timeOutParticipants_eq]
  refine (Table.rows_foldl_set fun _ _ h => timedOut?_key h).trans ?_
  exact List.map_congr_left fun p _ => (effective_eq p).symm

/-- A participant that timed out does not time out again. -/
theorem timedOut?_effective (s : ConferenceFanIn) (asOf : Int) (p : ConferenceParticipant) :
    timedOut? s asOf (s.effective asOf true p) = none := by
  rw [effective_eq]
  cases h : timedOut? s asOf p with
  | none => exact h
  | some q =>
    unfold timedOut? at h
    split at h
    · cases h
      rfl
    · cases h

/-! ## Preview and commit -/

/-- A verdict but for its number. -/
def ConferenceVerdict.unnumbered (v : ConferenceVerdict) : ConferenceVerdict := { v with seq := 0 }

/-- The preview of the timeouts at a time, and their commit. -/
structure PreviewCommits (engine : Engine) (s : ConferenceFanIn) (asOf : ConferenceTimeInput) :
    Prop where
  verdict : (s.currentVerdict engine (some asOf)).map (·.unnumbered) =
    (s.reconcileTimeouts engine (some asOf)).2.map (·.unnumbered)
  again : (s.reconcileTimeouts engine (some asOf)).1.reconcileTimeouts engine (some asOf) =
    s.reconcileTimeouts engine (some asOf)
  participants : ∀ ms, normalizeTime engine asOf = .ok ms →
    (s.reconcileTimeouts engine (some asOf)).1.getParticipants engine =
      s.effectiveParticipants engine ms true

/-- What `reconcileTimeouts` leaves, at a time that is read. -/
def reconciled (s : ConferenceFanIn) (asOf : Int) : ConferenceFanIn :=
  let s' := { s with participants := (s.timeOutParticipants asOf).1 }
  if (s.timeOutParticipants asOf).2 then s'.recordMutation asOf else s'

theorem reconcileTimeouts_run {time : ConferenceTimeInput}
    (h : normalizeTime engine time = .ok asOf) : s.reconcileTimeouts engine (some time) =
      (reconciled s asOf, .ok ((reconciled s asOf).computeVerdict engine (some asOf))) := by
  unfold reconcileTimeouts
  simp only [Option.map_some, Option.getD_some, h]
  rfl

/-- The settings and the contributions stay as they are. -/
structure SameButParticipants (s s' : ConferenceFanIn) : Prop where
  config : s'.config = s.config
  contributions : s'.contributions = s.contributions

theorem reconciled_frame (s : ConferenceFanIn) (asOf : Int) :
    SameButParticipants s (reconciled s asOf) := by
  unfold reconciled
  dsimp only
  split <;> exact ⟨rfl, rfl⟩

theorem reconciled_rows (s : ConferenceFanIn) (asOf : Int) :
    (reconciled s asOf).participants.rows = s.participants.rows.map (s.effective asOf true) := by
  rw [← timeOutParticipants_rows]
  unfold reconciled
  dsimp only
  split <;> rfl

namespace SameButParticipants

variable {s' : ConferenceFanIn}

theorem effective (h : SameButParticipants s s') : s'.effective asOf = s.effective asOf := by
  funext applyTimeouts p
  unfold ConferenceFanIn.effective idleSince
  rw [h.config]

theorem timedOut? (h : SameButParticipants s s') : timedOut? s' asOf = timedOut? s asOf := by
  funext p
  unfold FanIn.timedOut? idleSince
  rw [h.config]

theorem assess (h : SameButParticipants s s') (parts : List ConferenceParticipant) :
    s'.assess engine parts = s.assess engine parts := by
  unfold ConferenceFanIn.assess isSettledForReady hasContribution
  rw [h.config, h.contributions]

/-- The same participants get the same verdict. -/
theorem verdictOn (h : SameButParticipants s s') (parts : List ConferenceParticipant)
    (decidedAt : Int) : (s'.verdictOn engine parts decidedAt).unnumbered =
      (s.verdictOn engine parts decidedAt).unnumbered := by
  unfold ConferenceFanIn.verdictOn
  split
  · rfl
  · rw [h.assess]
    unfold summarizeCategories
    rw [h.contributions]
    rfl

end SameButParticipants

theorem reconciled_effective (engine : Engine) (s : ConferenceFanIn) (asOf : Int) :
    (reconciled s asOf).effectiveParticipants engine asOf true =
      s.effectiveParticipants engine asOf true := by
  unfold effectiveParticipants
  rw [reconciled_rows, List.map_map, (reconciled_frame s asOf).effective]
  refine congrArg _ (List.map_congr_left fun p _ => ?_)
  show s.effective asOf true (s.effective asOf true p) = _
  rw [effective_eq (s.effective asOf true p), timedOut?_effective]
  rfl

/-- A second commit at the same time changes nothing. -/
theorem reconciled_again (s : ConferenceFanIn) (asOf : Int) :
    reconciled (reconciled s asOf) asOf = reconciled s asOf := by
  have hnone : ∀ p ∈ (reconciled s asOf).participants.rows,
      timedOut? (reconciled s asOf) asOf p = none := by
    intro p hp
    rw [reconciled_rows] at hp
    obtain ⟨q, -, rfl⟩ := List.mem_map.mp hp
    rw [(reconciled_frame s asOf).timedOut?, timedOut?_effective]
  generalize reconciled s asOf = s' at hnone
  have hfixed : ∀ ps : List ConferenceParticipant, (∀ p ∈ ps, timedOut? s' asOf p = none) →
      ∀ u : Table ConferenceParticipant,
        ps.foldl (fun u p => (timedOut? s' asOf p).elim u u.set) u = u := by
    intro ps hps u
    induction ps with
    | nil => rfl
    | cons p ps ih =>
      rw [List.foldl_cons, hps p List.mem_cons_self]
      exact ih fun q hq => hps q (List.mem_cons_of_mem p hq)
  have hunchanged : (s'.participants.rows.any fun p => (timedOut? s' asOf p).isSome) = false := by
    rw [List.any_eq_false]
    intro p hp
    rw [hnone p hp]
    exact Bool.false_ne_true
  unfold reconciled
  rw [timeOutParticipants_eq, hfixed _ hnone, hunchanged]
  rfl

/-- Preview and commit agree, whatever the time is. -/
theorem preview_commits (engine : Engine) (s : ConferenceFanIn) {asOf : ConferenceTimeInput}
    (hset : asOf.isSet = true) : PreviewCommits engine s asOf := by
  have hpreview : s.currentVerdict engine (some asOf) =
      (normalizeTime engine asOf).map fun ms => s.computeVerdict engine (some ms) := by
    unfold currentVerdict
    rw [Option.filter_some, if_pos hset]
  cases htime : normalizeTime engine asOf with
  | error e =>
    have hrun : s.reconcileTimeouts engine (some asOf) = (s, .error e) := by
      unfold reconcileTimeouts
      simp only [Option.map_some, Option.getD_some, htime]
    refine ⟨?_, ?_, fun ms hms => ?_⟩
    · rw [hpreview, htime, hrun]
      rfl
    · rw [hrun]
      exact hrun
    · rw [htime] at hms
      cases hms
  | ok ms =>
    have hrun := fun s : ConferenceFanIn => reconcileTimeouts_run (s := s) htime
    refine ⟨?_, ?_, fun ms' hms => ?_⟩
    · rw [hpreview, htime, hrun]
      refine congrArg Except.ok ?_
      show (s.verdictOn engine (s.effectiveParticipants engine ms true) ms).unnumbered =
        ((reconciled s ms).verdictOn engine
          ((reconciled s ms).effectiveParticipants engine ms true) ms).unnumbered
      rw [reconciled_effective, (reconciled_frame s ms).verdictOn]
    · rw [hrun s, hrun (reconciled s ms), reconciled_again]
    · obtain rfl : ms = ms' := Except.ok.inj (htime.symm.trans hms)
      rw [hrun]
      unfold getParticipants effectiveParticipants
      rw [reconciled_rows]

/-- An engine that reads no text. -/
def blindEngine : Engine where
  dateParse _ := none
  localeCompare := compare
  showNumber _ := ""

/-- A chair joins, and ten minutes go by. -/
theorem preview_commits_idle : PreviewCommits blindEngine
    (({ config := { redactSummary := id } } : ConferenceFanIn).joinParticipant blindEngine
      { nodeId := "chair", role := .chair }).1
    (.date (some (epochMs + 600000))) :=
  preview_commits blindEngine _ rfl

end A2ABroker.FanIn
