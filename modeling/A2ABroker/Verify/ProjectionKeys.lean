import A2ABroker.Lib.Text
import A2ABroker.Verify.ProjectionOrder

/-! # The keys of projections

`recordKey` writes the parent round, the origin broker and the child one after the other, with `::`
between them and nothing escaped. Two reports about different children have one key exactly when a
`::` of one key stands inside a token of the other, or a child task is called what the key calls
another report's worker or order (`recordKey_unambiguous_iff`). -/

namespace A2ABroker

/-- The child of a report: the best identity it gives. -/
inductive Child where
  | task (id : String)
  | worker (id : String)
  | order (n : Nat)
  | none
  deriving DecidableEq

def NormalizedProjection.child (p : NormalizedProjection) : Child :=
  match p.childTaskId, p.childWorkerId, p.parentRoundOrder with
  | some id, _, _ => .task id
  | none, some id, _ => .worker id
  | none, none, some n => .order n
  | none, none, none => .none

/-- What a key says of a child. -/
def Child.text : Child → String
  | task id => id
  | worker id => "worker:" ++ id
  | order n => "order:" ++ toString n
  | none => "broker"

/-- A child task with the name that stands for a worker or an order. -/
def Child.Poses : Child → Child → Prop
  | task id, worker w => id = "worker:" ++ w
  | task id, order n => id = "order:" ++ toString n
  | _, _ => False

/-- The reports of one child of a round. -/
def SameSource (a b : NormalizedProjection) : Prop :=
  a.parentRoundId = b.parentRoundId ∧ a.originBrokerId = b.originBrokerId ∧ a.child = b.child

/-- What a key has after the parent round. -/
def NormalizedProjection.origin (p : NormalizedProjection) : String :=
  p.originBrokerId ++ "::" ++ p.child.text

open Text (Slides)

/-- Tokens of one report run into the separators of the other. -/
inductive RunsInto (a b : NormalizedProjection) : Prop
  | parent : Slides ':' a.parentRoundId.toList a.origin.toList b.parentRoundId.toList
      b.origin.toList → RunsInto a b
  | origin : a.parentRoundId = b.parentRoundId →
      Slides ':' a.originBrokerId.toList a.child.text.toList b.originBrokerId.toList
        b.child.text.toList → RunsInto a b
  | child : a.parentRoundId = b.parentRoundId → a.originBrokerId = b.originBrokerId →
      a.child.Poses b.child → RunsInto a b

/-- The reports that some store takes, as it normalises them. -/
def AcceptedAs (host : Host) (dateParse : String → Option Int) (p : NormalizedProjection) : Prop :=
  ∃ options records request now, normalizeRequest host dateParse request = some p ∧
    ∀ code reason t,
      (ingestProjection host dateParse options records request now).2 ≠ .rejected code reason t

section
variable {host : Host} {dateParse : String → Option Int} {a b p : NormalizedProjection}

/-! ## Accepted reports -/

/-- A store that took a report did so after its checks. -/
theorem AcceptedAs.admitted (h : AcceptedAs host dateParse p) :
    ∃ (options : ProjectionOptions) (d : ProjectionDelivery),
      d.admitted host dateParse options = some p := by
  obtain ⟨options, records, request, now, hnormal, haccepted⟩ := h
  refine ⟨options, ⟨request, now⟩, ?_⟩
  have hsame : ∀ p', ProjectionDelivery.admitted host dateParse options ⟨request, now⟩ = some p' →
      p' = p := fun p' hp' =>
    Option.some.inj ((Option.filter_eq_some_iff.mp hp').1.symm.trans hnormal)
  generalize hresult : ingestProjection host dateParse options records request now = result
    at haccepted
  have hingested := @ingested host dateParse options records
    ⟨request, now⟩
  rw [show ProjectionDelivery.ingest host dateParse options records ⟨request, now⟩ = result from
    hresult] at hingested
  cases hingested with
  | refused => exact absurd rfl (haccepted _ _ _)
  | stale => exact absurd rfl (haccepted _ _ _)
  | replayed hadmitted => rwa [← hsame _ hadmitted]
  | stored hadmitted => rwa [← hsame _ hadmitted]

/-- A store without records takes what passes its checks. -/
theorem AcceptedAs.of_admitted {options : ProjectionOptions} {d : ProjectionDelivery}
    (h : d.admitted host dateParse options = some p) : AcceptedAs host dateParse p := by
  refine ⟨options, .empty, d.request, d.now, (Option.filter_eq_some_iff.mp h).1, ?_⟩
  intro code reason t hrejected
  have hingested := @ingested host dateParse options .empty d
  change (d.ingest host dateParse options .empty).2 = _ at hrejected
  generalize d.ingest host dateParse options .empty = result at hrejected hingested
  cases hingested with
  | refused hnone => exact nomatch hnone.symm.trans h
  | replayed => cases hrejected
  | stale _ hstored => exact nomatch hstored
  | stored => cases hrejected

/-- The dispatch check asks for an order. -/
theorem order_of_valid {input : DispatchMetadata} {receiver : Option String} {isLocal : Bool}
    (h : validateTerminalBriefMetadata input receiver isLocal = []) :
    normalizePositiveInt input.parentRoundOrder ≠ none := by
  intro hnone
  unfold validateTerminalBriefMetadata at h
  have horder := (List.append_eq_nil_iff.mp (List.append_eq_nil_iff.mp h).1).2
  rw [hnone] at horder
  cases horder

theorem order_of_admitted {options : ProjectionOptions} {d : ProjectionDelivery}
    (h : d.admitted host dateParse options = some p) :
    ∃ n, p.parentRoundOrder = some (n + 1) := by
  have hchecked := (Option.filter_eq_some_iff.mp h).2
  unfold refuseProjection at hchecked
  dsimp only at hchecked
  split at hchecked
  · cases hchecked
  · rename_i hvalid
    have horder := order_of_valid (List.isEmpty_iff.mp (by simpa using hvalid))
    dsimp only at horder
    cases hp : p.parentRoundOrder with
    | none => exact absurd (by rw [hp]; rfl) horder
    | some n =>
      cases n with
      | zero => exact absurd (by rw [hp]; rfl) horder
      | succ n => exact ⟨n, rfl⟩

theorem worker_of_admitted {options : ProjectionOptions} {d : ProjectionDelivery}
    (h : d.admitted host dateParse options = some p) : p.childWorkerId ≠ some "" := by
  have hnormal := (Option.filter_eq_some_iff.mp h).1
  unfold normalizeRequest at hnormal
  split at hnormal
  · split at hnormal
    · cases hnormal
    · obtain rfl := Option.some.inj hnormal
      exact fun hblank => trimmed_ne_empty hblank rfl
  · cases hnormal

/-- An accepted report says which child it is about, and its key says what it says. -/
theorem AcceptedAs.child (h : AcceptedAs host dateParse p) :
    p.child ≠ .none ∧ recordKey p = p.parentRoundId ++ "::" ++ p.origin := by
  obtain ⟨options, d, hadmitted⟩ := h.admitted
  obtain ⟨n, horder⟩ := order_of_admitted hadmitted
  have hworker := worker_of_admitted hadmitted
  unfold recordKey NormalizedProjection.origin NormalizedProjection.child
  cases htask : p.childTaskId with
  | some id => exact ⟨nofun, by simp [Child.text, String.append_assoc]⟩
  | none =>
    cases hw : p.childWorkerId with
    | some id =>
      have hne : id ≠ "" := fun hid => hworker (hw.trans (congrArg some hid))
      exact ⟨nofun, by simp [Child.text, String.append_assoc, truthy, hne]⟩
    | none => exact ⟨by simp [horder], by simp [Child.text, String.append_assoc, truthy, horder]⟩

/-! ## Equal keys -/

theorem origin_toList (p : NormalizedProjection) : p.origin.toList =
    p.originBrokerId.toList ++ ':' :: ':' :: p.child.text.toList := by
  simp [NormalizedProjection.origin]

theorem AcceptedAs.recordKey_toList (h : AcceptedAs host dateParse p) : (recordKey p).toList =
    p.parentRoundId.toList ++ ':' :: ':' :: p.origin.toList := by
  simp [h.child.2]

theorem worker_ne_order (w : String) (n : Nat) : "worker:" ++ w ≠ "order:" ++ toString n := by
  intro h
  have hfirst := congrArg (fun s => s.toList.head?) h
  simp at hfirst

/-- A worker is never called like an order, and two children of one kind never like each other. -/
theorem Child.text_eq_iff {c d : Child} (hc : c ≠ none) (hd : d ≠ none) :
    c.text = d.text ↔ c = d ∨ c.Poses d ∨ d.Poses c := by
  cases c with
  | none => exact absurd rfl hc
  | task id => cases d <;> simp_all [text, Poses]
  | worker w =>
    cases d with
    | order n => simpa [text, Poses] using worker_ne_order w n
    | _ => simp_all [text, Poses, eq_comm]
  | order n =>
    cases d with
    | worker w => simpa [text, Poses] using (worker_ne_order w n).symm
    | order m => simpa [text, Poses] using Text.toString_injective.eq_iff
    | _ => simp_all [text, Poses, eq_comm]

theorem recordKey_eq_iff (ha : AcceptedAs host dateParse a) (hb : AcceptedAs host dateParse b) :
    recordKey a = recordKey b ↔ SameSource a b ∨ RunsInto a b ∨ RunsInto b a := by
  rw [← String.toList_inj, ha.recordKey_toList, hb.recordKey_toList, Text.append_cons_cons_eq_iff,
    origin_toList, origin_toList, Text.append_cons_cons_eq_iff]
  simp only [String.toList_inj, Child.text_eq_iff ha.child.1 hb.child.1]
  constructor
  · rintro (⟨hparent, ⟨horigin, hchild | hposes | hposes⟩ | hslides | hslides⟩ | hslides | hslides)
    · exact .inl ⟨hparent, horigin, hchild⟩
    · exact .inr (.inl (.child hparent horigin hposes))
    · exact .inr (.inr (.child hparent.symm horigin.symm hposes))
    · exact .inr (.inl (.origin hparent hslides))
    · exact .inr (.inr (.origin hparent.symm hslides))
    · exact .inr (.inl (.parent (by rwa [origin_toList, origin_toList])))
    · exact .inr (.inr (.parent (by rwa [origin_toList, origin_toList])))
  · rintro (⟨hparent, horigin, hchild⟩ | hruns | hruns)
    · exact .inl ⟨hparent, .inl ⟨horigin, .inl hchild⟩⟩
    · cases hruns with
      | parent h => exact .inr (.inl (by rwa [origin_toList, origin_toList] at h))
      | origin hparent h => exact .inl ⟨hparent, .inr (.inl h)⟩
      | child hparent horigin h => exact .inl ⟨hparent, .inl ⟨horigin, .inr (.inl h)⟩⟩
    · cases hruns with
      | parent h => exact .inr (.inr (by rwa [origin_toList, origin_toList] at h))
      | origin hparent h => exact .inl ⟨hparent.symm, .inr (.inr h)⟩
      | child hparent horigin h =>
        exact .inl ⟨hparent.symm, .inl ⟨horigin.symm, .inr (.inr h)⟩⟩

theorem RunsInto.ne (h : RunsInto a b) : ¬SameSource a b := by
  rintro ⟨hparent, horigin, hchild⟩
  cases h with
  | parent h => exact h.ne (congrArg String.toList hparent)
  | origin _ h => exact h.ne (congrArg String.toList horigin)
  | child _ _ h =>
    rw [hchild] at h
    cases hb : b.child <;> simp [hb, Child.Poses] at h

theorem SameSource.symm (h : SameSource a b) : SameSource b a :=
  ⟨h.1.symm, h.2.1.symm, h.2.2.symm⟩

/-- Two accepted reports with one key are about one child, unless tokens of one of them run into the
separators of the other. -/
theorem recordKey_unambiguous_iff (ha : AcceptedAs host dateParse a)
    (hb : AcceptedAs host dateParse b) :
    (recordKey a = recordKey b → SameSource a b) ↔ ¬RunsInto a b ∧ ¬RunsInto b a := by
  rw [recordKey_eq_iff ha hb]
  constructor
  · intro h
    exact ⟨fun hruns => hruns.ne (h (.inr (.inl hruns))),
      fun hruns => hruns.ne (h (.inr (.inr hruns))).symm⟩
  · rintro ⟨hab, hba⟩ (hsame | hruns | hruns)
    · exact hsame
    · exact absurd hruns hab
    · exact absurd hruns hba

end

/-! A round with a child task that is called like another child's worker: the second report finds the
key of the first. -/

def keyReport (childTaskId childWorkerId : Option String) (order : Nat) : ProjectionDelivery :=
  ⟨{ parentRoundId := "round-1", originBrokerId := "gwakga", childTaskId, childWorkerId
     status := .succeeded, completedAt := .iso 1767225600000, parentRoundTotal := some (.num 2)
     parentRoundOrder := some (.num order) }, .iso 1767225601000⟩

def keyProjection (childTaskId childWorkerId : Option String) (order : Nat) : NormalizedProjection where
  parentRoundId := "round-1"
  originBrokerId := "gwakga"
  brokerOfRecordId := none
  childTaskId := childTaskId
  childRunId := none
  childWorkerId := childWorkerId
  status := .succeeded
  summary := none
  taskBrief := none
  evidenceUrl := none
  completedAt := .iso 1767225600000
  emittedAt := none
  parentRoundTotal := some 2
  parentRoundOrder := some order

theorem keyReport_task : (keyReport (some "worker:w1") none 1).admitted {} (fun _ => none)
    childReportOptions = some (keyProjection (some "worker:w1") none 1) := rfl

theorem keyReport_worker : (keyReport none (some "w1") 2).admitted {} (fun _ => none)
    childReportOptions = some (keyProjection none (some "w1") 2) := rfl

theorem recordKey_unambiguous_two :
    (recordKey (keyProjection (some "worker:w1") none 1) =
        recordKey (keyProjection none (some "w1") 2) →
      SameSource (keyProjection (some "worker:w1") none 1) (keyProjection none (some "w1") 2)) ↔
    ¬RunsInto (keyProjection (some "worker:w1") none 1) (keyProjection none (some "w1") 2) ∧
      ¬RunsInto (keyProjection none (some "w1") 2) (keyProjection (some "worker:w1") none 1) :=
  recordKey_unambiguous_iff (.of_admitted keyReport_task) (.of_admitted keyReport_worker)

theorem recordKey_ambiguous : ¬∀ host dateParse a b, AcceptedAs host dateParse a →
    AcceptedAs host dateParse b → recordKey a = recordKey b → SameSource a b := by
  intro h
  have hsame := h {} (fun _ => none) _ _ (.of_admitted keyReport_task)
    (.of_admitted keyReport_worker) (by decide)
  exact nomatch hsame.2.2

end A2ABroker
