import A2ABroker.Verify.Digest
import Mathlib.Data.List.Induction

/-! # Reports in any order

The projection store keeps, for each record key, the report with the latest completion time, whatever
the order in which reports arrive and however often each of them does (`projections_converge`). A
report is recognised by its digest, so two reports whose digests agree have to be the same one: the
digested texts are different (`stableStringify_inj`), and SHA-256 is assumed to tell them apart. -/

namespace A2ABroker

structure ProjectionDelivery where
  request : ProjectionRequest
  now : Timestamp

section
variable (host : Host) (dateParse : String → Option Int) (options : ProjectionOptions)

def ProjectionDelivery.ingest (records : Table Projection) (d : ProjectionDelivery) :
    Table Projection × ProjectionResult :=
  ingestProjection host dateParse options records d.request d.now

/-- The records after some deliveries. -/
def deliverProjections (records : Table Projection) (deliveries : List ProjectionDelivery) :
    Table Projection :=
  deliveries.foldl (fun records d => (d.ingest host dateParse options records).1) records

/-- The normalised request of a delivery that passes the checks. -/
def ProjectionDelivery.admitted (d : ProjectionDelivery) : Option NormalizedProjection :=
  (normalizeRequest host dateParse d.request).filter fun p =>
    (refuseProjection options d.request.terminalAck p).isNone

end

/-- What a record says: all but the time it was received, the count of its replays and its ack. -/
structure ProjectionContent extends NormalizedProjection where
  id : String
  sourceDigest : String
  deriving DecidableEq

def Projection.content (e : Projection) : ProjectionContent :=
  { e.toNormalizedProjection with id := e.id, sourceDigest := e.sourceDigest }

/-- What the record of a report says. -/
def NormalizedProjection.content (host : Host) (p : NormalizedProjection) : ProjectionContent :=
  { p with
    emittedAt := some (p.emittedAt.getD p.completedAt)
    id := recordKey p
    sourceDigest := digestProjection host p }

theorem content_ofReport (host : Host) (p : NormalizedProjection) (existing : Option Projection)
    (now : Timestamp) : (Projection.ofReport host p existing now).content = p.content host := rfl

theorem content_replay (e : Projection) (now : Timestamp) : (e.replay now).content = e.content := rfl

theorem key_ofReport (host : Host) (p : NormalizedProjection) (existing : Option Projection)
    (now : Timestamp) : key (Projection.ofReport host p existing now) = recordKey p := rfl

theorem key_replay (e : Projection) (now : Timestamp) : key (e.replay now) = key e := rfl

/-! ## One delivery -/

/-- What a delivery can do to the records. -/
inductive Ingested (host : Host) (dateParse : String → Option Int) (options : ProjectionOptions)
    (records : Table Projection) (d : ProjectionDelivery) : Table Projection × ProjectionResult → Prop
  | refused {code reason t} : d.admitted host dateParse options = none →
    Ingested host dateParse options records d (records, .rejected code reason t)
  | replayed {p e} : d.admitted host dateParse options = some p →
    records.get? (recordKey p) = some e → e.sourceDigest = digestProjection host p →
    Ingested host dateParse options records d (records.set (e.replay d.now), .replayed (e.replay d.now))
  | stale {p e code reason t} : d.admitted host dateParse options = some p →
    records.get? (recordKey p) = some e → e.sourceDigest ≠ digestProjection host p →
    notLater dateParse p.completedAt e.completedAt →
    Ingested host dateParse options records d (records, .rejected code reason t)
  | stored {p} : d.admitted host dateParse options = some p →
    (∀ e, records.get? (recordKey p) = some e → e.sourceDigest ≠ digestProjection host p ∧
      ¬notLater dateParse p.completedAt e.completedAt) →
    Ingested host dateParse options records d
      (records.set (Projection.ofReport host p (records.get? (recordKey p)) d.now),
        .stored (Projection.ofReport host p (records.get? (recordKey p)) d.now))

variable {host : Host} {dateParse : String → Option Int} {options : ProjectionOptions}
  {records : Table Projection} {d : ProjectionDelivery} {p q : NormalizedProjection}

theorem ingested (records : Table Projection) (d : ProjectionDelivery) :
    Ingested host dateParse options records d (d.ingest host dateParse options records) := by
  unfold ProjectionDelivery.ingest ingestProjection
  cases hnormal : normalizeRequest host dateParse d.request with
  | none => exact .refused (by rw [ProjectionDelivery.admitted, hnormal]; rfl)
  | some p =>
    dsimp only
    cases hrefuse : refuseProjection options d.request.terminalAck p with
    | some refusal =>
      refine .refused ?_
      rw [ProjectionDelivery.admitted, hnormal]
      simp [hrefuse]
    | none =>
      have hadmitted : d.admitted host dateParse options = some p := by
        rw [ProjectionDelivery.admitted, hnormal]
        simp [hrefuse]
      dsimp only
      cases hexisting : records.get? (recordKey p) with
      | none =>
        have hnone : ∀ e, records.get? (recordKey p) = some e →
            e.sourceDigest ≠ digestProjection host p ∧
              ¬notLater dateParse p.completedAt e.completedAt := fun e he =>
          nomatch hexisting.symm.trans he
        have hstored := Ingested.stored hadmitted hnone
        rw [hexisting] at hstored
        exact hstored
      | some e =>
        by_cases hdigest : e.sourceDigest = digestProjection host p
        · have hfilter : (some e).filter (fun e => e.sourceDigest == digestProjection host p) =
              some e := by simp [hdigest]
          rw [hfilter]
          exact .replayed hadmitted hexisting hdigest
        · have hfilter : (some e).filter (fun e => e.sourceDigest == digestProjection host p) =
              none := by simp [hdigest]
          rw [hfilter]
          dsimp only [Option.any_some]
          split
          · rename_i hstale
            exact .stale hadmitted hexisting hdigest hstale
          · rename_i hfresh
            have hothers : ∀ e', records.get? (recordKey p) = some e' →
                e'.sourceDigest ≠ digestProjection host p ∧
                  ¬notLater dateParse p.completedAt e'.completedAt := by
              intro e' he'
              obtain rfl := Option.some.inj (hexisting.symm.trans he')
              exact ⟨hdigest, hfresh⟩
            have hstored := Ingested.stored hadmitted hothers
            rw [hexisting] at hstored
            exact hstored

/-! ## Times -/

theorem notLater_trans {a b c : Timestamp} (hab : notLater dateParse a b)
    (hbc : notLater dateParse b c) : notLater dateParse a c := by
  unfold notLater at *
  cases ha : a.parse dateParse <;> cases hb : b.parse dateParse <;> cases hc : c.parse dateParse <;>
    simp_all
  exact hab.trans hbc

theorem notLater_iso {a b : Int} : notLater dateParse (.iso a) (.iso b) ↔ a ≤ b := by
  simp [notLater, Timestamp.parse]

theorem notLater_refl {a : Timestamp} (ha : ∃ ms, a = .iso ms) : notLater dateParse a a := by
  obtain ⟨ms, rfl⟩ := ha
  exact notLater_iso.mpr le_rfl

theorem notLater_total {a b : Timestamp} (ha : ∃ ms, a = .iso ms) (hb : ∃ ms, b = .iso ms)
    (h : ¬notLater dateParse a b) : notLater dateParse b a := by
  obtain ⟨x, rfl⟩ := ha
  obtain ⟨y, rfl⟩ := hb
  exact notLater_iso.mpr (le_of_not_ge fun hle => h (notLater_iso.mpr hle))

theorem normalizeIso_iso {t t' : Timestamp} (h : normalizeIso dateParse t = some t') :
    ∃ ms, t' = .iso ms := by
  obtain ⟨ms, -, rfl⟩ := Option.map_eq_some_iff.mp h
  exact ⟨ms, rfl⟩

theorem isoTimes_of_admitted (h : d.admitted host dateParse options = some p) : IsoTimes p := by
  have hnormal := (Option.filter_eq_some_iff.mp h).1
  unfold normalizeRequest at hnormal
  split at hnormal
  · rename_i hcompleted
    split at hnormal
    · cases hnormal
    · obtain rfl := Option.some.inj hnormal
      refine ⟨normalizeIso_iso hcompleted, fun t ht => ?_⟩
      obtain ⟨t', -, ht'⟩ := Option.bind_eq_some_iff.mp ht
      exact normalizeIso_iso ht'
  · cases hnormal

/-! ## What is kept -/

/-- `p` was reported under the key `k`. -/
def ReportedUnder (host : Host) (dateParse : String → Option Int) (options : ProjectionOptions)
    (L : List ProjectionDelivery) (k : String) (p : NormalizedProjection) : Prop :=
  ∃ d ∈ L, d.admitted host dateParse options = some p ∧ recordKey p = k

/-- A record under the key `k`, from the one there was and the reports `L`: that of the latest report,
if this is later than what there was, and else what there was. -/
def Kept (host : Host) (dateParse : String → Option Int) (options : ProjectionOptions)
    (L : List ProjectionDelivery) (k : String) (initial final : Option Projection) : Prop :=
  (∃ p, ReportedUnder host dateParse options L k p ∧
      (∀ q, ReportedUnder host dateParse options L k q →
        notLater dateParse q.completedAt p.completedAt) ∧
      (∀ e ∈ initial, ¬notLater dateParse p.completedAt e.completedAt) ∧
      final.map (·.content) = some (p.content host)) ∨
    (∀ q, ReportedUnder host dateParse options L k q →
        ∃ e ∈ initial, notLater dateParse q.completedAt e.completedAt) ∧
      final.map (·.content) = initial.map (·.content)

/-- The records come from reports. -/
def Sourced (host : Host) (records : Table Projection) : Prop :=
  ∀ e ∈ records.rows, ∃ p, IsoTimes p ∧ e.content = p.content host

/-- A report of the deliveries, or of a record there was. -/
def Source (host : Host) (dateParse : String → Option Int) (options : ProjectionOptions)
    (records : Table Projection) (L : List ProjectionDelivery) (p : NormalizedProjection) : Prop :=
  (∃ k, ReportedUnder host dateParse options L k p) ∨
    IsoTimes p ∧ ∃ e ∈ records.rows, e.content = p.content host

/-- SHA-256 tells the digested texts apart. -/
def NoCollision (host : Host) (sources : NormalizedProjection → Prop) : Prop :=
  ∀ p q, sources p → sources q → host.sha256 (stableStringify p) = host.sha256 (stableStringify q) →
    stableStringify p = stableStringify q

variable {L : List ProjectionDelivery} {k : String}

theorem digestProjection_inj {sources : NormalizedProjection → Prop} (hsha : NoCollision host sources)
    (hp : sources p) (hq : sources q) (hpt : IsoTimes p) (hqt : IsoTimes q)
    (h : digestProjection host p = digestProjection host q) : p = q :=
  stableStringify_inj hpt hqt (hsha p q hp hq ((String.append_right_inj _).mp h))

theorem completedAt_of_content {e : Projection} (h : e.content = p.content host) :
    e.completedAt = p.completedAt := congrArg (·.completedAt) h

theorem sourceDigest_of_content {e : Projection} (h : e.content = p.content host) :
    e.sourceDigest = digestProjection host p := congrArg (·.sourceDigest) h

theorem reported_concat (h : d.admitted host dateParse options = some p) :
    ReportedUnder host dateParse options (L ++ [d]) k q ↔
      ReportedUnder host dateParse options L k q ∨ q = p ∧ recordKey p = k := by
  constructor
  · rintro ⟨d', hd', hadmitted, hk⟩
    rcases List.mem_append.mp hd' with hd' | hd'
    · exact .inl ⟨d', hd', hadmitted, hk⟩
    · obtain rfl := List.mem_singleton.mp hd'
      obtain rfl := Option.some.inj (h.symm.trans hadmitted)
      exact .inr ⟨rfl, hk⟩
  · rintro (⟨d', hd', hadmitted, hk⟩ | ⟨rfl, hk⟩)
    · exact ⟨d', List.mem_append_left _ hd', hadmitted, hk⟩
    · exact ⟨d, by simp, h, hk⟩

theorem isoTimes_of_reported (h : ReportedUnder host dateParse options L k p) : IsoTimes p := by
  obtain ⟨d, -, hadmitted, -⟩ := h
  exact isoTimes_of_admitted hadmitted

/-! ## Any order -/

theorem kept_nil (initial : Option Projection) :
    Kept host dateParse options [] k initial initial :=
  .inr ⟨fun _ ⟨_, hd, _⟩ => (nomatch hd), rfl⟩

/-- A record that stays, with a report that does not count. -/
theorem Kept.of_reported {initial final final' : Option Projection} {L' : List ProjectionDelivery}
    (h : Kept host dateParse options L k initial final)
    (hfinal : final'.map (·.content) = final.map (·.content))
    (hL : ∀ q, ReportedUnder host dateParse options L' k q ↔ ReportedUnder host dateParse options L k q) :
    Kept host dateParse options L' k initial final' := by
  rcases h with ⟨p, hp, hmax, hlater, hcontent⟩ | ⟨hold, hcontent⟩
  · exact .inl ⟨p, (hL p).mpr hp, fun q hq => hmax q ((hL q).mp hq), hlater, hfinal.trans hcontent⟩
  · exact .inr ⟨fun q hq => hold q ((hL q).mp hq), hfinal.trans hcontent⟩

/-- A record that stays, with a report that is not later than it. -/
theorem Kept.of_notLater {initial : Option Projection} {e e' : Projection}
    (h : Kept host dateParse options L k initial (some e))
    (hadmitted : d.admitted host dateParse options = some p) (hcontent : e'.content = e.content)
    (hlater : notLater dateParse p.completedAt e.completedAt) :
    Kept host dateParse options (L ++ [d]) k initial (some e') := by
  rcases h with ⟨q₀, hq₀, hmax, hinitial, hq₀content⟩ | ⟨hold, hsame⟩
  · have htime := completedAt_of_content (Option.some.inj hq₀content)
    refine .inl ⟨q₀, (reported_concat hadmitted).mpr (.inl hq₀), fun q hq => ?_, hinitial,
      (congrArg some hcontent).trans hq₀content⟩
    rcases (reported_concat hadmitted).mp hq with hq | ⟨rfl, -⟩
    · exact hmax q hq
    · exact htime ▸ hlater
  · refine .inr ⟨fun q hq => ?_, (congrArg some hcontent).trans hsame⟩
    rcases (reported_concat hadmitted).mp hq with hq | ⟨rfl, -⟩
    · exact hold q hq
    · cases initial with
      | none => cases hsame
      | some e₀ =>
        have htime : e.completedAt = e₀.completedAt :=
          congrArg (·.completedAt) (Option.some.inj hsame)
        exact ⟨e₀, rfl, htime ▸ hlater⟩

/-- The time of a kept record is a date. -/
theorem Kept.iso {initial : Option Projection} {e : Projection}
    (h : Kept host dateParse options L k initial (some e))
    (hinitial : ∀ e₀ ∈ initial, ∃ ms, e₀.completedAt = .iso ms) : ∃ ms, e.completedAt = .iso ms := by
  rcases h with ⟨p, hp, -, -, hcontent⟩ | ⟨-, hsame⟩
  · rw [completedAt_of_content (Option.some.inj hcontent)]
    exact (isoTimes_of_reported hp).completedAt
  · cases initial with
    | none => cases hsame
    | some e₀ =>
      have htime : e.completedAt = e₀.completedAt := congrArg (·.completedAt) (Option.some.inj hsame)
      rw [htime]
      exact hinitial e₀ rfl

/-- A later report replaces the record. -/
theorem Kept.of_later {initial final : Option Projection} {e' : Projection}
    (h : Kept host dateParse options L k initial final)
    (hinitial : ∀ e₀ ∈ initial, ∃ ms, e₀.completedAt = .iso ms)
    (hadmitted : d.admitted host dateParse options = some p) (hk : recordKey p = k)
    (hcontent : e'.content = p.content host)
    (hlater : ∀ e ∈ final, ¬notLater dateParse p.completedAt e.completedAt) :
    Kept host dateParse options (L ++ [d]) k initial (some e') := by
  have hp := isoTimes_of_admitted hadmitted
  have hself : notLater dateParse p.completedAt p.completedAt := notLater_refl hp.completedAt
  refine .inl ⟨p, (reported_concat hadmitted).mpr (.inr ⟨rfl, hk⟩), fun q hq => ?_, ?_,
    congrArg some hcontent⟩
  · rcases (reported_concat hadmitted).mp hq with hq | ⟨rfl, -⟩
    · rcases h with ⟨q₀, hq₀, hmax, -, hq₀content⟩ | ⟨hold, hsame⟩
      · cases final with
        | none => cases hq₀content
        | some e =>
          have htime := completedAt_of_content (Option.some.inj hq₀content)
          have hbefore := notLater_total hp.completedAt (isoTimes_of_reported hq₀).completedAt
            (htime ▸ hlater e rfl)
          exact notLater_trans (hmax q hq) hbefore
      · obtain ⟨e₀, he₀, hqe₀⟩ := hold q hq
        cases final with
        | none =>
          obtain rfl : initial = none := Option.map_eq_none_iff.mp hsame.symm
          cases he₀
        | some e =>
          obtain rfl : initial = some e₀ := he₀
          have htime : e.completedAt = e₀.completedAt :=
            congrArg (·.completedAt) (Option.some.inj hsame)
          have hbefore := notLater_total hp.completedAt (hinitial e₀ rfl) (htime ▸ hlater e rfl)
          exact notLater_trans hqe₀ hbefore
    · exact hself
  · intro e₀ he₀ hpe₀
    rcases h with ⟨q₀, hq₀, -, hnew, hq₀content⟩ | ⟨-, hsame⟩
    · cases final with
      | none => cases hq₀content
      | some e =>
        have htime := completedAt_of_content (Option.some.inj hq₀content)
        have hbefore := notLater_total (isoTimes_of_reported hq₀).completedAt (hinitial e₀ he₀)
          (hnew e₀ he₀)
        exact hlater e rfl (htime ▸ notLater_trans hpe₀ hbefore)
    · obtain rfl : initial = some e₀ := he₀
      cases final with
      | none => cases hsame
      | some e =>
        have htime : e.completedAt = e₀.completedAt :=
          congrArg (·.completedAt) (Option.some.inj hsame)
        exact hlater e rfl (htime ▸ hpe₀)

/-- A report with the digest of the kept record is the report of that record. -/
theorem Kept.time_of_digest {records₀ : Table Projection} {e : Projection}
    (hsourced : Sourced host records₀)
    (hsha : NoCollision host (Source host dateParse options records₀ (L ++ [d])))
    (h : Kept host dateParse options L k (records₀.get? k) (some e))
    (hadmitted : d.admitted host dateParse options = some p)
    (hdigest : e.sourceDigest = digestProjection host p) : e.completedAt = p.completedAt := by
  have hp := isoTimes_of_admitted hadmitted
  have hpsource : Source host dateParse options records₀ (L ++ [d]) p :=
    .inl ⟨recordKey p, (reported_concat hadmitted).mpr (.inr ⟨rfl, rfl⟩)⟩
  rcases h with ⟨q₀, hq₀, -, -, hcontent⟩ | ⟨-, hsame⟩
  · have hcontent := Option.some.inj hcontent
    have hq₀source : Source host dateParse options records₀ (L ++ [d]) q₀ :=
      .inl ⟨k, (reported_concat hadmitted).mpr (.inl hq₀)⟩
    have heq := digestProjection_inj hsha hq₀source hpsource (isoTimes_of_reported hq₀) hp
      ((sourceDigest_of_content hcontent).symm.trans hdigest)
    exact heq ▸ completedAt_of_content hcontent
  · obtain ⟨e₀, he₀, he₀content⟩ := Option.map_eq_some_iff.mp hsame.symm
    obtain ⟨p₀, hp₀, hp₀content⟩ := hsourced e₀ (Table.mem_of_get? he₀)
    have hcontent : e.content = p₀.content host := he₀content.symm.trans hp₀content
    have heq := digestProjection_inj hsha (.inr ⟨hp₀, e₀, Table.mem_of_get? he₀, hp₀content⟩)
      hpsource hp₀ hp ((sourceDigest_of_content hcontent).symm.trans hdigest)
    exact heq ▸ completedAt_of_content hcontent

theorem Ingested.kept {records₀ : Table Projection} {result : Table Projection × ProjectionResult}
    (hd : Ingested host dateParse options records d result) (hsourced : Sourced host records₀)
    (hsha : NoCollision host (Source host dateParse options records₀ (L ++ [d])))
    (h : Kept host dateParse options L k (records₀.get? k) (records.get? k)) :
    Kept host dateParse options (L ++ [d]) k (records₀.get? k) (result.1.get? k) := by
  have hother : ∀ {p}, d.admitted host dateParse options = some p → recordKey p ≠ k →
      ∀ q, ReportedUnder host dateParse options (L ++ [d]) k q ↔ ReportedUnder host dateParse options L k q :=
    fun hadmitted hk q => (reported_concat hadmitted).trans
      ⟨fun hq => hq.resolve_right fun hp => hk hp.2, .inl⟩
  have hinitial : ∀ e₀ ∈ records₀.get? k, ∃ ms, e₀.completedAt = .iso ms := by
    intro e₀ he₀
    obtain ⟨p₀, hp₀, hcontent⟩ := hsourced e₀ (Table.mem_of_get? he₀)
    rw [completedAt_of_content hcontent]
    exact hp₀.completedAt
  cases hd with
  | refused hnone =>
    refine h.of_reported rfl fun q => ?_
    constructor
    · rintro ⟨d', hd', hadmitted, hk⟩
      rcases List.mem_append.mp hd' with hd' | hd'
      · exact ⟨d', hd', hadmitted, hk⟩
      · obtain rfl := List.mem_singleton.mp hd'
        exact nomatch hnone.symm.trans hadmitted
    · rintro ⟨d', hd', hadmitted, hk⟩
      exact ⟨d', List.mem_append_left _ hd', hadmitted, hk⟩
  | @replayed p e hadmitted hget hdigest =>
    have hkey : key (e.replay d.now) = recordKey p :=
      (key_replay e d.now).trans (Table.key_of_get? hget)
    rw [Table.get?_set, hkey]
    split
    · rename_i hk
      subst hk
      rw [hget] at h
      have htime := h.time_of_digest hsourced hsha hadmitted hdigest
      have hself : notLater dateParse p.completedAt e.completedAt := by
        rw [htime]
        exact notLater_refl (isoTimes_of_admitted hadmitted).completedAt
      exact h.of_notLater hadmitted (content_replay e d.now) hself
    · rename_i hk
      exact h.of_reported rfl (hother hadmitted hk)
  | @stale p e code reason t hadmitted hget hdigest hlater =>
    by_cases hk : recordKey p = k
    · subst hk
      show Kept host dateParse options (L ++ [d]) _ _ (records.get? _)
      rw [hget] at h ⊢
      exact h.of_notLater hadmitted rfl hlater
    · exact h.of_reported rfl (hother hadmitted hk)
  | @stored p hadmitted hlater =>
    rw [Table.get?_set, key_ofReport]
    split
    · rename_i hk
      subst hk
      exact h.of_later hinitial hadmitted rfl (content_ofReport ..) fun e he => (hlater e he).2
    · rename_i hk
      exact h.of_reported rfl (hother hadmitted hk)

theorem NoCollision.mono {sources sources' : NormalizedProjection → Prop}
    (h : NoCollision host sources) (hsub : ∀ p, sources' p → sources p) : NoCollision host sources' :=
  fun p q hp hq => h p q (hsub p hp) (hsub q hq)

theorem ReportedUnder.mono {L' : List ProjectionDelivery} (hsub : L ⊆ L')
    (h : ReportedUnder host dateParse options L k p) : ReportedUnder host dateParse options L' k p := by
  obtain ⟨d, hd, hadmitted⟩ := h
  exact ⟨d, hsub hd, hadmitted⟩

theorem Source.mono {records₀ : Table Projection} {L' : List ProjectionDelivery} (hsub : L ⊆ L')
    (h : Source host dateParse options records₀ L p) :
    Source host dateParse options records₀ L' p :=
  h.imp_left fun ⟨k, hk⟩ => ⟨k, hk.mono hsub⟩

/-- What is kept after a run. -/
theorem kept_deliverProjections {records₀ : Table Projection} (hsourced : Sourced host records₀)
    (hsha : NoCollision host (Source host dateParse options records₀ L)) (k : String) :
    Kept host dateParse options L k (records₀.get? k)
      ((deliverProjections host dateParse options records₀ L).get? k) := by
  induction L using List.reverseRecOn with
  | nil => exact kept_nil _
  | append_singleton L d ih =>
    have hprevious := ih (hsha.mono fun p => Source.mono (List.subset_append_left ..))
    rw [deliverProjections, List.foldl_append]
    exact (ingested _ d).kept hsourced hsha hprevious

/-- The same reports leave the same content. -/
theorem Kept.content_eq {initial final final' : Option Projection} {L' : List ProjectionDelivery}
    (h : Kept host dateParse options L k initial final)
    (h' : Kept host dateParse options L' k initial final')
    (hsame : ∀ q, ReportedUnder host dateParse options L k q ↔ ReportedUnder host dateParse options L' k q)
    (hdistinct : ∀ p q, ReportedUnder host dateParse options L k p → ReportedUnder host dateParse options L k q →
      p ≠ q → p.completedAt ≠ q.completedAt) :
    final.map (·.content) = final'.map (·.content) := by
  rcases h with ⟨p, hp, hmax, hlater, hcontent⟩ | ⟨hold, hcontent⟩
  · rcases h' with ⟨q, hq, hmax', -, hcontent'⟩ | ⟨hold', -⟩
    · have hpq := hmax' p ((hsame p).mp hp)
      have hqp := hmax q ((hsame q).mpr hq)
      have heq : p = q := by
        by_contra hne
        refine hdistinct p q hp ((hsame q).mpr hq) hne ?_
        obtain ⟨x, hx⟩ := (isoTimes_of_reported hp).completedAt
        obtain ⟨y, hy⟩ := (isoTimes_of_reported hq).completedAt
        rw [hx, hy] at hpq hqp ⊢
        exact congrArg Timestamp.iso (le_antisymm (notLater_iso.mp hpq) (notLater_iso.mp hqp))
      rw [hcontent, hcontent', heq]
    · obtain ⟨e₀, he₀, hpe₀⟩ := hold' p ((hsame p).mp hp)
      exact absurd hpe₀ (hlater e₀ he₀)
  · rcases h' with ⟨q, hq, -, hlater', -⟩ | ⟨-, hcontent'⟩
    · obtain ⟨e₀, he₀, hqe₀⟩ := hold q ((hsame q).mpr hq)
      exact absurd hqe₀ (hlater' e₀ he₀)
    · exact hcontent.trans hcontent'.symm

/-- A rejected delivery changes no record, a replayed one only the count of its replays and its ack,
and no delivery sets the completion time of a record back. -/
theorem Ingested.monotone {result : Table Projection × ProjectionResult}
    (hd : Ingested host dateParse options records d result)
    (hiso : ∀ e ∈ records.rows, ∃ ms, e.completedAt = .iso ms) :
    (∀ code reason t, result.2 = .rejected code reason t → result.1 = records) ∧
      (∀ e, result.2 = .replayed e → ∀ k,
        (result.1.get? k).map (fun e => (e.content, e.receivedAt)) =
          (records.get? k).map fun e => (e.content, e.receivedAt)) ∧
      ∀ k e, records.get? k = some e → ∃ e', result.1.get? k = some e' ∧
        notLater dateParse e.completedAt e'.completedAt := by
  have hsame : ∀ k e, records.get? k = some e → ∃ e', records.get? k = some e' ∧
      notLater dateParse e.completedAt e'.completedAt := fun k e he =>
    ⟨e, he, notLater_refl (hiso e (Table.mem_of_get? he))⟩
  cases hd with
  | refused _ => exact ⟨fun _ _ _ _ => rfl, fun _ h => (nomatch h), hsame⟩
  | stale _ _ _ _ => exact ⟨fun _ _ _ _ => rfl, fun _ h => (nomatch h), hsame⟩
  | @replayed p e _ hget _ =>
    have hkey : key (e.replay d.now) = recordKey p :=
      (key_replay e d.now).trans (Table.key_of_get? hget)
    refine ⟨fun _ _ _ h => (nomatch h), fun _ _ k => ?_, fun k e' he' => ?_⟩
    · rw [Table.get?_set, hkey]
      split
      · rename_i hk
        rw [← hk, hget]
        rfl
      · rfl
    · rw [Table.get?_set, hkey]
      split
      · rename_i hk
        obtain rfl := Option.some.inj ((hk ▸ hget).symm.trans he')
        exact ⟨_, rfl, notLater_refl (hiso e (Table.mem_of_get? hget))⟩
      · exact hsame k e' he'
  | @stored p hadmitted hlater =>
    refine ⟨fun _ _ _ h => (nomatch h),
      fun _ h => (nomatch h), fun k e he => ?_⟩
    rw [Table.get?_set, key_ofReport]
    split
    · rename_i hk
      exact ⟨_, rfl, notLater_total (isoTimes_of_admitted hadmitted).completedAt
        (hiso e (Table.mem_of_get? he)) (hlater e (hk ▸ he)).2⟩
    · exact hsame k e he

theorem iso_of_sourced {records₀ : Table Projection} (hsourced : Sourced host records₀)
    (k : String) : ∀ e₀ ∈ records₀.get? k, ∃ ms, e₀.completedAt = .iso ms := by
  intro e₀ he₀
  obtain ⟨p₀, hp₀, hcontent⟩ := hsourced e₀ (Table.mem_of_get? he₀)
  rw [completedAt_of_content hcontent]
  exact hp₀.completedAt

/-- Two sequences of deliveries of the same requests, in any order and with any repetitions, to a
store whose broker id and parent rounds are fixed: they leave the same content under every key, which
is that of the latest report or the one that was there; no delivery sets a completion time back, and
rejected and replayed ones change no content. -/
theorem projections_converge (host : Host) (dateParse : String → Option Int)
    (options : ProjectionOptions) (records : Table Projection) (L L' : List ProjectionDelivery)
    (hsourced : Sourced host records)
    (hsame : ∀ request, (∃ d ∈ L, d.request = request) ↔ ∃ d ∈ L', d.request = request)
    (hdistinct : ∀ k p q, ReportedUnder host dateParse options L k p →
      ReportedUnder host dateParse options L k q → p ≠ q → p.completedAt ≠ q.completedAt)
    (hsha : NoCollision host (Source host dateParse options records L)) :
    (∀ k, ((deliverProjections host dateParse options records L).get? k).map (·.content) =
      ((deliverProjections host dateParse options records L').get? k).map (·.content)) ∧
    (∀ k, Kept host dateParse options L k (records.get? k)
      ((deliverProjections host dateParse options records L).get? k)) ∧
    ∀ before d, before ++ [d] <+: L →
      let stored := deliverProjections host dateParse options records before
      let result := d.ingest host dateParse options stored
      (∀ code reason t, result.2 = .rejected code reason t → result.1 = stored) ∧
        (∀ e, result.2 = .replayed e → ∀ k,
          (result.1.get? k).map (fun e => (e.content, e.receivedAt)) =
            (stored.get? k).map fun e => (e.content, e.receivedAt)) ∧
        ∀ k e, stored.get? k = some e → ∃ e', result.1.get? k = some e' ∧
          notLater dateParse e.completedAt e'.completedAt := by
  have hreported : ∀ k q, ReportedUnder host dateParse options L k q ↔
      ReportedUnder host dateParse options L' k q := by
    have hmp : ∀ {L L' : List ProjectionDelivery}, (∀ request, (∃ d ∈ L, d.request = request) →
        ∃ d ∈ L', d.request = request) → ∀ k q, ReportedUnder host dateParse options L k q →
          ReportedUnder host dateParse options L' k q := by
      rintro L L' h k q ⟨d, hd, hadmitted, hk⟩
      obtain ⟨d', hd', hrequest⟩ := h d.request ⟨d, hd, rfl⟩
      refine ⟨d', hd', ?_, hk⟩
      unfold ProjectionDelivery.admitted at hadmitted ⊢
      rw [hrequest]
      exact hadmitted
    exact fun k q => ⟨hmp (fun r => (hsame r).mp) k q, hmp (fun r => (hsame r).mpr) k q⟩
  have hsha' : NoCollision host (Source host dateParse options records L') :=
    hsha.mono fun p hp => hp.imp_left fun ⟨k, hk⟩ => ⟨k, (hreported k p).mpr hk⟩
  have hkept := kept_deliverProjections hsourced hsha
  refine ⟨fun k => ?_, hkept, fun before d hbefore => ?_⟩
  · exact (hkept k).content_eq (kept_deliverProjections hsourced hsha' k) (hreported k)
      (hdistinct k)
  · refine (ingested _ d).monotone fun e he => ?_
    have hsub : before ⊆ L := fun x hx => hbefore.subset (List.mem_append_left _ hx)
    have hstored := kept_deliverProjections hsourced (hsha.mono fun p => Source.mono hsub) (key e)
    rw [Table.get?_key_of_mem he] at hstored
    exact hstored.iso (iso_of_sourced hsourced (key e))

/-! A child that failed, and then succeeded on a second attempt a minute later: the report of the
success stays, in whatever order the two arrive. -/

def childReport (status : TaskStatus) (completedAt : Int) : ProjectionRequest :=
  { parentRoundId := "round-1", originBrokerId := "gwakga", childTaskId := some "child-1", status
    completedAt := .iso completedAt, parentRoundTotal := some (.num 2)
    parentRoundOrder := some (.num 1) }

def childReports : List ProjectionDelivery :=
  [⟨childReport .failed 1767225600000, .iso 1767225601000⟩,
    ⟨childReport .succeeded 1767225660000, .iso 1767225661000⟩]

/-- The digests of the two texts. -/
def childReportHost : Host where
  sha256 text :=
    if text = "\x7b\"childTaskId\":\"child-1\",\"completedAt\":\"2026-01-01T00:00:00.000Z\"," ++
        "\"originBrokerId\":\"gwakga\",\"parentRoundId\":\"round-1\",\"parentRoundOrder\":1," ++
        "\"parentRoundTotal\":2,\"status\":\"failed\"\x7d" then
      "6b51f34b9052c26fa203014a23c02c92dda09e12c8171e1a29b57d1da060a139"
    else if text = "\x7b\"childTaskId\":\"child-1\",\"completedAt\":\"2026-01-01T00:01:00.000Z\"," ++
        "\"originBrokerId\":\"gwakga\",\"parentRoundId\":\"round-1\",\"parentRoundOrder\":1," ++
        "\"parentRoundTotal\":2,\"status\":\"succeeded\"\x7d" then
      "1590aa7abb16d45bc0543ea63fb11d325e278560f08129509071fe16760d56ac"
    else ""

def childReportOptions : ProjectionOptions where
  brokerId := some "seoseo"
  hasParentRound id := id == "round-1"
  parentBrokerOfRecord _ := none

theorem childReports_sources {p : NormalizedProjection}
    (h : Source childReportHost (fun _ => none) childReportOptions .empty childReports p) :
    some p ∈ childReports.map (·.admitted childReportHost (fun _ => none) childReportOptions) := by
  rcases h with ⟨k, d, hd, hadmitted, -⟩ | ⟨-, e, he, -⟩
  · exact List.mem_map.mpr ⟨d, hd, hadmitted⟩
  · cases he

/-- What holds of the two reports holds of all sources. -/
theorem childReports_forall {P : NormalizedProjection → NormalizedProjection → Prop}
    [∀ p q, Decidable (P p q)]
    (h : (childReports.map (·.admitted childReportHost (fun _ => none) childReportOptions)).all
      fun p => (childReports.map
        (·.admitted childReportHost (fun _ => none) childReportOptions)).all fun q =>
          p.all fun p => q.all fun q => decide (P p q)) {p q : NormalizedProjection}
    (hp : Source childReportHost (fun _ => none) childReportOptions .empty childReports p)
    (hq : Source childReportHost (fun _ => none) childReportOptions .empty childReports q) : P p q := by
  have hpq := List.all_eq_true.mp (List.all_eq_true.mp h _ (childReports_sources hp)) _
    (childReports_sources hq)
  exact of_decide_eq_true hpq

theorem projections_converge_two :
    (fun k => ((deliverProjections childReportHost (fun _ => none) childReportOptions .empty
        childReports).get? k).map (·.content)) =
      fun k => ((deliverProjections childReportHost (fun _ => none) childReportOptions .empty
        (childReports.reverse ++ childReports.reverse)).get? k).map (·.content) := by
  refine funext (projections_converge childReportHost (fun _ => none) childReportOptions .empty
    childReports (childReports.reverse ++ childReports.reverse) (fun _ h => (nomatch h))
    (fun request => ?_) (fun k p q hp hq => ?_) fun p q hp hq => ?_).1
  · simp
  · exact childReports_forall (P := fun p q => p ≠ q → p.completedAt ≠ q.completedAt)
      (by decide +kernel) (.inl ⟨k, hp⟩) (.inl ⟨k, hq⟩)
  · exact childReports_forall (P := fun p q => childReportHost.sha256 (stableStringify p) =
      childReportHost.sha256 (stableStringify q) → stableStringify p = stableStringify q)
      (by decide +kernel) hp hq

end A2ABroker
