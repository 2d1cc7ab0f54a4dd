import A2ABroker.Core.Projections
import A2ABroker.Verify.IsoText
import A2ABroker.Lib.Text
import Mathlib.Tactic.IntervalCases

/-! # Digested texts

`stableStringify` tells normalised requests apart (`stableStringify_inj`): strings are quoted, so
that the end of each is known, and the time that `toISOString` writes can be read back. -/

namespace A2ABroker

open Text

/-! ## Quoted strings -/

/-- The value of a hexadecimal digit. -/
def hexValue (c : Char) : Nat := if c.toNat < 58 then c.toNat - 48 else c.toNat - 87

/-- The first character of a text that `jsonChar` has written, and what follows. -/
def unescape : List Char → Option (Char × List Char)
  | '\\' :: 'u' :: _ :: _ :: x :: y :: rest => some (Char.ofNat (hexValue x * 16 + hexValue y), rest)
  | '\\' :: 'b' :: rest => some (Char.ofNat 8, rest)
  | '\\' :: 't' :: rest => some (Char.ofNat 9, rest)
  | '\\' :: 'n' :: rest => some (Char.ofNat 10, rest)
  | '\\' :: 'f' :: rest => some (Char.ofNat 12, rest)
  | '\\' :: 'r' :: rest => some (Char.ofNat 13, rest)
  | '\\' :: c :: rest => some (c, rest)
  | c :: rest => some (c, rest)
  | [] => none

theorem unescape_cons {c : Char} (hc : c ≠ '\\') (rest : List Char) :
    unescape (c :: rest) = some (c, rest) := by
  unfold unescape
  split
  all_goals simp_all

theorem jsonChar_of_printable {c : Char} (hctl : ¬c.toNat < 32) (hquote : c ≠ '"')
    (hslash : c ≠ '\\') : jsonChar c = [c] := by
  unfold jsonChar
  rw [if_neg (by simpa using hquote), if_neg (by simpa using hslash)]
  split
  all_goals first | omega | exact if_neg hctl

theorem unescape_jsonChar (c : Char) (rest : List Char) :
    unescape (jsonChar c ++ rest) = some (c, rest) := by
  by_cases hctl : c.toNat < 32
  · have hc : c = Char.ofNat c.toNat := (Char.ofNat_toNat c).symm
    generalize c.toNat = n at hc hctl
    subst hc
    interval_cases n <;> rfl
  · by_cases hquote : c = '"'
    · subst hquote
      rfl
    · by_cases hslash : c = '\\'
      · subst hslash
        rfl
      · rw [jsonChar_of_printable hctl hquote hslash]
        exact unescape_cons hslash rest

theorem jsonChar_append_inj (c d : Char) (r s : List Char) (h : jsonChar c ++ r = jsonChar d ++ s) :
    c = d ∧ r = s := by
  have hread := unescape_jsonChar c r
  rw [h, unescape_jsonChar] at hread
  obtain ⟨hc, hr⟩ := Prod.mk.inj (Option.some.inj hread)
  exact ⟨hc.symm, hr.symm⟩

theorem jsonChar_append_ne (c : Char) (r s : List Char) : jsonChar c ++ r ≠ '"' :: s := by
  intro h
  have hread := unescape_jsonChar c r
  rw [h, unescape_cons (by decide)] at hread
  obtain ⟨rfl, rfl⟩ := Prod.mk.inj (Option.some.inj hread)
  have hquote : jsonChar '"' = ['\\', '"'] := rfl
  rw [hquote] at h
  exact absurd (List.cons_eq_cons.mp h).1 (by decide)

theorem jsonQuote_toList (s : String) :
    (jsonQuote s).toList = '"' :: (s.toList.flatMap jsonChar ++ ['"']) := by
  simp [jsonQuote]

theorem jsonQuote_append_inj {s t : String} {r r' : List Char}
    (h : (jsonQuote s).toList ++ r = (jsonQuote t).toList ++ r') : s = t ∧ r = r' := by
  rw [jsonQuote_toList, jsonQuote_toList, List.cons_append, List.cons_append, List.append_assoc,
    List.append_assoc] at h
  obtain ⟨hlist, hrest⟩ := flatMap_cons_inj jsonChar_append_inj jsonChar_append_ne
    (List.cons_eq_cons.mp h).2
  exact ⟨String.toList_inj.mp hlist, hrest⟩

/-! ## Objects -/

/-- A value of a normalised request. -/
inductive Scalar where
  | text (s : String)
  | number (n : Nat)

def Scalar.render : Scalar → String
  | text s => jsonQuote s
  | number n => toString n

/-- A property of an object. -/
def renderProperty (property : String × Scalar) : List Char :=
  (jsonQuote property.1).toList ++ ':' :: property.2.render.toList

/-- A number does not begin with a quote. -/
theorem render_text_ne_number {s : String} {n : Nat} {r r' : List Char} :
    (Scalar.text s).render.toList ++ r ≠ (Scalar.number n).render.toList ++ r' := by
  intro h
  have hquote : (Scalar.text s).render.toList = '"' :: (s.toList.flatMap jsonChar ++ ['"']) :=
    jsonQuote_toList s
  have hdigits : ∀ c ∈ (Scalar.number n).render.toList, c.isDigit := fun c hc =>
    isDigit_of_mem_toString hc
  have hne : (Scalar.number n).render.toList ≠ [] := toString_ne_nil n
  rw [hquote] at h
  cases hn : (Scalar.number n).render.toList with
  | nil => exact hne hn
  | cons c l =>
    rw [hn] at h
    have hc := hdigits c (hn ▸ .head _)
    rw [← (List.cons_eq_cons.mp h).1] at hc
    exact absurd hc (by decide)

theorem delimited_render :
    Delimited (fun c => c = ',' ∨ c = '\x7d') fun v : Scalar => v.render.toList := by
  intro v v' c d r s hc hd h
  cases v with
  | text t =>
    cases v' with
    | text t' =>
      obtain ⟨ht, hrest⟩ := jsonQuote_append_inj h
      exact ⟨congrArg Scalar.text ht, hrest⟩
    | number n' => exact absurd h render_text_ne_number
  | number n =>
    cases v' with
    | text t' => exact absurd h.symm render_text_ne_number
    | number n' =>
      have hdelimited : Delimited (fun c => c = ',' ∨ c = '\x7d') fun n : Nat =>
          (toString n).toList := by
        refine Delimited.of_forall (fun a b hab => ?_) (fun n c hc => isDigit_of_mem_toString hc) ?_
        · exact toDigits_injective (by simpa only [toString_toList] using hab)
        · rintro c (rfl | rfl)
          · decide
          · decide
      obtain ⟨hn, hrest⟩ := hdelimited n n' c d r s hc hd h
      exact ⟨congrArg Scalar.number hn, hrest⟩

theorem delimited_renderProperty :
    Delimited (fun c => c = ',' ∨ c = '\x7d') renderProperty := by
  rintro ⟨name, v⟩ ⟨name', v'⟩ c d r s hc hd h
  unfold renderProperty at h
  rw [List.append_assoc, List.append_assoc, List.cons_append, List.cons_append] at h
  obtain ⟨rfl, hrest⟩ := jsonQuote_append_inj h
  obtain ⟨rfl, hend⟩ := delimited_render v v' c d r s hc hd (List.cons_eq_cons.mp hrest).2
  exact ⟨rfl, hend⟩

theorem renderProperty_append_ne (property : String × Scalar) (r s : List Char) :
    renderProperty property ++ r ≠ '\x7d' :: s := by
  intro h
  unfold renderProperty at h
  rw [jsonQuote_toList] at h
  exact absurd (List.cons_eq_cons.mp h).1 (by decide)

/-! ## Requests -/

def textProperty (name : String) (v : Option String) : List (String × Scalar) :=
  (v.map fun s => (name, Scalar.text s)).toList

def numberProperty (name : String) (v : Option Nat) : List (String × Scalar) :=
  (v.map fun n => (name, Scalar.number n)).toList

/-- The properties of a normalised request, sorted by name. -/
def properties (p : NormalizedProjection) : List (String × Scalar) :=
  textProperty "brokerOfRecordId" p.brokerOfRecordId ++ textProperty "childRunId" p.childRunId ++
  textProperty "childTaskId" p.childTaskId ++ textProperty "childWorkerId" p.childWorkerId ++
  textProperty "completedAt" (some p.completedAt.toText) ++
  textProperty "emittedAt" (p.emittedAt.map (·.toText)) ++
  textProperty "evidenceUrl" p.evidenceUrl ++ textProperty "originBrokerId" (some p.originBrokerId) ++
  textProperty "parentRoundId" (some p.parentRoundId) ++
  numberProperty "parentRoundOrder" p.parentRoundOrder ++
  numberProperty "parentRoundTotal" p.parentRoundTotal ++
  textProperty "status" (some p.status.text) ++ textProperty "summary" p.summary ++
  textProperty "taskBrief" p.taskBrief

theorem stableStringify_toList (p : NormalizedProjection) :
    (stableStringify p).toList =
      '\x7b' :: ([','].intercalate ((properties p).map renderProperty) ++ ['\x7d']) := by
  have htext : ∀ name (v : Option String),
      ((v.map fun s => (name, jsonQuote s)).toList : List (String × String)) =
        (textProperty name v).map fun q => (q.1, q.2.render) := by
    intro name v
    cases v with
    | none => rfl
    | some s => rfl
  have hnumber : ∀ name (v : Option Nat),
      ((v.map fun n => (name, toString n)).toList : List (String × String)) =
        (numberProperty name v).map fun q => (q.1, q.2.render) := by
    intro name v
    cases v with
    | none => rfl
    | some n => rfl
  unfold stableStringify
  dsimp only
  simp only [htext, hnumber, ← List.map_append]
  rw [← properties]
  simp [String.toList_intercalate, List.map_map, Function.comp_def]
  rfl

/-- A property by its name. -/
def property (name : String) (properties : List (String × Scalar)) : Option Scalar :=
  (properties.find? (·.1 = name)).map (·.2)

theorem property_append {name : String} {l l' : List (String × Scalar)} :
    property name (l ++ l') = (property name l).or (property name l') := by
  unfold property
  rw [List.find?_append]
  cases l.find? (·.1 = name) with
  | none => rfl
  | some q => rfl

theorem property_textProperty {name name' : String} {v : Option String} :
    property name (textProperty name' v) = if name' = name then v.map .text else none := by
  cases v with
  | none => simp [property, textProperty]
  | some s =>
    by_cases h : name' = name
    · simp [property, textProperty, h]
    · simp [property, textProperty, h]

theorem property_numberProperty {name name' : String} {v : Option Nat} :
    property name (numberProperty name' v) = if name' = name then v.map .number else none := by
  cases v with
  | none => simp [property, numberProperty]
  | some s =>
    by_cases h : name' = name
    · simp [property, numberProperty, h]
    · simp [property, numberProperty, h]

theorem text_injective : Function.Injective Scalar.text := fun _ _ h => Scalar.text.inj h

theorem number_injective : Function.Injective Scalar.number := fun _ _ h => Scalar.number.inj h

/-- The times of a normalised request are dates. -/
structure IsoTimes (p : NormalizedProjection) : Prop where
  completedAt : ∃ ms, p.completedAt = .iso ms
  emittedAt : ∀ t ∈ p.emittedAt, ∃ ms, t = .iso ms

theorem status_text_injective : Function.Injective TaskStatus.text := by
  intro a b h
  cases a <;> cases b <;> first | rfl | exact absurd h (by decide)

theorem toText_inj {t t' : Timestamp} (ht : ∃ ms, t = .iso ms) (ht' : ∃ ms, t' = .iso ms)
    (h : t.toText = t'.toText) : t = t' := by
  obtain ⟨ms, rfl⟩ := ht
  obtain ⟨ms', rfl⟩ := ht'
  exact congrArg Timestamp.iso (toISOString_injective h)

theorem optional_toText_inj {t t' : Option Timestamp} (ht : ∀ x ∈ t, ∃ ms, x = .iso ms)
    (ht' : ∀ x ∈ t', ∃ ms, x = .iso ms) (h : t.map (·.toText) = t'.map (·.toText)) : t = t' := by
  cases t with
  | none =>
    cases t' with
    | none => rfl
    | some x' => cases h
  | some x =>
    cases t' with
    | none => cases h
    | some x' => rw [toText_inj (ht x rfl) (ht' x' rfl) (Option.some.inj h)]

theorem properties_inj {p q : NormalizedProjection} (hp : IsoTimes p) (hq : IsoTimes q)
    (h : properties p = properties q) : p = q := by
  have hname : ∀ name, property name (properties p) = property name (properties q) := fun name => by
    rw [h]
  simp only [properties, property_append, property_textProperty, property_numberProperty] at hname
  have hbroker := hname "brokerOfRecordId"
  have hrun := hname "childRunId"
  have htask := hname "childTaskId"
  have hworker := hname "childWorkerId"
  have hcompleted := hname "completedAt"
  have hemitted := hname "emittedAt"
  have hevidence := hname "evidenceUrl"
  have horigin := hname "originBrokerId"
  have hparent := hname "parentRoundId"
  have horder := hname "parentRoundOrder"
  have htotal := hname "parentRoundTotal"
  have hstatus := hname "status"
  have hsummary := hname "summary"
  have hbrief := hname "taskBrief"
  -- under its name, an object has one property only
  clear hname
  simp +decide only [if_true, if_false, Option.none_or, Option.or_none, Option.map_some] at *
  have htext : ∀ {v v' : Option String}, v.map Scalar.text = v'.map Scalar.text → v = v' :=
    fun h => Option.map_injective text_injective h
  have hnumber : ∀ {v v' : Option Nat}, v.map Scalar.number = v'.map Scalar.number → v = v' :=
    fun h => Option.map_injective number_injective h
  have hvalue : ∀ {s t : String}, some (Scalar.text s) = some (Scalar.text t) → s = t :=
    fun h => text_injective (Option.some.inj h)
  have hcompleted := toText_inj hp.completedAt hq.completedAt (hvalue hcompleted)
  have hemitted := optional_toText_inj hp.emittedAt hq.emittedAt (htext hemitted)
  have hstatus := status_text_injective (hvalue hstatus)
  cases p
  cases q
  rw [NormalizedProjection.mk.injEq]
  exact ⟨hvalue hparent, hvalue horigin, htext hbroker, htext htask, htext hrun, htext hworker,
    hstatus, htext hsummary, htext hbrief, htext hevidence, hcompleted, hemitted, hnumber htotal,
    hnumber horder⟩

/-- The digested text of a normalised request determines it. -/
theorem stableStringify_inj {p q : NormalizedProjection} (hp : IsoTimes p) (hq : IsoTimes q)
    (h : stableStringify p = stableStringify q) : p = q := by
  have hlist := congrArg String.toList h
  rw [stableStringify_toList, stableStringify_toList] at hlist
  have hproperties := intercalate_inj delimited_renderProperty (by decide) renderProperty_append_ne
    (List.cons_eq_cons.mp hlist).2
  exact properties_inj hp hq hproperties

end A2ABroker
