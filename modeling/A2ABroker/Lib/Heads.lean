import A2ABroker.Lib.Register
import Mathlib.Data.List.Nodup

/-! # Reports that follow a head

Some events report under a head and a name, such as the result of a check of a commit; others only
pass by and raise the watermark. The newest report of each name is kept for one head at a time: a
report under another head takes over and starts over, unless it is older than the watermark. One
head counts as none, and a report that finds it takes over without starting over.

`Reports.agree_iff` says for which events the reports that are kept do not depend on the order in
which the events arrive. -/

namespace A2ABroker

/-- When the events happened, what they report, and the head that counts as none. -/
structure Reports (E T H N : Type) where
  time : E → T
  report : E → Option (H × N)
  blank : H

structure Heads (E T H N : Type) where
  watermark : Option T := none
  head : Option H := none
  /-- The report that is kept under a name. -/
  entries : N → Option E := fun _ => none

namespace Reports

variable {E T H N : Type} (R : Reports E T H N)

def Known : Option H → Prop
  | none => False
  | some h => h ≠ R.blank

instance [DecidableEq H] (head : Option H) : Decidable (R.Known head) :=
  match head with
  | none => inferInstanceAs (Decidable False)
  | some h => inferInstanceAs (Decidable (h ≠ R.blank))

/-- `k` is the newest report of its name under the head `h`. -/
def Latest [LE T] (S : List E) (h : H) (n : N) (k : E) : Prop :=
  k ∈ S ∧ R.report k = some (h, n) ∧
    ∀ other ∈ S, R.report other = some (h, n) → R.time other ≤ R.time k

section
variable [LinearOrder T] [DecidableEq H] [DecidableEq N]

def bump (watermark : Option T) (t : T) : Option T := some (watermark.elim t (max · t))

/-- Keep a report under its name, unless a newer one is kept there. -/
def place (watermark : Option T) (e : E) (h : H) (n : N) (entries : N → Option E) : Heads E T H N :=
  if (entries n).any (R.time e < R.time ·) then { watermark, head := some h, entries }
  else
    { watermark := bump watermark (R.time e), head := some h
      entries := Function.update entries n (some e) }

def deliver (s : Heads E T H N) (e : E) : Heads E T H N :=
  match R.report e with
  | none => { s with watermark := bump s.watermark (R.time e) }
  | some (h, n) =>
    if R.Known s.head ∧ s.head ≠ some h ∧ s.watermark.any (R.time e < ·) then s
    else
      R.place s.watermark e h n
        (if R.Known s.head ∧ s.head ≠ some h then fun _ => none else s.entries)

def run (L : List E) : Heads E T H N := L.foldl R.deliver {}

/-- The events that are reports. -/
def reports (S : List E) : List E := S.filter fun e => (R.report e).isSome

/-- Every report under another head than `h` is out of the way: it is older than all that is to be
kept. If its head is the blank one, then its name is reported again; if not, then everything that
passes by is older than what is to be kept as well. -/
def Superseded (S : List E) (h : H) : Prop :=
  ∀ x ∈ S, ∀ g m, R.report x = some (g, m) → g ≠ h →
    h ≠ R.blank ∧ (∀ n k, R.Latest S h n k → R.time x < R.time k) ∧
      (g = R.blank → ∃ y ∈ S, R.report y = some (h, m)) ∧
      (g ≠ R.blank → ∀ z ∈ S, R.report z = none → ∀ n k, R.Latest S h n k → R.time z < R.time k)

/-- The head of the newest report supersedes the others. -/
def Settles (S : List E) : Prop :=
  ∀ c h n, Newest R.time (R.reports S) c → R.report c = some (h, n) → R.Superseded S h

/-- The same head, and the same reports kept. -/
def Agree (s s' : Heads E T H N) : Prop := s.head = s'.head ∧ ∀ n, s.entries n = s'.entries n

end

/-! ## Where a state comes from -/

section
variable {R} {s : Heads E T H N} {e : E} {L : List E} {h : H}

/-- A report that does not start over keeps the entries under its own head or the blank one. -/
theorem head_of_kept {h' : H} (hsame : R.Known s.head → s.head = some h)
    (hkept : s.head = some h' ∨ h' = R.blank) : some h = some h' ∨ h' = R.blank := by
  rcases hkept with hhead | hblank
  · by_cases hb : h' = R.blank
    · exact .inr hb
    · have hknown : R.Known s.head := hhead ▸ hb
      exact .inl ((hsame hknown).symm.trans hhead)
  · exact .inr hblank

variable [LinearOrder T]

theorem le_bump {watermark : Option T} {w t : T} (hw : watermark = some w) :
    ∃ w', bump watermark t = some w' ∧ w ≤ w' ∧ t ≤ w' :=
  hw ▸ ⟨_, rfl, le_max_left _ _, le_max_right _ _⟩

theorem bump_eq {watermark : Option T} {w t : T} (h : bump watermark t = some w) :
    w = t ∨ watermark = some w := by
  cases watermark with
  | none => exact .inl (Option.some.inj h).symm
  | some old =>
    have hmax : max old t = w := Option.some.inj h
    rcases max_choice old t with hold | hnew
    · exact .inr (congrArg some (hold.symm.trans hmax))
    · exact .inl (hmax.symm.trans hnew)

theorem bump_of_le {watermark : Option T} {t : T} (h : ∀ w, watermark = some w → w ≤ t) :
    bump watermark t = some t := by
  cases watermark with
  | none => rfl
  | some w => exact congrArg some (max_eq_right (h w rfl))

theorem self_le_bump (watermark : Option T) (t : T) :
    ∃ w, bump watermark t = some w ∧ t ≤ w := by
  cases watermark with
  | none => exact ⟨t, rfl, le_refl t⟩
  | some old => exact ⟨_, rfl, le_max_right _ _⟩

/-- The state comes from the events `L`. -/
structure Sound (R : Reports E T H N) (L : List E) (s : Heads E T H N) : Prop where
  watermark : ∀ e ∈ L, ∃ w, s.watermark = some w ∧ R.time e ≤ w
  attained : ∀ w, s.watermark = some w → ∃ e ∈ L, R.time e = w
  head : ∀ h, s.head = some h → ∃ e ∈ L, ∃ n, R.report e = some (h, n)
  entries : ∀ n e, s.entries n = some e →
    e ∈ L ∧ ∃ h, R.report e = some (h, n) ∧ (s.head = some h ∨ h = R.blank)

theorem sound_nil : Sound R [] {} where
  watermark _ he := nomatch he
  attained _ hw := nomatch hw
  head _ hh := nomatch hh
  entries _ _ he := nomatch he

theorem Sound.bumped (hs : Sound R L s) :
    (∀ x ∈ L ++ [e], ∃ w, bump s.watermark (R.time e) = some w ∧ R.time x ≤ w) ∧
      ∀ w, bump s.watermark (R.time e) = some w → ∃ x ∈ L ++ [e], R.time x = w := by
  constructor
  · intro x hx
    rcases List.mem_append.mp hx with hx | hx
    · obtain ⟨w, hw, hxw⟩ := hs.watermark x hx
      obtain ⟨w', hw', hle, -⟩ := le_bump (t := R.time e) hw
      exact ⟨w', hw', hxw.trans hle⟩
    · rw [List.mem_singleton.mp hx]
      exact self_le_bump ..
  · intro w hw
    rcases bump_eq hw with rfl | hold
    · exact ⟨e, by simp, rfl⟩
    · obtain ⟨x, hx, hxw⟩ := hs.attained w hold
      exact ⟨x, List.mem_append_left _ hx, hxw⟩

/-- An event that leaves the watermark alone is below it. -/
theorem Sound.unbumped {w : T} (hs : Sound R L s) (hw : s.watermark = some w)
    (he : R.time e ≤ w) :
    (∀ x ∈ L ++ [e], ∃ w, s.watermark = some w ∧ R.time x ≤ w) ∧
      ∀ w, s.watermark = some w → ∃ x ∈ L ++ [e], R.time x = w := by
  constructor
  · intro x hx
    rcases List.mem_append.mp hx with hx | hx
    · exact hs.watermark x hx
    · exact ⟨w, hw, List.mem_singleton.mp hx ▸ he⟩
  · intro w hw
    obtain ⟨x, hx, hxw⟩ := hs.attained w hw
    exact ⟨x, List.mem_append_left _ hx, hxw⟩

/-- A report that finds the head `h` is under it, unless it starts over. -/
theorem Superseded.head_eq {S : List E} {h' : H} {n : N} (hout : R.Superseded S h) (he : e ∈ S)
    (hreport : R.report e = some (h', n)) (hsame : R.Known s.head → s.head = some h')
    (hhead : s.head = some h) : h' = h := by
  by_contra hne
  have hknown : R.Known s.head := hhead ▸ (hout e he h' n hreport hne).1
  exact hne (Option.some.inj ((hsame hknown).symm.trans hhead))

/-- The newest report of a sorted sequence of events, and another one under another head. -/
structure Overtaken (R : Reports E T H N) (S : List E) (c : E) (h : H) (n : N) (x : E) (g : H)
    (m : N) : Prop where
  sorted : S.Pairwise fun a b => R.time a < R.time b
  newest : Newest R.time (R.reports S) c
  report : R.report c = some (h, n)
  mem : x ∈ S
  other : R.report x = some (g, m)
  ne : g ≠ h

namespace Overtaken

variable {S : List E} {n : N} {c x : E} {g : H} {m : N}

theorem newest_mem (o : R.Overtaken S c h n x g m) : c ∈ S := (List.mem_filter.mp o.newest.1).1

theorem inj (o : R.Overtaken S c h n x g m) {a b : E} (ha : a ∈ S) (hb : b ∈ S)
    (htime : R.time a = R.time b) : a = b :=
  List.inj_on_of_nodup_map
    ((List.pairwise_map (f := R.time)).mpr (o.sorted.imp fun h => h.ne)) ha hb htime

theorem nodup (o : R.Overtaken S c h n x g m) : S.Nodup :=
  o.sorted.imp fun hlt heq => absurd (heq ▸ hlt) (lt_irrefl _)

theorem not_mem_rest (o : R.Overtaken S c h n x g m) (before : List E) {k : E} {rest : List E}
    (hperm : (before ++ k :: rest).Perm S) : k ∉ rest :=
  (List.nodup_cons.mp (List.nodup_append.mp (hperm.nodup_iff.mpr o.nodup)).2.1).1

theorem before (o : R.Overtaken S c h n x g m) {e : E} {h' : H} {n' : N} (he : e ∈ S)
    (hreport : R.report e = some (h', n')) (hne : e ≠ c) : R.time e < R.time c := by
  have hmem : e ∈ R.reports S := List.mem_filter.mpr ⟨he, by rw [hreport]; rfl⟩
  exact lt_of_le_of_ne (o.newest.2 e hmem) fun heq => hne (o.inj he o.newest_mem heq)

theorem ne_newest (o : R.Overtaken S c h n x g m) : c ≠ x := by
  intro heq
  have hreport := o.report
  rw [heq, o.other] at hreport
  exact o.ne (Prod.mk.inj (Option.some.inj hreport)).1

/-- Everything of a permutation that follows the newest report is older, if it is a report. -/
theorem rest_before (o : R.Overtaken S c h n x g m) (before : List E) {rest : List E}
    (hperm : (before ++ rest).Perm S) (hc : c ∈ before) :
    ∀ e ∈ rest, ∀ h' n', R.report e = some (h', n') → R.time e < R.time c := by
  intro e he h' n' hreport
  refine o.before (hperm.mem_iff.mp (List.mem_append_right _ he)) hreport ?_
  rintro rfl
  exact (List.nodup_append.mp (hperm.nodup_iff.mpr o.nodup)).2.2 e hc e he rfl

end Overtaken

end

/-! ## One delivery -/

section
variable [LinearOrder T] [DecidableEq N]

/-- What a delivery can do. -/
inductive Delivered (s : Heads E T H N) (e : E) : Heads E T H N → Prop
  | touch : R.report e = none →
    Delivered s e { s with watermark := bump s.watermark (R.time e) }
  | behind {h n w} : R.report e = some (h, n) → R.Known s.head → s.head ≠ some h →
    s.watermark = some w → R.time e < w → Delivered s e s
  | advance {h n} : R.report e = some (h, n) → R.Known s.head → s.head ≠ some h →
    (∀ w, s.watermark = some w → w ≤ R.time e) →
    Delivered s e
      { watermark := bump s.watermark (R.time e), head := some h
        entries := Function.update (fun _ => none) n (some e) }
  | stale {h n old} : R.report e = some (h, n) → (R.Known s.head → s.head = some h) →
    s.entries n = some old → R.time e < R.time old → Delivered s e { s with head := some h }
  | store {h n} : R.report e = some (h, n) → (R.Known s.head → s.head = some h) →
    (∀ old, s.entries n = some old → R.time old ≤ R.time e) →
    Delivered s e
      { watermark := bump s.watermark (R.time e), head := some h
        entries := Function.update s.entries n (some e) }

variable {R} {s s' : Heads E T H N} {e : E} {L S : List E} {h : H} {n : N} {k : E}

theorem single_eq_some {n' : N} {x : E}
    (h : Function.update (fun _ => none) n (some e) n' = some x) : n' = n ∧ x = e := by
  by_cases hn : n' = n
  · subst hn
    rw [Function.update_self] at h
    exact ⟨rfl, (Option.some.inj h).symm⟩
  · rw [Function.update_of_ne hn] at h
    cases h

theorem update_eq_some {f : N → Option E} {n' : N} {x : E}
    (h : Function.update f n (some e) n' = some x) :
    n' = n ∧ x = e ∨ n' ≠ n ∧ f n' = some x := by
  by_cases hn : n' = n
  · subst hn
    rw [Function.update_self] at h
    exact .inl ⟨rfl, (Option.some.inj h).symm⟩
  · rw [Function.update_of_ne hn] at h
    exact .inr ⟨hn, h⟩

theorem Delivered.sound (hd : R.Delivered s e s') (hs : Sound R L s) : Sound R (L ++ [e]) s' := by
  have hold : ∀ {x}, x ∈ L → x ∈ L ++ [e] := fun hx => List.mem_append_left _ hx
  have hself : e ∈ L ++ [e] := by simp
  cases hd with
  | touch _ =>
    refine ⟨hs.bumped.1, hs.bumped.2, fun h hh => ?_, fun n x hx => ?_⟩
    · obtain ⟨x, hx, hreport⟩ := hs.head h hh
      exact ⟨x, hold hx, hreport⟩
    · exact ⟨hold (hs.entries n x hx).1, (hs.entries n x hx).2⟩
  | behind _ _ _ hw hlt =>
    obtain ⟨hbelow, hat⟩ := hs.unbumped hw hlt.le
    refine ⟨hbelow, hat, fun h hh => ?_, fun n x hx => ?_⟩
    · obtain ⟨x, hx, hreport⟩ := hs.head h hh
      exact ⟨x, hold hx, hreport⟩
    · exact ⟨hold (hs.entries n x hx).1, (hs.entries n x hx).2⟩
  | @advance h n hreport _ _ _ =>
    refine ⟨hs.bumped.1, hs.bumped.2, fun h' hh => ?_, fun n' x hx => ?_⟩
    · exact ⟨e, hself, n, Option.some.inj hh ▸ hreport⟩
    · have hx : Function.update (fun _ => none) n (some e) n' = some x := hx
      obtain ⟨rfl, rfl⟩ := single_eq_some hx
      exact ⟨hself, h, hreport, .inl rfl⟩
  | @stale h n old hreport hsame hentry hlt =>
    obtain ⟨w, hw, hle⟩ := hs.watermark old (hs.entries n old hentry).1
    obtain ⟨hbelow, hat⟩ := hs.unbumped hw (hlt.le.trans hle)
    refine ⟨hbelow, hat, fun h' hh => ?_, fun n' x hx => ?_⟩
    · exact ⟨e, hself, n, Option.some.inj hh ▸ hreport⟩
    · obtain ⟨hmem, h', hx', hkept⟩ := hs.entries n' x hx
      exact ⟨hold hmem, h', hx', head_of_kept hsame hkept⟩
  | @store h n hreport hsame _ =>
    refine ⟨hs.bumped.1, hs.bumped.2, fun h' hh => ?_, fun n' x hx => ?_⟩
    · exact ⟨e, hself, n, Option.some.inj hh ▸ hreport⟩
    · have hx : Function.update s.entries n (some e) n' = some x := hx
      rcases update_eq_some hx with ⟨rfl, rfl⟩ | ⟨-, hx⟩
      · exact ⟨hself, h, hreport, .inl rfl⟩
      · obtain ⟨hmem, h', hx', hkept⟩ := hs.entries n' x hx
        exact ⟨hold hmem, h', hx', head_of_kept hsame hkept⟩

/-- Under a head that is known, and with everything older that reports under another one, the head
stays, and so does a report that is newer than what follows under its name. -/
theorem Delivered.frozen {w w' : T} (hd : R.Delivered s e s') (hhead : s.head = some h)
    (hh : h ≠ R.blank) (hw : s.watermark = some w') (hle : w ≤ w')
    (he : ∀ g m, R.report e = some (g, m) → g ≠ h → R.time e < w) :
    s'.head = some h ∧ (∃ w', s'.watermark = some w' ∧ w ≤ w') ∧
      (s.entries n = some k → (R.report e = some (h, n) → R.time e < R.time k) →
        s'.entries n = some k) := by
  have hknown : R.Known s.head := hhead ▸ hh
  obtain ⟨v, hv, hwv, -⟩ := le_bump (t := R.time e) hw
  have hwm : ∃ v, bump s.watermark (R.time e) = some v ∧ w ≤ v := ⟨v, hv, hle.trans hwv⟩
  cases hd with
  | touch _ => exact ⟨hhead, hwm, fun hk _ => hk⟩
  | behind => exact ⟨hhead, ⟨w', hw, hle⟩, fun hk _ => hk⟩
  | @advance g m hreport _ hother hfront =>
    have hne : g ≠ h := fun heq => hother (heq ▸ hhead)
    exact absurd ((he g m hreport hne).trans_le hle) (hfront w' hw).not_gt
  | stale _ hsame => exact ⟨(hsame hknown).symm.trans hhead, ⟨w', hw, hle⟩, fun hk _ => hk⟩
  | @store g m hreport hsame hfresh =>
    have hg : g = h := Option.some.inj ((hsame hknown).symm.trans hhead)
    refine ⟨congrArg some hg, hwm, fun hk hlater => ?_⟩
    by_cases hn : n = m
    · subst hn
      exact absurd (hlater (hg ▸ hreport)) (hfresh k hk).not_gt
    · exact (Function.update_of_ne hn ..).trans hk

theorem place_stale {watermark : Option T} {entries : N → Option E} {old : E}
    (hold : entries n = some old) (hlt : R.time e < R.time old) :
    R.place watermark e h n entries = { watermark, head := some h, entries } := by
  refine if_pos ?_
  rw [hold]
  exact decide_eq_true hlt

theorem place_fresh {watermark : Option T} {entries : N → Option E}
    (h' : ∀ old, entries n = some old → R.time old ≤ R.time e) :
    R.place watermark e h n entries =
      { watermark := bump watermark (R.time e), head := some h
        entries := Function.update entries n (some e) } := by
  refine if_neg fun hstale => ?_
  obtain ⟨old, hold, hlt⟩ := (Option.any_eq_true _ _).mp hstale
  exact (h' old hold).not_gt (of_decide_eq_true hlt)

variable [DecidableEq H]

theorem deliver_behind {w : T} (hreport : R.report e = some (h, n)) (hknown : R.Known s.head)
    (hother : s.head ≠ some h) (hw : s.watermark = some w) (hlt : R.time e < w) :
    R.deliver s e = s := by
  unfold deliver
  rw [hreport]
  refine if_pos ⟨hknown, hother, ?_⟩
  rw [hw]
  exact decide_eq_true hlt

theorem deliver_front (hreport : R.report e = some (h, n)) (hknown : R.Known s.head)
    (hother : s.head ≠ some h) (hfront : ∀ w, s.watermark = some w → w ≤ R.time e) :
    R.deliver s e = R.place s.watermark e h n fun _ => none := by
  have hnot : ¬(R.Known s.head ∧ s.head ≠ some h ∧ s.watermark.any (R.time e < ·)) := by
    rintro ⟨-, -, hbehind⟩
    obtain ⟨w, hw, hlt⟩ := (Option.any_eq_true _ _).mp hbehind
    exact (hfront w hw).not_gt (of_decide_eq_true hlt)
  unfold deliver
  rw [hreport]
  dsimp only
  rw [if_neg hnot, if_pos ⟨hknown, hother⟩]

theorem deliver_same (hreport : R.report e = some (h, n))
    (hsame : R.Known s.head → s.head = some h) :
    R.deliver s e = R.place s.watermark e h n s.entries := by
  have hnot : ¬(R.Known s.head ∧ s.head ≠ some h) := fun hother => hother.2 (hsame hother.1)
  unfold deliver
  rw [hreport]
  dsimp only
  rw [if_neg fun hbehind => hnot ⟨hbehind.1, hbehind.2.1⟩, if_neg hnot]

theorem delivered (R : Reports E T H N) (s : Heads E T H N) (e : E) :
    R.Delivered s e (R.deliver s e) := by
  cases hreport : R.report e with
  | none =>
    have hdeliver : R.deliver s e = { s with watermark := bump s.watermark (R.time e) } := by
      unfold deliver
      rw [hreport]
    exact hdeliver ▸ .touch hreport
  | some report =>
    obtain ⟨h, n⟩ := report
    by_cases hother : R.Known s.head ∧ s.head ≠ some h
    · by_cases hbehind : ∃ w, s.watermark = some w ∧ R.time e < w
      · obtain ⟨w, hw, hlt⟩ := hbehind
        rw [deliver_behind hreport hother.1 hother.2 hw hlt]
        exact .behind hreport hother.1 hother.2 hw hlt
      · have hfront : ∀ w, s.watermark = some w → w ≤ R.time e := fun w hw =>
          not_lt.mp fun hlt => hbehind ⟨w, hw, hlt⟩
        have hempty : ∀ old, (none : Option E) = some old → R.time old ≤ R.time e :=
          fun _ h => nomatch h
        rw [deliver_front hreport hother.1 hother.2 hfront, place_fresh hempty]
        exact .advance hreport hother.1 hother.2 hfront
    · have hsame : R.Known s.head → s.head = some h := fun hknown =>
        by_contra fun hne => hother ⟨hknown, hne⟩
      rw [deliver_same hreport hsame]
      by_cases hstale : ∃ old, s.entries n = some old ∧ R.time e < R.time old
      · obtain ⟨old, hold, hlt⟩ := hstale
        rw [place_stale hold hlt]
        exact .stale hreport hsame hold hlt
      · have hfresh : ∀ old, s.entries n = some old → R.time old ≤ R.time e := fun old hold =>
          not_lt.mp fun hlt => hstale ⟨old, hold, hlt⟩
        rw [place_fresh hfresh]
        exact .store hreport hsame hfresh

theorem run_append (L rest : List E) : R.run (L ++ rest) = rest.foldl R.deliver (R.run L) :=
  List.foldl_append ..

theorem sound_run (L : List E) : Sound R L (R.run L) := by
  induction L using List.reverseRecOn with
  | nil => exact sound_nil
  | append_singleton L e ih =>
    rw [run_append]
    exact (R.delivered (R.run L) e).sound ih

/-! ## In any order -/

/-- What is to be kept under the head `h` is kept. -/
structure Follows (R : Reports E T H N) (S L : List E) (h : H) (s : Heads E T H N) : Prop where
  latest : ∀ n k, R.Latest S h n k → k ∈ L → s.head = some h ∧ s.entries n = some k
  newest : ∀ m ∈ L, s.watermark = some (R.time m) → ∀ n, R.report m = some (h, n) →
    s.head = some h

theorem Delivered.follows (hd : R.Delivered s e s') (hs : Sound R L s) (hf : Follows R S L h s)
    (hout : R.Superseded S h) (hL : L ⊆ S) (he : e ∈ S)
    (hinj : ∀ a ∈ S, ∀ b ∈ S, R.time a = R.time b → a = b) : Follows R S (L ++ [e]) h s' := by
  have hsplit : ∀ {x}, x ∈ L ++ [e] → x ∈ L ∨ x = e := fun hx =>
    (List.mem_append.mp hx).imp_right List.mem_singleton.mp
  cases hd with
  | touch htouch =>
    refine ⟨fun n k hk hmem => ?_, fun m hm hw n hreport => ?_⟩
    · rcases hsplit hmem with hmem | rfl
      · exact hf.latest n k hk hmem
      · exact nomatch htouch.symm.trans hk.2.1
    · rcases hsplit hm with hm | rfl
      · rcases bump_eq hw with htime | hw
        · rw [hinj m (hL hm) e he htime, htouch] at hreport
          cases hreport
        · exact hf.newest m hm hw n hreport
      · exact nomatch htouch.symm.trans hreport
  | @behind h' n' w hreport hknown hother hw hlt =>
    refine ⟨fun n k hk hmem => ?_, fun m hm hm' n hmreport => ?_⟩
    · rcases hsplit hmem with hmem | rfl
      · exact hf.latest n k hk hmem
      -- the newest event so far keeps `k` out, which none of them can do
      · obtain ⟨rfl, rfl⟩ := Prod.mk.inj (Option.some.inj (hreport.symm.trans hk.2.1))
        obtain ⟨m, hm, htime⟩ := hs.attained w hw
        exfalso
        cases hmreport : R.report m with
        | none =>
          cases hhead : s.head with
          | none => exact (hhead ▸ hknown : R.Known none)
          | some g =>
            obtain ⟨x, hx, n'', hxreport⟩ := hs.head g hhead
            have hg : g ≠ h' := fun heq => hother (hhead.trans (congrArg some heq))
            have hblank : g ≠ R.blank := (hhead ▸ hknown : R.Known (some g))
            have hmk := (hout x (hL hx) g n'' hxreport hg).2.2.2 hblank m (hL hm) hmreport n' k hk
            exact absurd (hlt.trans_eq htime.symm) hmk.not_gt
        | some report =>
          obtain ⟨g, n''⟩ := report
          by_cases hg : g = h'
          · exact hother (hf.newest m hm (hw.trans (congrArg some htime.symm)) n'' (hg ▸ hmreport))
          · have hmk := (hout m (hL hm) g n'' hmreport hg).2.1 n' k hk
            exact absurd (hlt.trans_eq htime.symm) hmk.not_gt
    · rcases hsplit hm with hm | rfl
      · exact hf.newest m hm hm' n hmreport
      · exact absurd (Option.some.inj (hw.symm.trans hm')) hlt.ne'
  | @advance h' n' hreport _ hother hfront =>
    have hself : ∀ n x, R.report x = some (h, n) → x = e → (some h' = some h) := by
      rintro n x hx rfl
      exact congrArg some (Prod.mk.inj (Option.some.inj (hreport.symm.trans hx))).1
    refine ⟨fun n k hk hmem => ?_, fun m hm hw n hmreport => ?_⟩
    · by_cases hke : k = e
      · subst hke
        obtain ⟨rfl, rfl⟩ := Prod.mk.inj (Option.some.inj (hreport.symm.trans hk.2.1))
        exact ⟨rfl, by simp⟩
      · have hmem := (hsplit hmem).resolve_right hke
        have hne : h' ≠ h := fun heq =>
          hother (heq ▸ (hf.latest n k hk hmem).1)
        obtain ⟨w, hw, hkw⟩ := hs.watermark k hmem
        have hek := (hout e he h' n' hreport hne).2.1 n k hk
        exact absurd (hkw.trans (hfront w hw)) hek.not_ge
    · have hw : bump s.watermark (R.time e) = some (R.time m) := hw
      rw [bump_of_le hfront] at hw
      have hmS : m ∈ S := (hsplit hm).elim (fun hm => hL hm) fun hme => hme ▸ he
      exact hself n m hmreport (hinj m hmS e he (Option.some.inj hw).symm)
  | @stale h' n' old hreport hsame hentry hlt =>
    have hhead : s.head = some h → some h' = some h := fun hhead =>
      congrArg some (hout.head_eq he hreport hsame hhead)
    refine ⟨fun n k hk hmem => ?_, fun m hm hw n hmreport => ?_⟩
    · rcases hsplit hmem with hmem | rfl
      · exact ⟨hhead (hf.latest n k hk hmem).1, (hf.latest n k hk hmem).2⟩
      -- the stored report cannot be newer than the newest one of its name
      · obtain ⟨rfl, rfl⟩ := Prod.mk.inj (Option.some.inj (hreport.symm.trans hk.2.1))
        obtain ⟨hold, g, hgreport, -⟩ := hs.entries n' old hentry
        by_cases hg : g = h'
        · exact absurd (hk.2.2 old (hL hold) (hg ▸ hgreport)) hlt.not_ge
        · exact absurd ((hout old (hL hold) g n' hgreport hg).2.1 n' k hk) hlt.not_gt
    · rcases hsplit hm with hm | rfl
      · exact hhead (hf.newest m hm hw n hmreport)
      · exact congrArg some (Prod.mk.inj (Option.some.inj (hreport.symm.trans hmreport))).1
  | @store h' n' hreport hsame hfresh =>
    have hhead : s.head = some h → some h' = some h := fun hhead =>
      congrArg some (hout.head_eq he hreport hsame hhead)
    refine ⟨fun n k hk hmem => ?_, fun m hm hw n hmreport => ?_⟩
    · rcases hsplit hmem with hmem | rfl
      · obtain ⟨hkhead, hkentry⟩ := hf.latest n k hk hmem
        refine ⟨hhead hkhead, ?_⟩
        by_cases hn : n = n'
        · subst hn
          have heq : h' = h := Option.some.inj (hhead hkhead)
          have htime := le_antisymm (hfresh k hkentry) (hk.2.2 e he (heq ▸ hreport))
          rw [hinj k hk.1 e he htime]
          exact Function.update_self ..
        · exact (Function.update_of_ne hn ..).trans hkentry
      · obtain ⟨rfl, rfl⟩ := Prod.mk.inj (Option.some.inj (hreport.symm.trans hk.2.1))
        exact ⟨rfl, Function.update_self ..⟩
    · have hself : m = e → some h' = some h := by
        rintro rfl
        exact congrArg some (Prod.mk.inj (Option.some.inj (hreport.symm.trans hmreport))).1
      rcases hsplit hm with hm | hm
      · rcases bump_eq hw with htime | hw
        · exact hself (hinj m (hL hm) e he htime)
        · exact hhead (hf.newest m hm hw n hmreport)
      · exact hself hm

theorem follows_run (hout : R.Superseded S h) (hL : L ⊆ S)
    (hinj : ∀ a ∈ S, ∀ b ∈ S, R.time a = R.time b → a = b) : Follows R S L h (R.run L) := by
  induction L using List.reverseRecOn with
  | nil => exact ⟨fun _ _ _ hk => (nomatch hk), fun _ hm => (nomatch hm)⟩
  | append_singleton L e ih =>
    have hL' : L ⊆ S := fun x hx => hL (List.mem_append_left _ hx)
    rw [run_append]
    exact (R.delivered (R.run L) e).follows (sound_run L) (ih hL') hout hL' (hL (by simp)) hinj

theorem exists_latest (hk : k ∈ S) (hreport : R.report k = some (h, n)) :
    ∃ k, R.Latest S h n k := by
  have hmem : ∀ {x}, x ∈ S.filter (fun x => R.report x = some (h, n)) ↔
      x ∈ S ∧ R.report x = some (h, n) := by simp [List.mem_filter]
  obtain ⟨last, hlast, hmax⟩ := exists_newest R.time (List.ne_nil_of_mem (hmem.mpr ⟨hk, hreport⟩))
  exact ⟨last, (hmem.mp hlast).1, (hmem.mp hlast).2, fun x hx hxreport =>
    hmax x (hmem.mpr ⟨hx, hxreport⟩)⟩

/-- All orders keep the same reports. -/
theorem agree_of_settles (hset : R.Settles S) (hL : L.Perm S)
    (hinj : ∀ a ∈ S, ∀ b ∈ S, R.time a = R.time b → a = b) : Agree (R.run L) (R.run S) := by
  have hmem : ∀ {x h n}, x ∈ S → R.report x = some (h, n) → x ∈ R.reports S := fun hx hreport =>
    List.mem_filter.mpr ⟨hx, by rw [hreport]; rfl⟩
  by_cases hnone : R.reports S = []
  · have hempty : ∀ {L}, L ⊆ S → Agree (R.run L) {} := by
      intro L hL
      refine ⟨Option.eq_none_iff_forall_not_mem.mpr fun h hh => ?_, fun n =>
        Option.eq_none_iff_forall_not_mem.mpr fun x hx => ?_⟩
      · obtain ⟨x, hx, n, hreport⟩ := (sound_run L).head h hh
        exact absurd (hmem (hL hx) hreport) (hnone ▸ List.not_mem_nil)
      · obtain ⟨hxL, h, hreport, -⟩ := (sound_run L).entries n x hx
        exact absurd (hmem (hL hxL) hreport) (hnone ▸ List.not_mem_nil)
    have hleft := hempty hL.subset
    have hright := hempty (List.Subset.refl S)
    exact ⟨hleft.1.trans hright.1.symm, fun n => (hleft.2 n).trans (hright.2 n).symm⟩
  · obtain ⟨c, hc⟩ := exists_newest R.time hnone
    obtain ⟨hcS, hsome⟩ := List.mem_filter.mp hc.1
    obtain ⟨⟨h, nc⟩, hreport⟩ := Option.isSome_iff_exists.mp hsome
    have hout := hset c h nc hc hreport
    have hclatest : R.Latest S h nc c :=
      ⟨hcS, hreport, fun x hx hx' => hc.2 x (hmem hx hx')⟩
    have htarget : ∀ {L}, L.Perm S → (R.run L).head = some h ∧
        ∀ n, (∀ k, R.Latest S h n k → (R.run L).entries n = some k) ∧
          ((∀ k, ¬R.Latest S h n k) → (R.run L).entries n = none) := by
      intro L hL
      have hf := follows_run hout hL.subset hinj
      have hhead := (hf.latest nc c hclatest (hL.mem_iff.mpr hcS)).1
      refine ⟨hhead, fun n => ⟨fun k hk => (hf.latest n k hk (hL.mem_iff.mpr hk.1)).2, ?_⟩⟩
      refine fun hno => Option.eq_none_iff_forall_not_mem.mpr fun x hx => ?_
      obtain ⟨hxL, g, hxreport, hkept⟩ := (sound_run L).entries n x hx
      have hxS := hL.mem_iff.mp hxL
      have hne : g ≠ h := by
        rintro rfl
        obtain ⟨k, hk⟩ := exists_latest hxS hxreport
        exact hno k hk
      have hblank := hkept.resolve_left fun hg => hne (Option.some.inj (hg.symm.trans hhead))
      obtain ⟨y, hy, hyreport⟩ := (hout x hxS g n hxreport hne).2.2.1 hblank
      obtain ⟨k, hk⟩ := exists_latest hy hyreport
      exact hno k hk
    have hleft := htarget hL
    have hright := htarget (List.Perm.refl S)
    refine ⟨hleft.1.trans hright.1.symm, fun n => ?_⟩
    by_cases hk : ∃ k, R.Latest S h n k
    · obtain ⟨k, hk⟩ := hk
      rw [(hleft.2 n).1 k hk, (hright.2 n).1 k hk]
    · have hno : ∀ k, ¬R.Latest S h n k := fun k hk' => hk ⟨k, hk'⟩
      rw [(hleft.2 n).2 hno, (hright.2 n).2 hno]

/-! ## In some order -/

theorem foldl_frozen {w w' : T} (hhead : s.head = some h) (hh : h ≠ R.blank)
    (hw : s.watermark = some w') (hle : w ≤ w')
    (hL : ∀ e ∈ L, ∀ g m, R.report e = some (g, m) → g ≠ h → R.time e < w) :
    (L.foldl R.deliver s).head = some h ∧
      (s.entries n = some k → (∀ e ∈ L, R.report e = some (h, n) → R.time e < R.time k) →
        (L.foldl R.deliver s).entries n = some k) := by
  induction L generalizing s w' with
  | nil => exact ⟨hhead, fun hk _ => hk⟩
  | cons e L ih =>
    obtain ⟨hhead', ⟨v, hv, hwv⟩, hkept⟩ :=
      (R.delivered s e).frozen (n := n) (k := k) hhead hh hw hle (hL e (.head _))
    obtain ⟨hend, hends⟩ := ih hhead' hv hwv fun x hx => hL x (.tail _ hx)
    exact ⟨hend, fun hk hlater =>
      hends (hkept hk (hlater e (.head _))) fun x hx => hlater x (.tail _ hx)⟩

theorem foldl_lost (hk : s.entries n ≠ some k) (hL : k ∉ L) :
    (L.foldl R.deliver s).entries n ≠ some k := by
  induction L generalizing s with
  | nil => exact hk
  | cons e L ih =>
    refine ih (fun hk' => ?_) fun hmem => hL (.tail _ hmem)
    have hupdate : ∀ {f : N → Option E} {m}, Function.update f m (some e) n = some k →
        f n = some k := fun h =>
      (update_eq_some h).elim (fun h => absurd (h.2 ▸ .head _) hL) fun h => h.2
    generalize hs' : R.deliver s e = s' at hk'
    have hd := hs' ▸ R.delivered s e
    cases hd with
    | touch => exact hk hk'
    | behind => exact hk hk'
    | advance => exact hL (single_eq_some hk' |>.2 ▸ .head _)
    | stale => exact hk hk'
    | store => exact hk (hupdate hk')

theorem deliver_first (hreport : R.report e = some (h, n)) :
    R.deliver {} e = { watermark := some (R.time e), head := some h
                       entries := Function.update (fun _ => none) n (some e) } :=
  (deliver_same hreport fun hknown => absurd hknown id).trans (place_fresh fun _ h => nomatch h)

/-- In the order in which they happened, the events leave the head of the newest report. -/
theorem run_sorted_head {c : E} (hS : S.Pairwise fun a b => R.time a < R.time b)
    (hc : Newest R.time (R.reports S) c) (hreport : R.report c = some (h, n)) :
    (R.run S).head = some h := by
  obtain ⟨before, after, rfl⟩ := List.append_of_mem (List.mem_filter.mp hc.1).1
  obtain ⟨-, hlast, hcross⟩ := List.pairwise_append.mp hS
  have hafter : ∀ x ∈ after, R.report x = none := by
    intro x hx
    by_contra hsome
    have hmem : x ∈ R.reports (before ++ c :: after) := List.mem_filter.mpr
      ⟨by simp [hx], Option.isSome_iff_ne_none.mpr hsome⟩
    exact absurd (List.rel_of_pairwise_cons hlast hx) (hc.2 x hmem).not_gt
  have htouches : ∀ {s : Heads E T H N} {L : List E}, (∀ x ∈ L, R.report x = none) →
      (L.foldl R.deliver s).head = s.head := by
    intro s L hL
    induction L generalizing s with
    | nil => rfl
    | cons e L ih =>
      refine (ih fun x hx => hL x (.tail _ hx)).trans ?_
      simp [deliver, hL e (.head _)]
  rw [run_append, List.foldl_cons, htouches hafter]
  have hsound := sound_run (R := R) before
  have hhead : ∀ {h' n'}, R.report c = some (h', n') → some h' = some h := fun hreport' =>
    congrArg (some ∘ Prod.fst) (Option.some.inj (hreport'.symm.trans hreport))
  generalize hs' : R.deliver (R.run before) c = s'
  have hd := hs' ▸ R.delivered (R.run before) c
  cases hd with
  | touch htouch => exact nomatch htouch.symm.trans hreport
  | behind _ _ _ hw hlt =>
    obtain ⟨m, hm, htime⟩ := hsound.attained _ hw
    exact absurd (htime ▸ hlt) (hcross m hm c (.head _)).not_gt
  | advance hreport' => exact hhead hreport'
  | stale hreport' => exact hhead hreport'
  | store hreport' => exact hhead hreport'

theorem deliver_head_of_unknown (hreport : R.report e = some (h, n)) (hunknown : ¬R.Known s.head) :
    (R.deliver s e).head = some h := by
  have hhead : ∀ {h' n'}, R.report e = some (h', n') → some h' = some h := fun hreport' =>
    congrArg (some ∘ Prod.fst) (Option.some.inj (hreport'.symm.trans hreport))
  generalize hs' : R.deliver s e = s'
  have hd := hs' ▸ R.delivered s e
  cases hd with
  | touch htouch => exact nomatch htouch.symm.trans hreport
  | behind _ hknown => exact absurd hknown hunknown
  | advance hreport' => exact hhead hreport'
  | stale hreport' => exact hhead hreport'
  | store hreport' => exact hhead hreport'

namespace Overtaken

variable {c x : E} {g : H} {m l : N}
variable (o : R.Overtaken S c h n x g m)
  (hagree : ∀ L, L.Perm S → Agree (R.run L) (R.run S))

include o hagree

theorem head_ne_blank : h ≠ R.blank := by
  intro hblank
  obtain ⟨rest, hperm⟩ := exists_perm_cons_cons o.newest_mem o.mem o.ne_newest
  -- `x` takes over from the blank head, and then nothing is new enough to take over from `x`
  have htaken : (R.run [c, x]).head = some g := by
    refine deliver_head_of_unknown o.other fun hknown => ?_
    rw [deliver_first o.report] at hknown
    exact hknown hblank
  obtain ⟨w, hw, hle⟩ := (sound_run (R := R) [c, x]).watermark c (by simp)
  have hrest := (foldl_frozen (n := n) (k := c) htaken (fun heq => o.ne (heq.trans hblank.symm))
    hw hle fun e he h' n' hreport _ =>
      o.rest_before [c, x] hperm (by simp) e he h' n' hreport).1
  have hend := (hagree _ hperm).1
  rw [run_sorted_head o.sorted o.newest o.report] at hend
  exact o.ne (Option.some.inj (hrest.symm.trans hend))

theorem latest_kept (hk : R.Latest S h l k) : (R.run S).entries l = some k := by
  have hblank := o.head_ne_blank hagree
  have hkept : ∀ before rest, (before ++ rest).Perm S → c ∈ before →
      (R.run before).head = some h → (R.run before).entries l = some k → k ∉ rest →
      (R.run S).entries l = some k := by
    intro before rest hperm hc hhead hentry hnot
    obtain ⟨w, hw, hle⟩ := (sound_run (R := R) before).watermark c hc
    rw [← (hagree _ hperm).2 l, run_append]
    refine (foldl_frozen (n := l) (k := k) hhead hblank hw hle fun e he h' n' hreport _ =>
      o.rest_before before hperm hc e he h' n' hreport).2 hentry fun e he hreport => ?_
    have heS := hperm.mem_iff.mp (List.mem_append_right _ he)
    refine lt_of_le_of_ne (hk.2.2 e heS hreport) fun heq => hnot ?_
    exact o.inj heS hk.1 heq ▸ he
  by_cases hkc : k = c
  · subst hkc
    have hl : l = n := (Prod.mk.inj (Option.some.inj (hk.2.1.symm.trans o.report))).2
    obtain ⟨before, after, hsplit⟩ := List.append_of_mem hk.1
    have hperm : (k :: (before ++ after)).Perm S := by
      rw [hsplit]
      exact List.perm_middle.symm
    refine hkept [k] _ hperm (by simp) ?_ ?_ (o.not_mem_rest [] hperm)
    · exact congrArg Heads.head (deliver_first o.report)
    · refine (congrFun (congrArg Heads.entries (deliver_first o.report)) l).trans ?_
      simp [hl]
  · obtain ⟨rest, hperm⟩ := exists_perm_cons_cons o.newest_mem hk.1 (Ne.symm hkc)
    have hln : l ≠ n := by
      rintro rfl
      exact (hk.2.2 c o.newest_mem o.report).not_gt (o.before hk.1 hk.2.1 hkc)
    have hsecond : (R.run [c, k]).head = some h ∧ (R.run [c, k]).entries l = some k := by
      show (R.deliver (R.deliver {} c) k).head = _ ∧ (R.deliver (R.deliver {} c) k).entries l = _
      rw [deliver_first o.report]
      simp [deliver, place, hk.2.1, hln]
    exact hkept [c, k] rest hperm (by simp) hsecond.1 hsecond.2 (o.not_mem_rest [c] hperm)

/-- A report that some order of delivery loses is not to be kept. -/
theorem not_latest (before : List E) {rest : List E} (hperm : (before ++ rest).Perm S)
    (hlost : (R.run before).entries l ≠ some k) (hnot : k ∉ rest) : ¬R.Latest S h l k := by
  intro hk
  have hkept := o.latest_kept hagree hk
  rw [← (hagree _ hperm).2 l, run_append] at hkept
  exact foldl_lost hlost hnot hkept

theorem before_latest (hk : R.Latest S h l k) : R.time x < R.time k := by
  have hblank := o.head_ne_blank hagree
  have hkx : k ≠ x := by
    rintro rfl
    exact o.ne (Prod.mk.inj (Option.some.inj (o.other.symm.trans hk.2.1))).1
  by_contra hlt
  have hle : ¬R.time x < R.time k := hlt
  obtain ⟨rest, hperm⟩ := exists_perm_cons_cons hk.1 o.mem hkx
  -- `x` comes right after `k` and clears it away
  refine o.not_latest hagree [k, x] hperm ?_ (fun hmem => ?_) hk
  · show (R.deliver (R.deliver {} k) x).entries l ≠ some k
    rw [deliver_first hk.2.1]
    have hne : ¬some h = some g := fun heq => o.ne (Option.some.inj heq).symm
    simp only [deliver, place, o.other, Known, Option.any_some, hblank, hle, ne_eq, not_false_eq_true,
      hne, and_self, decide_false, Bool.false_eq_true, and_false, if_false, if_true, Option.any_none]
    exact fun heq => hkx (single_eq_some heq).2
  · exact o.not_mem_rest [] hperm (.tail _ hmem)

theorem touch_before_latest {z : E} (hg : g ≠ R.blank) (hz : z ∈ S) (htouch : R.report z = none)
    (hk : R.Latest S h l k) : R.time z < R.time k := by
  have hzk : z ≠ k := by
    rintro rfl
    exact nomatch htouch.symm.trans hk.2.1
  have hxz : x ≠ z := by
    rintro rfl
    exact nomatch htouch.symm.trans o.other
  have hxk : x ≠ k := by
    rintro rfl
    exact o.ne (Prod.mk.inj (Option.some.inj (o.other.symm.trans hk.2.1))).1
  by_contra hlt
  have hkz : R.time k < R.time z :=
    lt_of_le_of_ne (not_lt.mp hlt) fun heq => hzk (o.inj hk.1 hz heq).symm
  obtain ⟨rest, hperm⟩ := exists_perm_cons₃ o.mem hz hk.1 hxz hxk hzk
  -- after `x` and `z`, `k` is too old to take over
  refine o.not_latest hagree [x, z, k] hperm ?_
    (o.not_mem_rest [x, z] hperm) hk
  show (R.deliver (R.deliver (R.deliver {} x) z) k).entries l ≠ some k
  obtain ⟨w, hw, hle⟩ := (sound_run (R := R) [x, z]).watermark z (by simp)
  have hstate : R.deliver (R.deliver {} x) z =
      { watermark := some w, head := some g
        entries := Function.update (fun _ => none) m (some x) } := by
    have hw : (R.deliver (R.deliver {} x) z).watermark = some w := hw
    rw [deliver_first o.other] at hw ⊢
    simp only [deliver, htouch] at hw ⊢
    rw [hw]
  have hne : (some g : Option H) ≠ some h := fun heq => o.ne (Option.some.inj heq)
  rw [hstate, deliver_behind hk.2.1 (s := ⟨some w, some g, _⟩) hg hne rfl (hkz.trans_le hle)]
  exact fun heq => hxk (single_eq_some (n := m) heq).2.symm

theorem name_reported (hg : g = R.blank) : ∃ y ∈ S, R.report y = some (h, m) := by
  by_contra hno
  have hblank := o.head_ne_blank hagree
  have hnm : m ≠ n := by
    rintro rfl
    exact hno ⟨c, o.newest_mem, o.report⟩
  obtain ⟨rest, hperm⟩ := exists_perm_cons_cons o.mem o.newest_mem o.ne_newest.symm
  have hold := o.before o.mem o.other o.ne_newest.symm
  -- before `c`, `x` stays under its name
  have hfirst : (R.run S).entries m = some x := by
    have hsecond : (R.run [x, c]).head = some h ∧ (R.run [x, c]).entries m = some x := by
      show (R.deliver (R.deliver {} x) c).head = _ ∧ (R.deliver (R.deliver {} x) c).entries m = _
      rw [deliver_first o.other]
      simp [deliver, place, o.report, Known, hg, hnm, hnm.symm]
    obtain ⟨w, hw, hle⟩ := (sound_run (R := R) [x, c]).watermark c (by simp)
    rw [← (hagree _ hperm).2 m]
    exact (foldl_frozen (n := m) (k := x) hsecond.1 hblank hw hle fun e he h' n' hreport _ =>
      o.rest_before [x, c] hperm (by simp) e he h' n' hreport).2 hsecond.2
        fun e he hreport =>
          absurd ⟨e, hperm.mem_iff.mp (.tail _ (.tail _ he)), hreport⟩ hno
  -- after `c`, it is too old
  have hswap : ([c, x] ++ rest).Perm S := (List.Perm.swap x c rest).trans hperm
  have hlast : (R.run S).entries m ≠ some x := by
    rw [← (hagree _ hswap).2 m, run_append]
    refine foldl_lost ?_ (o.not_mem_rest [c] hswap)
    show (R.deliver (R.deliver {} c) x).entries m ≠ some x
    have hne : (some h : Option H) ≠ some g := fun heq => o.ne (Option.some.inj heq).symm
    rw [deliver_first o.report,
      deliver_behind o.other (s := ⟨some (R.time c), some h, _⟩) hblank hne rfl hold]
    exact fun heq => hnm (single_eq_some (n := n) heq).1
  exact hlast hfirst

end Overtaken

/-- The reports that are kept do not depend on the order of delivery if and only if the head of the
newest one supersedes all others. -/
theorem agree_iff (hS : S.Pairwise fun a b => R.time a < R.time b) :
    (∀ L, L.Perm S → Agree (R.run L) (R.run S)) ↔ R.Settles S := by
  constructor
  · intro hagree c h n hc hreport x hx g m hother hne
    have o : R.Overtaken S c h n x g m := ⟨hS, hc, hreport, hx, hother, hne⟩
    exact ⟨o.head_ne_blank hagree, fun _ _ => o.before_latest hagree, o.name_reported hagree,
      fun hg _ hz htouch _ _ => o.touch_before_latest hagree hg hz htouch⟩
  · intro hset L hL
    refine agree_of_settles hset hL fun a ha b hb htime => ?_
    exact List.inj_on_of_nodup_map
      ((List.pairwise_map (f := R.time)).mpr (hS.imp fun h => h.ne)) ha hb htime

end

end Reports

end A2ABroker
