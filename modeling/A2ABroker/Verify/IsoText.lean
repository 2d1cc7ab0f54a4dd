import A2ABroker.Core.Values
import Mathlib.Algebra.Group.Nat.Defs

/-! # ISO texts

`toISOString` writes different times as different texts (`toISOString_injective`): the text after the
year has a fixed length, and the calendar date determines the day (`civilFromDays_inj`). -/

namespace A2ABroker

/-! ## Dates -/

/-- The year in an era of 400 years, and the day in that year. -/
theorem yearOfEra_bounds {doe yoe : Nat} (h : doe < 146097)
    (hyoe : yoe = (doe - doe / 1460 + doe / 36524 - doe / 146096) / 365) :
    yoe < 400 ∧ 365 * yoe + yoe / 4 - yoe / 100 ≤ doe ∧
      doe ≤ 365 * yoe + yoe / 4 - yoe / 100 + 365 := by
  obtain ⟨a, ha⟩ : ∃ a, a = doe / 1460 := ⟨_, rfl⟩
  obtain ⟨b, hb⟩ : ∃ b, b = doe / 36524 := ⟨_, rfl⟩
  obtain ⟨c, hc⟩ : ∃ c, c = doe / 146096 := ⟨_, rfl⟩
  obtain ⟨q, hq⟩ : ∃ q, q = yoe / 4 := ⟨_, rfl⟩
  obtain ⟨r, hr⟩ : ∃ r, r = yoe / 100 := ⟨_, rfl⟩
  rw [← ha, ← hb, ← hc] at hyoe
  rw [← hq, ← hr]
  have ha' : 1460 * a ≤ doe ∧ doe < 1460 * a + 1460 := by omega
  have hb' : 36524 * b ≤ doe ∧ doe < 36524 * b + 36524 := by omega
  have hq' : 4 * q ≤ yoe ∧ yoe < 4 * q + 4 := by omega
  have hr' : 100 * r ≤ yoe ∧ yoe < 100 * r + 100 := by omega
  have hcb : c = 0 ∧ b ≤ 3 ∨ c = 1 ∧ b = 4 ∧ doe = 146096 := by omega
  clear ha hb hc hq hr
  have hy : 365 * yoe + a + c ≤ doe + b ∧ doe + b < 365 * yoe + 365 + a + c := by omega
  clear hyoe
  rcases hcb with ⟨rfl, hb3⟩ | ⟨rfl, rfl, rfl⟩
  · have hrb : r = b := by
      obtain rfl | rfl | rfl | rfl : b = 0 ∨ b = 1 ∨ b = 2 ∨ b = 3 := by omega
      all_goals omega
    subst hrb
    refine ⟨by omega, by omega, by omega⟩
  · omega

/-- The parts of a date: the era, the year and the day in it, and the month from March on. -/
theorem civilFromDays_eq (days : Int) : ∃ (era : Int) (yoe doy mp : Nat),
    days + 719468 = era * 146097 + ((365 * yoe + yoe / 4 - yoe / 100 + doy : Nat) : Int) ∧
      yoe < 400 ∧ mp ≤ 11 ∧ (153 * mp + 2) / 5 ≤ doy ∧ doy ≤ (153 * mp + 2) / 5 + 30 ∧
      civilFromDays days =
        (era * 400 + yoe + (if (if mp < 10 then mp + 3 else mp - 9) ≤ 2 then 1 else 0),
          if mp < 10 then mp + 3 else mp - 9, doy - (153 * mp + 2) / 5 + 1) := by
  have hdoe : ((days + 719468) - (days + 719468) / 146097 * 146097).toNat < 146097 := by omega
  have hera : days + 719468 = (days + 719468) / 146097 * 146097 +
      ((((days + 719468) - (days + 719468) / 146097 * 146097).toNat : Nat) : Int) := by omega
  obtain ⟨hyoe, hle, hdoy⟩ := yearOfEra_bounds hdoe rfl
  unfold civilFromDays
  dsimp only
  generalize ((days + 719468) - (days + 719468) / 146097 * 146097).toNat = doe at *
  generalize (doe - doe / 1460 + doe / 36524 - doe / 146096) / 365 = yoe at *
  obtain ⟨doy, hdoy'⟩ := Nat.exists_eq_add_of_le hle
  have hsub : doe - (365 * yoe + yoe / 4 - yoe / 100) = doy := by omega
  have hbound : doy ≤ 365 := by omega
  rw [hsub]
  refine ⟨_, yoe, doy, (5 * doy + 2) / 153, hdoy' ▸ hera, hyoe, by omega, by omega, by omega, rfl⟩

theorem civilFromDays_inj {days days' : Int} (h : civilFromDays days = civilFromDays days') :
    days = days' := by
  obtain ⟨era, yoe, doy, mp, hdays, hyoe, hmp, hlow, -, heq⟩ := civilFromDays_eq days
  obtain ⟨era', yoe', doy', mp', hdays', hyoe', hmp', hlow', -, heq'⟩ := civilFromDays_eq days'
  rw [heq, heq'] at h
  obtain ⟨hy, hrest⟩ := Prod.mk.inj h
  obtain ⟨hm, hd⟩ := Prod.mk.inj hrest
  have hmonth : mp = mp' := by
    split at hm <;> split at hm <;> omega
  subst hmonth
  have hyear : era * 400 + (yoe : Int) = era' * 400 + yoe' := by
    generalize (if (if mp < 10 then mp + 3 else mp - 9) ≤ 2 then (1 : Int) else 0) = c at hy
    omega
  obtain rfl : yoe = yoe' := by omega
  obtain rfl : doy = doy' := by omega
  omega

theorem civilFromDays_bounds (days : Int) :
    (civilFromDays days).2.1 < 100 ∧ (civilFromDays days).2.2 < 100 := by
  obtain ⟨era, yoe, doy, mp, -, -, hmp, -, hhigh, heq⟩ := civilFromDays_eq days
  rw [heq]
  constructor
  · show (if mp < 10 then mp + 3 else mp - 9) < 100
    split <;> omega
  · show doy - (153 * mp + 2) / 5 + 1 < 100
    omega

/-! ## Texts -/

theorem padded_toList (width n : Nat) : (padded width n).toList =
    List.replicate (width - (Nat.toDigits 10 n).length) '0' ++ Nat.toDigits 10 n := by
  simp [padded]

theorem padded_inj {width width' m n : Nat} (h : padded width m = padded width' n) : m = n := by
  have hvalue := congrArg (fun s : String => Nat.ofDigitChars 10 s.toList 0) h
  simpa [padded_toList, Nat.ofDigitChars_append] using hvalue

theorem padded_length {width n : Nat} (hw : 0 < width) (h : n < 10 ^ width) :
    (padded width n).toList.length = width := by
  have hlen := (Nat.length_toDigits_le_iff (by decide) hw).mpr h
  rw [padded_toList, List.length_append, List.length_replicate]
  omega

theorem le_padded_length (width n : Nat) : width ≤ (padded width n).toList.length := by
  rw [padded_toList, List.length_append, List.length_replicate]
  omega

/-- The year of an ISO text: four digits, or a sign and at least six. -/
def isoYear (y : Int) : String :=
  if 0 ≤ y ∧ y ≤ 9999 then padded 4 y.toNat
  else (if y < 0 then "-" else "+") ++ padded 6 y.natAbs

theorem isoYear_inj {y y' : Int} (h : isoYear y = isoYear y') : y = y' := by
  have hshort : ∀ {y : Int}, 0 ≤ y ∧ y ≤ 9999 → (padded 4 y.toNat).toList.length = 4 := fun hy =>
    padded_length (by decide) (by omega)
  have hlong : ∀ (y : Int), 4 < ((if y < 0 then "-" else "+") ++ padded 6 y.natAbs).toList.length := by
    intro y
    have hle := le_padded_length 6 y.natAbs
    rw [String.toList_append, List.length_append]
    omega
  unfold isoYear at h
  by_cases hy : 0 ≤ y ∧ y ≤ 9999
  · rw [if_pos hy] at h
    by_cases hy' : 0 ≤ y' ∧ y' ≤ 9999
    · rw [if_pos hy'] at h
      have hnat := padded_inj h
      omega
    · have hlen := hlong y'
      rw [if_neg hy'] at h
      rw [← h, hshort hy] at hlen
      omega
  · rw [if_neg hy] at h
    by_cases hy' : 0 ≤ y' ∧ y' ≤ 9999
    · have hlen := hlong y
      rw [if_pos hy'] at h
      rw [h, hshort hy'] at hlen
      omega
    · rw [if_neg hy'] at h
      have hlist := congrArg String.toList h
      have hsign : ∀ y : Int, (if y < 0 then "-" else "+").toList = [if y < 0 then '-' else '+'] := by
        intro y
        split <;> rfl
      rw [String.toList_append, String.toList_append, hsign, hsign] at hlist
      obtain ⟨hhead, htail⟩ := List.cons_eq_cons.mp hlist
      have habs := padded_inj (String.toList_inj.mp htail)
      have hneg : y < 0 ↔ y' < 0 := by
        by_cases hlt : y < 0
        · by_cases hlt' : y' < 0
          · exact iff_of_true hlt hlt'
          · rw [if_pos hlt, if_neg hlt'] at hhead
            exact absurd hhead (by decide)
        · by_cases hlt' : y' < 0
          · rw [if_neg hlt, if_pos hlt'] at hhead
            exact absurd hhead (by decide)
          · exact iff_of_false hlt hlt'
      omega

/-- What follows the year. -/
def isoTail (m d t : Nat) : String :=
  "-" ++ padded 2 m ++ "-" ++ padded 2 d ++ "T" ++ padded 2 (t / 3600000) ++ ":" ++
    padded 2 (t / 60000 % 60) ++ ":" ++ padded 2 (t / 1000 % 60) ++ "." ++ padded 3 (t % 1000) ++ "Z"

theorem toISOString_eq (ms : Int) : toISOString ms =
    isoYear (civilFromDays (ms / 86400000)).1 ++
      isoTail (civilFromDays (ms / 86400000)).2.1 (civilFromDays (ms / 86400000)).2.2
        (ms % 86400000).toNat := by
  simp only [toISOString, isoTail, isoYear, String.append_assoc]

theorem isoTail_length {m d t : Nat} (hm : m < 100) (hd : d < 100) (ht : t < 86400000) :
    (isoTail m d t).toList.length = 20 := by
  have h2 : ∀ {n : Nat}, n < 100 → (padded 2 n).toList.length = 2 := fun h =>
    padded_length (by decide) h
  have h3 : ∀ {n : Nat}, n < 1000 → (padded 3 n).toList.length = 3 := fun h =>
    padded_length (by decide) h
  have hhour : t / 3600000 < 100 := by omega
  have hminute : t / 60000 % 60 < 100 := by omega
  have hsecond : t / 1000 % 60 < 100 := by omega
  have hmilli : t % 1000 < 1000 := by omega
  simp only [isoTail, String.toList_append, List.length_append, h2 hm, h2 hd, h2 hhour, h2 hminute,
    h2 hsecond, h3 hmilli]
  rfl

/-- Two texts that begin with encodings of the same length. -/
theorem append_inj_of_length {a a' b b' : String} (h : a ++ b = a' ++ b')
    (hlen : a.toList.length = a'.toList.length) : a = a' ∧ b = b' := by
  have hlist := congrArg String.toList h
  rw [String.toList_append, String.toList_append] at hlist
  obtain ⟨ha, hb⟩ := List.append_inj hlist hlen
  exact ⟨String.toList_inj.mp ha, String.toList_inj.mp hb⟩

theorem isoTail_inj {m d t m' d' t' : Nat} (hm : m < 100) (hd : d < 100) (ht : t < 86400000)
    (hm' : m' < 100) (hd' : d' < 100) (ht' : t' < 86400000) (h : isoTail m d t = isoTail m' d' t') :
    m = m' ∧ d = d' ∧ t = t' := by
  have h2 : ∀ {n n' : Nat}, n < 100 → n' < 100 →
      (padded 2 n).toList.length = (padded 2 n').toList.length := fun h h' =>
    (padded_length (by decide) h).trans (padded_length (by decide) h').symm
  have h3 : ∀ {n n' : Nat}, n < 1000 → n' < 1000 →
      (padded 3 n).toList.length = (padded 3 n').toList.length := fun h h' =>
    (padded_length (by decide) h).trans (padded_length (by decide) h').symm
  simp only [isoTail, String.append_assoc] at h
  obtain ⟨-, h⟩ := append_inj_of_length h rfl
  obtain ⟨hmonth, h⟩ := append_inj_of_length h (h2 hm hm')
  obtain ⟨-, h⟩ := append_inj_of_length h rfl
  obtain ⟨hday, h⟩ := append_inj_of_length h (h2 hd hd')
  obtain ⟨-, h⟩ := append_inj_of_length h rfl
  obtain ⟨hhour, h⟩ := append_inj_of_length h (h2 (by omega) (by omega))
  obtain ⟨-, h⟩ := append_inj_of_length h rfl
  obtain ⟨hminute, h⟩ := append_inj_of_length h (h2 (by omega) (by omega))
  obtain ⟨-, h⟩ := append_inj_of_length h rfl
  obtain ⟨hsecond, h⟩ := append_inj_of_length h (h2 (by omega) (by omega))
  obtain ⟨-, h⟩ := append_inj_of_length h rfl
  obtain ⟨hmilli, -⟩ := append_inj_of_length h (h3 (by omega) (by omega))
  have hhour := padded_inj hhour
  have hminute := padded_inj hminute
  have hsecond := padded_inj hsecond
  have hmilli := padded_inj hmilli
  exact ⟨padded_inj hmonth, padded_inj hday, by omega⟩

theorem toISOString_injective : Function.Injective toISOString := by
  intro ms ms' h
  rw [toISOString_eq, toISOString_eq] at h
  obtain ⟨hm, hd⟩ := civilFromDays_bounds (ms / 86400000)
  obtain ⟨hm', hd'⟩ := civilFromDays_bounds (ms' / 86400000)
  have ht : (ms % 86400000).toNat < 86400000 := by omega
  have ht' : (ms' % 86400000).toNat < 86400000 := by omega
  have hlist := congrArg String.toList h
  rw [String.toList_append, String.toList_append] at hlist
  obtain ⟨hyear, htail⟩ := List.append_inj' hlist
    ((isoTail_length hm hd ht).trans (isoTail_length hm' hd' ht').symm)
  have hy := isoYear_inj (String.toList_inj.mp hyear)
  obtain ⟨hmonth, hday, htime⟩ := isoTail_inj hm hd ht hm' hd' ht' (String.toList_inj.mp htail)
  have hdays := civilFromDays_inj (Prod.ext hy (Prod.ext hmonth hday))
  omega

end A2ABroker
