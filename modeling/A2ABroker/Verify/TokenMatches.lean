import A2ABroker.GitHub.Projection
import A2ABroker.Lib.Text
import A2ABroker.Lib.Words

/-! # Tokens and the matches of patterns

A token of a code host is a word of its text (`sees_startsToken`). The patterns of the redactions
that look at words (`Bordered`) start where a word does and end where one may, so what replaces a
match joins no two words (`KeepsWords.takeWhile_replaceMatches`). -/

namespace A2ABroker

open Words GitHubProjection

/-- `TOKEN_VALUE_RE.test(s)`. -/
def carriesToken (s : String) : Bool := hasMatch matchTokenValue none s.toList

/-- A token starts here, if no word goes on here. -/
def startsToken (text : List Char) : Bool := (matchTokenValue none text).isSome

/-! ## Tokens are words -/

theorem afterWord_eq_some_iff {word text rest : List Char} :
    afterWord (· == ·) word text = some rest ↔ text = word ++ rest := by
  induction word generalizing text with
  | nil => exact ⟨fun h => Option.some.inj h, fun h => congrArg some h⟩
  | cons w ws ih =>
    cases text with
    | nil => simp [afterWord]
    | cons c cs =>
      rw [afterWord, List.cons_append, List.cons_eq_cons, ← ih]
      by_cases hwc : w = c
      · simp [hwc]
      · simp [hwc, Ne.symm hwc]

theorem isWordChar_of_mem_tokenValueWords {word : String} (hword : word ∈ tokenValueWords) :
    ∀ c ∈ word.toList, isWordChar c = true := by
  revert word
  decide

theorem matchTokenValue_isSome (prev : Option Char) (text : List Char) :
    (matchTokenValue prev text).isSome = (!prev.any isWordChar && startsToken text) := by
  cases hprev : prev.any isWordChar
  · rw [startsToken, matchTokenValue, matchTokenValue, hprev, Option.any_none, Bool.not_false,
      Bool.true_and]
  · rw [matchTokenValue, if_pos hprev]
    rfl

/-- The match of a token that starts with `word`. -/
theorem tokenWord_isSome_iff {word : List Char} (hword : ∀ c ∈ word, isWordChar c = true)
    (text : List Char) (f : List Char → List Char × Nat) :
    ((afterWord (· == ·) word text).bind fun rest =>
      if (rest.takeWhile isWordChar).isEmpty then none
      else some (f (rest.takeWhile isWordChar))).isSome = true ↔
      ∃ c cs, text.takeWhile isWordChar = word ++ c :: cs := by
  constructor
  · intro h
    cases hrest : afterWord (· == ·) word text with
    | none => rw [hrest] at h; cases h
    | some rest =>
      rw [hrest, Option.bind_some] at h
      rw [afterWord_eq_some_iff.mp hrest, List.takeWhile_append_of_pos hword]
      cases hrun : rest.takeWhile isWordChar with
      | nil => rw [hrun] at h; cases h
      | cons c cs => exact ⟨c, cs, rfl⟩
  · rintro ⟨c, cs, htake⟩
    have htext : text = word ++ (c :: cs ++ text.dropWhile isWordChar) := by
      rw [← List.append_assoc, ← htake, List.takeWhile_append_dropWhile]
    have hmem : c ∈ text.takeWhile isWordChar := by
      rw [htake]
      exact List.mem_append_right _ (.head _)
    rw [afterWord_eq_some_iff.mpr htext, Option.bind_some, List.cons_append, List.takeWhile_cons,
      if_pos (List.mem_takeWhile_imp hmem)]
    rfl

theorem startsToken_iff {text : List Char} : startsToken text = true ↔
    ∃ word ∈ tokenValueWords, ∃ c cs, text.takeWhile isWordChar = word.toList ++ c :: cs := by
  rw [startsToken, matchTokenValue, Option.any_none, if_neg Bool.false_ne_true,
    List.findSome?_isSome_iff]
  exact exists_congr fun word => and_congr_right fun hword =>
    tokenWord_isSome_iff (isWordChar_of_mem_tokenValueWords hword) text
      fun run => ("[REDACTED]".toList, word.length + run.length)

theorem sees_startsToken : Sees isWordChar startsToken where
  word text := by
    rw [Bool.eq_iff_iff, startsToken_iff, startsToken_iff, List.takeWhile_idem]
  nil := rfl
  append a b h := by
    obtain ⟨word, hword, c, cs, htake⟩ := startsToken_iff.mp h
    rw [startsToken_iff, List.takeWhile_append]
    split
    case isTrue hall =>
      have ha : a.takeWhile isWordChar = a := (List.takeWhile_prefix _).eq_of_length hall
      rw [← ha, htake, List.append_assoc, List.cons_append]
      exact ⟨word, hword, c, _, rfl⟩
    case isFalse => exact ⟨word, hword, c, cs, htake⟩

theorem carriesToken_eq (s : String) :
    carriesToken s = found isWordChar startsToken false s.toList := by
  have hscan (prev : Option Char) (text : List Char) : hasMatch matchTokenValue prev text =
      found isWordChar startsToken (prev.any isWordChar) text := by
    induction text generalizing prev with
    | nil => rfl
    | cons c cs ih => rw [hasMatch, found, matchTokenValue_isSome, ih, Option.any_some]
  exact hscan none s.toList

theorem startsToken_cons_of_ne {c : Char} (hc : c ≠ 'g') (cs : List Char) :
    startsToken (c :: cs) = false := by
  have hg : ∀ word ∈ tokenValueWords, word.toList.head? = some 'g' := by decide
  rw [Bool.eq_false_iff]
  intro h
  obtain ⟨word, hword, d, ds, htake⟩ := startsToken_iff.mp h
  have hhead : ((c :: cs).takeWhile isWordChar).head? = some 'g' := by
    rw [htake, List.head?_append, hg word hword, Option.some_or]
  rw [List.takeWhile_cons] at hhead
  split at hhead
  · exact hc (Option.some.inj hhead)
  · cases hhead

/-! ## Matches -/

/-- A pattern whose matches are put in the place of. -/
abbrev Matcher := Option Char → List Char → Option (List Char × Nat)

/-- The character before the rest of a text of which `read` has been read. -/
def lastRead (prev : Option Char) : List Char → Option Char
  | [] => prev
  | c :: cs => lastRead (some c) cs

theorem lastRead_append (prev : Option Char) (a b : List Char) :
    lastRead prev (a ++ b) = lastRead (lastRead prev a) b := by
  induction a generalizing prev with
  | nil => rfl
  | cons c cs ih => exact ih (some c)

theorem isSome_lastRead {prev : Option Char} (hprev : prev.isSome = true) (read : List Char) :
    (lastRead prev read).isSome = true := by
  induction read generalizing prev with
  | nil => exact hprev
  | cons c cs ih => exact ih rfl

/-- No word character starts the text. -/
def AtBreak (text : List Char) : Prop := text.head?.any isWordChar = false

/-- The matches start where a word does and end where one may. -/
def Bordered (m : Matcher) : Prop := ∀ {prev text r n}, m prev text = some (r, n) →
  prev.any isWordChar = false ∧ ∃ c cs rest, text = c :: (cs ++ rest) ∧ isWordChar c = true ∧
    n = cs.length + 1 ∧ AtBreak rest

theorem replaceMatches_skip (m : Matcher) (prev : Option Char) (read rest : List Char) :
    replaceMatches m prev read.length (read ++ rest) =
      replaceMatches m (lastRead prev read) 0 rest := by
  induction read generalizing prev with
  | nil => rfl
  | cons c cs ih => exact ih (some c)

theorem replaceMatches_of_some {m : Matcher} {prev : Option Char} {c : Char} {cs rest r : List Char}
    (hmatch : m prev (c :: (cs ++ rest)) = some (r, cs.length + 1)) :
    replaceMatches m prev 0 (c :: (cs ++ rest)) =
      r ++ replaceMatches m (lastRead (some c) cs) 0 rest := by
  rw [replaceMatches, hmatch]
  exact congrArg (r ++ ·) (replaceMatches_skip m (some c) cs rest)

theorem replaceMatches_of_append {m : Matcher} {prev : Option Char} {read rest r : List Char}
    (hread : read ≠ []) (hmatch : m prev (read ++ rest) = some (r, read.length)) :
    replaceMatches m prev 0 (read ++ rest) =
      r ++ replaceMatches m (lastRead prev read) 0 rest := by
  cases read with
  | nil => exact absurd rfl hread
  | cons c cs => exact replaceMatches_of_some hmatch

theorem replaceMatches_of_none {m : Matcher} {prev : Option Char} {c : Char} {cs : List Char}
    (hmatch : m prev (c :: cs) = none) :
    replaceMatches m prev 0 (c :: cs) = c :: replaceMatches m (some c) 0 cs := by
  rw [replaceMatches, hmatch]

/-- What a pattern that matches within a word needs to replace it: a word goes on up to a place at
which the replaced text has a break, too. -/
structure KeepsWords (m : Matcher) : Prop where
  breaks : ∀ {prev text r n}, m prev text = some (r, n) → prev.any isWordChar = true →
    AtBreak text ∧ r ≠ [] ∧ AtBreak r

theorem Bordered.keepsWords {m : Matcher} (h : Bordered m) : KeepsWords m where
  breaks hmatch hprev := by
    rw [(h hmatch).1] at hprev
    cases hprev

theorem AtBreak.cons {c : Char} {cs : List Char} (h : AtBreak (c :: cs)) :
    isWordChar c = false := by
  simpa [AtBreak] using h

theorem atBreak_cons {c : Char} (hc : isWordChar c = false) (cs : List Char) :
    AtBreak (c :: cs) := by
  simpa [AtBreak] using hc

theorem Bordered.eq_none_of_atBreak {m : Matcher} {prev : Option Char} (hm : Bordered m) {text : List Char} (hbreak : AtBreak text) :
    m prev text = none := by
  cases hmatch : m prev text with
  | none => rfl
  | some result =>
    obtain ⟨-, c, cs, rest, rfl, hc, -, -⟩ := hm hmatch
    rw [hbreak.cons] at hc
    cases hc

theorem Bordered.eq_none_of_word {m : Matcher} {prev : Option Char} (hm : Bordered m) (hprev : prev.any isWordChar = true)
    (text : List Char) : m prev text = none := by
  cases hmatch : m prev text with
  | none => rfl
  | some result =>
    rw [(hm hmatch).1] at hprev
    cases hprev

theorem AtBreak.takeWhile_eq_nil {text : List Char} (h : AtBreak text) :
    text.takeWhile isWordChar = [] := by
  cases text with
  | nil => rfl
  | cons c cs => rw [List.takeWhile_cons, if_neg]; simpa [AtBreak] using h

theorem AtBreak.append {r : List Char} (h : AtBreak r) (hr : r ≠ []) (text : List Char) :
    AtBreak (r ++ text) := by
  cases r with
  | nil => exact absurd rfl hr
  | cons c cs => exact h

/-- What goes on with a word is kept up to the end of the word. -/
theorem KeepsWords.takeWhile_replaceMatches {m : Matcher} (h : KeepsWords m) (prev : Option Char)
    (hprev : prev.any isWordChar = true) (text : List Char) :
    (replaceMatches m prev 0 text).takeWhile isWordChar = text.takeWhile isWordChar := by
  induction text generalizing prev with
  | nil => rfl
  | cons c cs ih =>
    cases hmatch : m prev (c :: cs) with
    | none =>
      rw [replaceMatches_of_none hmatch, List.takeWhile_cons, List.takeWhile_cons]
      split
      case isTrue hc => rw [ih (some c) hc]
      case isFalse => rfl
    | some result =>
      obtain ⟨r, n⟩ := result
      obtain ⟨htext, hr, hbreak⟩ := h.breaks hmatch hprev
      rw [htext.takeWhile_eq_nil, replaceMatches, hmatch]
      exact (hbreak.append hr _).takeWhile_eq_nil

theorem atBreak_dropWhile {p : Char → Bool} (hp : ∀ c, isWordChar c = true → p c = true)
    (text : List Char) : AtBreak (text.dropWhile p) := by
  cases hrest : text.dropWhile p with
  | nil => rfl
  | cons c cs =>
    have hc : p c = false := by
      have hhead := List.head?_dropWhile_not p text
      rwa [hrest] at hhead
    rw [AtBreak, List.head?_cons, Option.any_some, Bool.eq_false_iff]
    intro hword
    rw [hp c hword] at hc
    cases hc

/-- A match of `word` and a run of more characters, in the form that `Bordered` asks for. -/
theorem cuts_of_append {word rest : List Char} (run : List Char)
    (hword : word.head?.any isWordChar = true) (hrest : AtBreak rest) :
    ∃ c cs rest', word ++ (run ++ rest) = c :: (cs ++ rest') ∧
      isWordChar c = true ∧ word.length + run.length = cs.length + 1 ∧ AtBreak rest' := by
  cases word with
  | nil => cases hword
  | cons c cs =>
    refine ⟨c, cs ++ run, rest, by rw [List.cons_append, List.append_assoc], hword, ?_, hrest⟩
    rw [List.length_cons, List.length_append]
    omega

theorem bordered_matchTokenValue : Bordered matchTokenValue := by
  have hwords : ∀ word ∈ tokenValueWords, word.toList.head?.any isWordChar = true := by
    decide
  intro prev text r n hmatch
  rw [matchTokenValue] at hmatch
  split at hmatch
  · cases hmatch
  case isFalse hprev =>
    obtain ⟨word, hword, hsome⟩ := List.exists_of_findSome?_eq_some hmatch
    obtain ⟨rest, hrest, hrun⟩ := Option.bind_eq_some_iff.mp hsome
    simp only [] at hrun
    split at hrun
    · cases hrun
    · cases hrun
      rw [afterWord_eq_some_iff.mp hrest]
      have hcuts := cuts_of_append (rest.takeWhile isWordChar) (hwords word hword)
        (atBreak_dropWhile (fun _ h => h) rest)
      rw [List.takeWhile_append_dropWhile, String.length_toList] at hcuts
      exact ⟨by simpa using hprev, hcuts⟩

/-- A run of word characters and hyphens gives back the hyphens at its end, so it ends before a
hyphen or where the run does. -/
theorem exists_of_tokenRun (text : List Char) : ∃ rest,
    text = ((text.takeWhile fun c => isWordChar c || c == '-').reverse.dropWhile
      (· == '-')).reverse ++ rest ∧
    (∀ c ∈ ((text.takeWhile fun c => isWordChar c || c == '-').reverse.dropWhile
      (· == '-')).reverse, (isWordChar c || c == '-') = true) ∧ AtBreak rest := by
  let run := text.takeWhile fun c => isWordChar c || c == '-'
  refine ⟨run.rtakeWhile (· == '-') ++ text.dropWhile fun c => isWordChar c || c == '-', ?_, ?_, ?_⟩
  · show text = run.rdropWhile (· == '-') ++ _
    rw [← List.append_assoc, List.rdropWhile_append_rtakeWhile, List.takeWhile_append_dropWhile]
  · intro c hc
    have hmem : c ∈ run := (List.rdropWhile_prefix (· == '-') run).subset hc
    exact List.mem_takeWhile_imp (p := fun c => isWordChar c || c == '-') hmem
  · cases hhyphens : run.rtakeWhile (· == '-') with
    | nil => exact atBreak_dropWhile (fun c h => by rw [h, Bool.true_or]) text
    | cons c cs =>
      have hc : c == '-' :=
        List.mem_rtakeWhile_imp (p := (· == '-')) (by rw [hhyphens]; exact .head _)
      rw [beq_iff_eq] at hc
      rw [hc]
      rfl

/-- What `matchToken` matches: a word, a hyphen and a run of word characters and hyphens. -/
theorem exists_of_matchToken {prev : Option Char} {text r : List Char} {n : Nat}
    (hmatch : matchToken prev text = some (r, n)) :
    prev.any isWordChar = false ∧ r = "[redacted]".toList ∧ ∃ word ∈ tokenWords, ∃ token rest,
      text = word.toList ++ ['-'] ++ (token ++ rest) ∧ n = word.length + 1 + token.length ∧
      (∀ c ∈ token, (isWordChar c || c == '-') = true) ∧ AtBreak rest := by
  rw [matchToken] at hmatch
  split at hmatch
  · cases hmatch
  case isFalse hprev =>
    obtain ⟨word, hword, hsome⟩ := List.exists_of_findSome?_eq_some hmatch
    obtain ⟨rest, hrest, hrun⟩ := Option.bind_eq_some_iff.mp hsome
    simp only [] at hrun
    split at hrun
    · cases hrun
    · cases hrun
      obtain ⟨rest', hsplit, hchars, hend⟩ := exists_of_tokenRun rest
      refine ⟨by simpa using hprev, rfl, word, hword, _, rest', ?_, rfl, hchars, hend⟩
      rw [← hsplit]
      exact afterWord_eq_some_iff.mp hrest

theorem bordered_matchToken : Bordered matchToken := by
  have hwords : ∀ word ∈ tokenWords, (word.toList ++ ['-']).head?.any isWordChar = true := by
    decide
  intro prev text r n hmatch
  obtain ⟨hprev, -, word, hword, token, rest, rfl, rfl, -, hrest⟩ := exists_of_matchToken hmatch
  have hcuts := cuts_of_append token (hwords word hword) hrest
  rw [List.length_append, String.length_toList] at hcuts
  exact ⟨hprev, hcuts⟩

/-! ## Secrets -/

/-- The characters of a name, in either letter case. -/
abbrev sameLetter (w c : Char) : Bool := w == c.toLower

theorem exists_of_afterWord {word text rest : List Char}
    (h : afterWord sameLetter word text = some rest) :
    ∃ name, text = name ++ rest ∧ name.map Char.toLower = word := by
  induction word generalizing text with
  | nil => exact ⟨[], Option.some.inj h, rfl⟩
  | cons w ws ih =>
    cases text with
    | nil => cases h
    | cons c cs =>
      rw [afterWord] at h
      split at h
      case isTrue hwc =>
        obtain ⟨name, rfl, hname⟩ := ih h
        exact ⟨c :: name, rfl, by rw [List.map_cons, hname, beq_iff_eq.mp hwc]⟩
      case isFalse => cases h

/-- What follows `\s*[:=]\s*\S+`. -/
def afterSecret (rest : List Char) : Option (List Char) :=
  match rest.dropWhile isSpace with
  | sep :: rest' =>
    if sep == ':' || sep == '=' then
      let value := rest'.dropWhile isSpace
      if value.isEmpty then none else some (value.dropWhile fun c => !isSpace c)
    else none
  | [] => none

/-- The name of a secret among `words` and what follows its match. -/
def secretMatchIn (words : List String) (text : List Char) : Option (String × List Char) :=
  words.findSome? fun word =>
    (afterWord sameLetter word.toList text).bind fun rest => (afterSecret rest).map (word, ·)

/-- The name of a secret and what follows its match. -/
def secretMatch (text : List Char) : Option (String × List Char) :=
  secretWords.findSome? fun word =>
    (afterWord sameLetter word.toList text).bind fun rest => (afterSecret rest).map (word, ·)

/-- The pattern of secrets with one of the names `words`, whose name is kept before `ending`. -/
def matchSecretIn (words : List String) (ending : List Char) : Matcher := fun prev text =>
  if prev.any isWordChar then none
  else words.findSome? fun word =>
    (afterWord (fun w c => w == c.toLower) word.toList text).bind fun rest =>
      match rest.dropWhile isSpace with
      | sep :: rest' =>
        if sep == ':' || sep == '=' then
          let value := rest'.dropWhile isSpace
          let tail := value.dropWhile fun c => !isSpace c
          if value.isEmpty then none
          else some (text.take word.length ++ ending, text.length - tail.length)
        else none
      | [] => none

theorem matchSecretIn_eq (words : List String) (ending : List Char) (prev : Option Char)
    (text : List Char) : matchSecretIn words ending prev text =
    if prev.any isWordChar then none
    else (secretMatchIn words text).map fun (word, tail) =>
      (text.take word.length ++ ending, text.length - tail.length) := by
  rw [matchSecretIn, secretMatchIn, List.map_findSome?]
  congr 1
  apply congrArg (List.findSome? · words)
  funext word
  rw [Function.comp_apply, Option.map_bind]
  congr 1
  funext rest
  rw [Function.comp_apply, Option.map_map, afterSecret]
  cases rest.dropWhile isSpace with
  | nil => rfl
  | cons sep rest' =>
    simp only []
    split
    · split <;> rfl
    · rfl

theorem matchSecret_eq (prev : Option Char) (text : List Char) : matchSecret prev text =
    if prev.any isWordChar then none
    else (secretMatch text).map fun (word, tail) =>
      (text.take word.length ++ "=[redacted]".toList, text.length - tail.length) :=
  matchSecretIn_eq secretWords "=[redacted]".toList prev text

theorem isAlphanum_eq (c : Char) : c.isAlphanum =
    (decide ('A'.val ≤ c.val ∧ c.val ≤ 'Z'.val) || ('a'.val ≤ c.val && c.val ≤ 'z'.val) ||
      c.isDigit) := rfl

theorem isWordChar_of_isSpace {c : Char} (hc : isSpace c = true) : isWordChar c = false := by
  rw [Bool.eq_false_iff]
  intro hword
  simp only [isSpace, isWordChar, isAlphanum_eq, Char.isDigit, Char.toNat, Bool.or_eq_true, Bool.and_eq_true, decide_eq_true_eq, beq_iff_eq,
    UInt32.le_iff_toNat_le, ge_iff_le] at hc hword
  have hA : 'A'.val.toNat = 65 := rfl
  have hZ : 'Z'.val.toNat = 90 := rfl
  have ha : 'a'.val.toNat = 97 := rfl
  have hz : 'z'.val.toNat = 122 := rfl
  have h0 : '0'.val.toNat = 48 := rfl
  have h9 : '9'.val.toNat = 57 := rfl
  rcases hword with hword | rfl
  · omega
  · revert hc
    decide

theorem exists_of_afterSecret {rest tail : List Char} (h : afterSecret rest = some tail) :
    AtBreak tail ∧ ∃ read, rest = read ++ tail := by
  rw [afterSecret] at h
  split at h
  · rename_i sep rest' hrest
    split at h
    · simp only [] at h
      split at h
      · cases h
      · cases h
        refine ⟨atBreak_dropWhile (fun c hc => ?_) _, ?_⟩
        · rw [Bool.not_eq_true']
          cases hspace : isSpace c with
          | false => rfl
          | true => rw [isWordChar_of_isSpace hspace] at hc; cases hc
        · obtain ⟨spaces, hspaces⟩ := List.dropWhile_suffix (l := rest) isSpace
          obtain ⟨spaces', hspaces'⟩ := List.dropWhile_suffix (l := rest') isSpace
          obtain ⟨value, hvalue⟩ :=
            List.dropWhile_suffix (l := rest'.dropWhile isSpace) fun c => !isSpace c
          rw [hrest, ← hspaces', ← hvalue] at hspaces
          exact ⟨spaces ++ sep :: (spaces' ++ value), by simpa using hspaces.symm⟩
    · cases h
  · cases h

theorem toLower_of_not_isWordChar {c : Char} (hc : isWordChar c = false) : c.toLower = c := by
  refine dif_neg fun hupper => ?_
  rw [isWordChar, isAlphanum_eq, decide_eq_true hupper] at hc
  cases hc

theorem isWordChar_of_toLower {c : Char} (hc : isWordChar c.toLower = true) :
    isWordChar c = true := by
  cases hword : isWordChar c with
  | true => rfl
  | false =>
    rw [toLower_of_not_isWordChar hword, hword] at hc
    cases hc

theorem exists_of_secretMatchIn {words : List String} {text tail : List Char} {word : String}
    (h : secretMatchIn words text = some (word, tail)) : word ∈ words ∧ AtBreak tail ∧
      ∃ name read, text = name ++ (read ++ tail) ∧
        name.map Char.toLower = word.toList := by
  obtain ⟨word', hword, hsome⟩ := List.exists_of_findSome?_eq_some h
  obtain ⟨rest, hrest, hafter⟩ := Option.bind_eq_some_iff.mp hsome
  obtain ⟨tail', htail, heq⟩ := Option.map_eq_some_iff.mp hafter
  cases heq
  obtain ⟨name, rfl, hname⟩ := exists_of_afterWord hrest
  obtain ⟨hbreak, read, rfl⟩ := exists_of_afterSecret htail
  exact ⟨hword, hbreak, name, read, rfl, hname⟩

theorem exists_of_secretMatch {text tail : List Char} {word : String}
    (h : secretMatch text = some (word, tail)) : word ∈ secretWords ∧ AtBreak tail ∧
      ∃ name read, text = name ++ (read ++ tail) ∧ name.map Char.toLower = word.toList :=
  exists_of_secretMatchIn h

section

variable {words : List String} {ending : List Char}

/-- A secret's match, from its name to where it ends. -/
theorem matchSecretIn_of_secretMatch
    (hwords : ∀ word ∈ words, word.toList.head?.any isWordChar = true) {prev : Option Char}
    {text tail : List Char} {word : String} (hprev : prev.any isWordChar = false)
    (h : secretMatchIn words text = some (word, tail)) :
    ∃ c cs name, text = c :: (cs ++ tail) ∧ isWordChar c = true ∧ AtBreak tail ∧
      name.map Char.toLower = word.toList ∧
      matchSecretIn words ending prev text = some (name ++ ending, cs.length + 1) := by
  obtain ⟨hword, hbreak, name, read, rfl, hname⟩ := exists_of_secretMatchIn h
  cases hname' : name with
  | nil =>
    have hhead := hwords word hword
    rw [← hname, hname'] at hhead
    cases hhead
  | cons c cs =>
    have hc : isWordChar c = true := by
      have hhead := hwords word hword
      rw [← hname, hname'] at hhead
      exact isWordChar_of_toLower hhead
    refine ⟨c, cs ++ read, name, by simp, hc, hbreak, hname, ?_⟩
    have hlength : word.length = name.length := by
      rw [← String.length_toList, ← hname, List.length_map]
    rw [hname'] at h hlength ⊢
    rw [matchSecretIn_eq, hprev, h, if_neg Bool.false_ne_true, Option.map_some]
    refine congrArg some (Prod.ext ?_ ?_)
    · simp only [hlength, List.take_left]
    · simp only [List.length_append, List.length_cons]
      omega

/-- What a pattern of secrets matches. -/
theorem exists_of_matchSecretIn
    (hwords : ∀ word ∈ words, word.toList.head?.any isWordChar = true) {prev : Option Char}
    {text r : List Char} {n : Nat} (hmatch : matchSecretIn words ending prev text = some (r, n)) :
    prev.any isWordChar = false ∧ ∃ c cs tail name, text = c :: (cs ++ tail) ∧
      isWordChar c = true ∧ AtBreak tail ∧ (∃ word ∈ words, name.map Char.toLower = word.toList) ∧
      r = name ++ ending ∧ n = cs.length + 1 := by
  have hsome := hmatch
  rw [matchSecretIn_eq] at hsome
  split at hsome
  · cases hsome
  case isFalse hprev =>
    rw [Bool.not_eq_true] at hprev
    obtain ⟨⟨word, tail⟩, hfound, -⟩ := Option.map_eq_some_iff.mp hsome
    obtain ⟨c, cs, name, rfl, hc, hbreak, hname, heq⟩ :=
      matchSecretIn_of_secretMatch hwords hprev hfound
    cases hmatch.symm.trans heq
    exact ⟨hprev, c, cs, tail, name, rfl, hc, hbreak,
      ⟨word, (exists_of_secretMatchIn hfound).1, hname⟩, rfl, rfl⟩

theorem bordered_matchSecretIn
    (hwords : ∀ word ∈ words, word.toList.head?.any isWordChar = true) :
    Bordered (matchSecretIn words ending) := by
  intro prev text r n hmatch
  obtain ⟨hprev, c, cs, tail, -, htext, hc, hbreak, -, -, hn⟩ :=
    exists_of_matchSecretIn hwords hmatch
  exact ⟨hprev, c, cs, tail, htext, hc, hn, hbreak⟩

end

theorem startsWord_of_mem_secretWords :
    ∀ word ∈ secretWords, word.toList.head?.any isWordChar = true := by
  decide

theorem matchSecret_of_secretMatch {prev : Option Char} {text tail : List Char} {word : String}
    (hprev : prev.any isWordChar = false) (h : secretMatch text = some (word, tail)) :
    ∃ c cs name, text = c :: (cs ++ tail) ∧ isWordChar c = true ∧ AtBreak tail ∧
      name.map Char.toLower = word.toList ∧
      matchSecret prev text = some (name ++ "=[redacted]".toList, cs.length + 1) :=
  matchSecretIn_of_secretMatch startsWord_of_mem_secretWords hprev h

theorem bordered_matchSecret : Bordered matchSecret :=
  bordered_matchSecretIn startsWord_of_mem_secretWords

end A2ABroker
