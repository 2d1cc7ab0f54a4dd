import A2ABroker.GitHub.Commands
import A2ABroker.Lib.Words
import Mathlib.Data.List.DropRight
import Mathlib.Data.List.Infix

/-! # The grammar of assignment commands

A line is read apart from the others (`parseAssignmentIntents_append`). The command in it is looked
for in a copy in lower case, so that the place is cut one unit further for every `İ` before it
(`parseLine_eq`), and nothing has to stand between the command and the target. A line is read as the
grammar says exactly when what is read at the cut agrees with a command, white space and a target
somewhere in the line (`command_grammar_iff`). -/

namespace A2ABroker

open Words

/-! ## The property -/

/-- A text starts with the command, in any letter case. -/
def isCommand (text : List Char) : Bool := commandPrefix.isPrefixOf (text.map Char.toLower)

/-- The first token of a text, unless it is a flag. -/
def targetOf (rest : List Char) : Option (List Char) :=
  let token := (rest.dropWhile isSpace).takeWhile (!isSpace ·)
  if token.isEmpty || isFlag token then none else some token

/-- What stands after the first ` -- `, unless it is blank. -/
def messageOf (rest : List Char) : Option String :=
  (indexIn " -- ".toList rest).bind fun idx =>
    let message := trimChars (rest.drop (idx + 4))
    if message.isEmpty then none else some (String.ofList message)

/-- The command, white space and a target. -/
structure IsAssignment (text : List Char) : Prop where
  command : isCommand text = true
  spaced : (text.drop commandPrefix.length).head?.any isSpace = true
  target : (targetOf (text.drop commandPrefix.length)).isSome = true

/-- What is read in a line. -/
structure ReadsLine (line : List Char) (result : Option AssignmentIntent) : Prop where
  found : result.isSome = true ↔ ∃ text, text <:+ line ∧ IsAssignment text
  parts : ∀ intent, result = some intent → ∃ text, text <:+ line ∧ IsAssignment text ∧
    targetOf (text.drop commandPrefix.length) = some intent.target.toList ∧
    messageOf (text.drop commandPrefix.length) = intent.message
  again : ∀ intent, result = some intent → parseAssignmentIntents (some intent.raw) = [intent]

def linesOfText (text : String) : List (List Char) := splitAtEach (· == '\n') text.toList

/-- The lines are read one by one, whatever stands before and after them, each as the grammar
says. -/
structure CommandGrammar (text : String) : Prop where
  apart : ∀ before after, parseAssignmentIntents (some (before ++ "\n" ++ text ++ "\n" ++ after)) =
    parseAssignmentIntents (some before) ++ parseAssignmentIntents (some text) ++
      parseAssignmentIntents (some after)
  inOrder : parseAssignmentIntents (some text) =
    (linesOfText text).flatMap fun line => parseAssignmentIntents (some (String.ofList line))
  each : ∀ line ∈ linesOfText text, ∃ result : Option AssignmentIntent,
    parseAssignmentIntents (some (String.ofList line)) = result.toList ∧
      ReadsLine (trimChars line) result

/-! ## The condition -/

/-- What is cut off a line as its command: the line from the first command on, without one more unit
for every `İ` before it. -/
def cutCommand : Nat → List Char → Option (List Char)
  | _, [] => none
  | k, c :: cs =>
    if isCommand (c :: cs) then some (sliceFrom k (c :: cs))
    else cutCommand (if c = 'İ' then k + 1 else k) cs

/-- If a target is read at the cut, a command stands there, and the same target and message follow a
command with white space. Otherwise there is no such command. -/
def LineReads (line : List Char) : Prop :=
  ∀ text, cutCommand 0 line = some text →
    match targetOf (sliceFrom commandPrefix.length text) with
    | none => ∀ other, other <:+ line → ¬IsAssignment other
    | some target => isCommand text = true ∧ ∃ other, other <:+ line ∧ IsAssignment other ∧
        targetOf (other.drop commandPrefix.length) = some target ∧
        messageOf (other.drop commandPrefix.length) =
          messageOf (sliceFrom commandPrefix.length text)

/-! ## Lines -/

theorem splitAtEach_first (p : Char → Bool) (text : List Char) :
    ∃ parts, splitAtEach p text = text.takeWhile (!p ·) :: parts := by
  induction text with
  | nil => exact ⟨[], rfl⟩
  | cons c cs ih =>
    obtain ⟨parts, hparts⟩ := ih
    rw [splitAtEach, hparts]
    cases hc : p c with
    | true => exact ⟨_, by rw [if_pos rfl, List.takeWhile_cons_of_neg (by simp [hc])]⟩
    | false => exact ⟨parts, by simp [hc]⟩

theorem splitAtEach_append (p : Char → Bool) {c : Char} (hc : p c = true) (a b : List Char) :
    splitAtEach p (a ++ c :: b) = splitAtEach p a ++ splitAtEach p b := by
  induction a with
  | nil =>
    have hsplit : splitAtEach p (c :: b) = [] :: splitAtEach p b := by rw [splitAtEach, if_pos hc]
    exact hsplit
  | cons x xs ih =>
    rw [List.cons_append, splitAtEach, splitAtEach, ih]
    split
    · rfl
    · obtain ⟨parts, hparts⟩ := splitAtEach_first p xs
      rw [hparts]
      rfl

theorem splitAtEach_of_forall {p : Char → Bool} {line : List Char} (h : ∀ c ∈ line, p c = false) :
    splitAtEach p line = [line] := by
  induction line with
  | nil => rfl
  | cons c cs ih =>
    rw [splitAtEach, if_neg (by simp [h c (.head _)]), ih fun d hd => h d (.tail _ hd)]

theorem not_mem_of_mem_splitAtEach {p : Char → Bool} {text line : List Char}
    (hline : line ∈ splitAtEach p text) : ∀ c ∈ line, p c = false := by
  induction text generalizing line with
  | nil =>
    rw [splitAtEach, List.mem_singleton] at hline
    rw [hline]
    exact fun c hc => absurd hc List.not_mem_nil
  | cons c cs ih =>
    rw [splitAtEach] at hline
    split at hline
    · rcases List.mem_cons.mp hline with rfl | hline
      · exact fun c hc => absurd hc List.not_mem_nil
      · exact ih hline
    · rename_i hc
      cases hrest : splitAtEach p cs with
      | nil =>
        rw [hrest] at hline
        rw [List.mem_singleton.mp hline]
        simpa using hc
      | cons part parts =>
        rw [hrest] at hline ih
        rcases List.mem_cons.mp hline with rfl | hline
        · exact List.forall_mem_cons.mpr ⟨by simpa using hc, ih (.head _)⟩
        · exact ih (.tail _ hline)

theorem parseAssignmentIntents_some (text : String) :
    parseAssignmentIntents (some text) = (linesOfText text).filterMap parseLine := rfl

theorem parseAssignmentIntents_append (a b : String) :
    parseAssignmentIntents (some (a ++ "\n" ++ b)) =
      parseAssignmentIntents (some a) ++ parseAssignmentIntents (some b) := by
  have hlines : linesOfText (a ++ "\n" ++ b) = linesOfText a ++ linesOfText b := by
    unfold linesOfText
    rw [String.toList_append, String.toList_append, List.append_assoc]
    exact splitAtEach_append _ rfl _ _
  rw [parseAssignmentIntents_some, hlines, List.filterMap_append]
  rfl

/-- A text of one line. -/
theorem parseAssignmentIntents_line {line : List Char} (h : ∀ c ∈ line, (c == '\n') = false) :
    parseAssignmentIntents (some (String.ofList line)) = (parseLine line).toList := by
  rw [parseAssignmentIntents_some, linesOfText, String.toList_ofList, splitAtEach_of_forall h]
  cases hparse : parseLine line with
  | none => rw [List.filterMap_cons_none hparse]; rfl
  | some intent => rw [List.filterMap_cons_some hparse]; rfl

/-! ## Cutting by units -/

theorem utf16Units_pos (c : Char) : 0 < utf16Units c := by
  rw [utf16Units]
  split <;> decide

theorem sliceFrom_zero (text : List Char) : sliceFrom 0 text = text := by
  cases text with
  | nil => rfl
  | cons c cs => rw [sliceFrom, if_pos rfl]

theorem sliceFrom_cons_add (n : Nat) (c : Char) (cs : List Char) :
    sliceFrom (utf16Units c + n) (c :: cs) = sliceFrom n cs := by
  have hpos := utf16Units_pos c
  rw [sliceFrom, if_neg (by omega), if_pos (by omega), Nat.add_sub_cancel_left]

theorem units_sliceFrom (n : Nat) (text : List Char) :
    units (sliceFrom n text) = units text - n := by
  induction text generalizing n with
  | nil => simp [sliceFrom, units]
  | cons c cs ih =>
    have hpos := utf16Units_pos c
    have htwo : utf16Units c ≤ 2 := by
      rw [utf16Units]
      split <;> decide
    have hhalf : utf16Units '\uFFFD' = 1 := by decide
    rw [sliceFrom]
    split
    · omega
    · split
      · rw [ih, units_cons]
        omega
      · rw [units_cons, units_cons, hhalf]
        omega

/-- What is left of a text are characters of it, or half of one. -/
theorem mem_sliceFrom {n : Nat} {text : List Char} {c : Char} (h : c ∈ sliceFrom n text) :
    c ∈ text ∨ c = '\uFFFD' := by
  induction text generalizing n with
  | nil => cases h
  | cons d ds ih =>
    rw [sliceFrom] at h
    split at h
    · exact .inl h
    · split at h
      · exact (ih h).imp (.tail d) id
      · rcases List.mem_cons.mp h with rfl | h
        · exact .inr rfl
        · exact .inl (.tail d h)

/-- A text that does not end in white space. -/
def Tight (text : List Char) : Prop := ∀ c ∈ text.getLast?, isSpace c = false

theorem Tight.suffix {a b : List Char} (h : Tight (a ++ b)) : Tight b := by
  intro c hc
  refine h c ?_
  rw [List.getLast?_append, hc]
  rfl

theorem Tight.sliceFrom (h : Tight text) (n : Nat) : Tight (sliceFrom n text) := by
  induction text generalizing n with
  | nil => exact h
  | cons c cs ih =>
    have hcs : Tight cs := Tight.suffix (a := [c]) h
    rw [A2ABroker.sliceFrom]
    split
    · exact h
    · split
      · exact ih hcs _
      · cases cs with
        | nil =>
          intro d hd
          obtain rfl := Option.some.inj hd
          decide
        | cons d ds => exact h

/-! ## The copy in lower case -/

theorem lowerCase_cons_of_ne {c : Char} (hc : c ≠ 'İ') (cs : List Char) :
    lowerCase (c :: cs) = c.toLower :: lowerCase cs := by
  rw [lowerCase, List.flatMap_cons, if_neg hc]
  rfl

theorem lowerCase_cons_dotted (cs : List Char) :
    lowerCase ('İ' :: cs) = 'i' :: '\u0307' :: lowerCase cs := by
  rw [lowerCase, List.flatMap_cons, if_pos rfl]
  rfl

/-- A word whose last letter is no `i` starts the copy if it starts the text, letter by letter. -/
theorem begins_lowerCase_iff {word : List Char} (hdot : '\u0307' ∉ word) (hdotted : 'İ' ∉ word)
    (hlast : word.getLast? ≠ some 'i') (text : List Char) :
    word <+: lowerCase text ↔ word <+: text.map Char.toLower := by
  induction word generalizing text with
  | nil => exact iff_of_true List.nil_prefix List.nil_prefix
  | cons w ws ih =>
    cases text with
    | nil => rfl
    | cons c cs =>
      by_cases hc : c = 'İ'
      · subst hc
        rw [lowerCase_cons_dotted, List.map_cons, List.cons_prefix_cons, List.cons_prefix_cons]
        refine iff_of_false ?_ ?_
        · rintro ⟨rfl, hbegins⟩
          cases ws with
          | nil => exact hlast rfl
          | cons v vs =>
            obtain ⟨rfl, -⟩ := List.cons_prefix_cons.mp hbegins
            exact hdot (.tail _ (.head _))
        · rintro ⟨rfl, -⟩
          exact hdotted (.head _)
      · rw [lowerCase_cons_of_ne hc, List.map_cons, List.cons_prefix_cons, List.cons_prefix_cons]
        refine and_congr_right fun _ => ?_
        cases ws with
        | nil => exact iff_of_true List.nil_prefix List.nil_prefix
        | cons v vs =>
          exact ih (fun h => hdot (.tail _ h)) (fun h => hdotted (.tail _ h)) hlast cs

theorem isPrefixOf_lowerCase (text : List Char) :
    commandPrefix.isPrefixOf (lowerCase text) = isCommand text := by
  rw [Bool.eq_iff_iff, isCommand, List.isPrefixOf_iff_prefix, List.isPrefixOf_iff_prefix]
  exact begins_lowerCase_iff (by decide) (by decide) (by decide) text

/-- What holds of the ASCII characters and of those that have no other lower case. -/
theorem toLower_cases {p : Char → Char → Prop}
    (hascii : ∀ n < 128, p (Char.ofNat n) (Char.ofNat n).toLower)
    (hself : ∀ c : Char, 128 ≤ c.toNat → p c c) (c : Char) : p c c.toLower := by
  by_cases hc : c.toNat < 128
  · have hsmall := hascii c.toNat hc
    rwa [Char.ofNat_toNat] at hsmall
  · have hlower : c.toLower = c := by
      refine dif_neg fun h => hc ?_
      have hle : c.toNat ≤ 90 := UInt32.le_iff_toNat_le.mp h.2
      omega
    rw [hlower]
    exact hself c (Nat.not_lt.mp hc)

theorem utf16Units_toLower (c : Char) : utf16Units c.toLower = utf16Units c :=
  @toLower_cases (fun c lower => utf16Units lower = utf16Units c) (by decide) (fun _ _ => rfl) c

theorem eq_slash_of_toLower (c : Char) : c.toLower = '/' → c = '/' :=
  @toLower_cases (fun c lower => lower = '/' → c = '/') (by decide) (fun _ _ => id) c

/-- The cut is made where the command stands in the copy. -/
theorem cutCommand_eq (k : Nat) (line : List Char) :
    cutCommand k line = (indexIn commandPrefix (lowerCase line)).map fun idx =>
      sliceFrom (units ((lowerCase line).take idx) + k) line := by
  induction line generalizing k with
  | nil => rfl
  | cons c cs ih =>
    rw [cutCommand]
    by_cases hcommand : isCommand (c :: cs) = true
    · rw [if_pos hcommand]
      rw [← isPrefixOf_lowerCase] at hcommand
      have hindex : indexIn commandPrefix (lowerCase (c :: cs)) = some 0 := by
        cases hlower : lowerCase (c :: cs) with
        | nil => rw [hlower] at hcommand; cases hcommand
        | cons d ds => rw [indexIn, if_pos (hlower ▸ hcommand)]
      rw [hindex, Option.map_some, List.take_zero]
      exact congrArg (some <| sliceFrom · _) (Nat.zero_add k).symm
    · rw [if_neg hcommand, ih]
      rw [← isPrefixOf_lowerCase] at hcommand
      by_cases hc : c = 'İ'
      · subst hc
        have hdot : ¬commandPrefix.isPrefixOf ('\u0307' :: lowerCase cs) = true := by
          have hhead : commandPrefix = '/' :: "a2a assign".toList := by decide
          rw [List.isPrefixOf_iff_prefix, hhead, List.cons_prefix_cons]
          exact fun h => absurd h.1 (by decide)
        rw [lowerCase_cons_dotted] at hcommand ⊢
        rw [if_pos rfl, indexIn, if_neg hcommand, indexIn, if_neg hdot, Option.map_map,
          Option.map_map]
        refine congrArg (Option.map · _) (funext fun idx => ?_)
        have hunits : units (('i' :: '\u0307' :: lowerCase cs).take (idx + 1 + 1)) + k =
            utf16Units 'İ' + (units ((lowerCase cs).take idx) + (k + 1)) := by
          rw [List.take_succ_cons, List.take_succ_cons, units_cons, units_cons]
          have hi : utf16Units 'i' = 1 := by decide
          have hdot : utf16Units '\u0307' = 1 := by decide
          have hdotted : utf16Units 'İ' = 1 := by decide
          omega
        exact (congrArg (sliceFrom · _) hunits).trans (sliceFrom_cons_add _ _ _) |>.symm
      · rw [lowerCase_cons_of_ne hc] at hcommand ⊢
        rw [if_neg hc, indexIn, if_neg hcommand, Option.map_map]
        refine congrArg (Option.map · _) (funext fun idx => ?_)
        have hunits : units ((c.toLower :: lowerCase cs).take (idx + 1)) + k =
            utf16Units c + (units ((lowerCase cs).take idx) + k) := by
          rw [List.take_succ_cons, units_cons, utf16Units_toLower]
          omega
        exact (congrArg (sliceFrom · _) hunits).trans (sliceFrom_cons_add _ _ _) |>.symm

theorem parseLine_eq (line : List Char) :
    parseLine line = (cutCommand 0 (trimChars line)).bind parseCommandLine := by
  rw [parseLine, cutCommand_eq, Option.bind_map]
  rfl

/-! ## The parts of a command -/

theorem indexIn_split {needle text : List Char} {idx : Nat} (h : indexIn needle text = some idx) :
    ∃ after, text = text.take idx ++ (needle ++ after) := by
  induction text generalizing idx with
  | nil =>
    rw [indexIn] at h
    split at h
    · rename_i hempty
      exact ⟨[], by rw [List.isEmpty_iff.mp hempty]; simp⟩
    · cases h
  | cons c cs ih =>
    rw [indexIn] at h
    split at h
    · rename_i hbegins
      cases h
      obtain ⟨after, hafter⟩ := List.isPrefixOf_iff_prefix.mp hbegins
      exact ⟨after, by rw [List.take_zero, List.nil_append, hafter]⟩
    · obtain ⟨n, hn, rfl⟩ := Option.map_eq_some_iff.mp h
      obtain ⟨after, hafter⟩ := ih hn
      exact ⟨after, by rw [List.take_succ_cons, List.cons_append, ← hafter]⟩

theorem dropWhile_isSpace_head {text : List Char} {c : Char} {cs : List Char}
    (h : text.dropWhile isSpace = c :: cs) : isSpace c = false := by
  have hhead := List.head_dropWhile_not isSpace (l := text) (by rw [h]; exact List.cons_ne_nil c cs)
  simpa only [h, List.head_cons] using hhead

theorem targetOf_dropWhile (rest : List Char) :
    targetOf (rest.dropWhile isSpace) = targetOf rest := by
  rw [targetOf, targetOf, List.dropWhile_idempotent]

theorem targetOf_space {c : Char} (hc : isSpace c = true) (rest : List Char) :
    targetOf (c :: rest) = targetOf rest := by
  rw [targetOf, targetOf, List.dropWhile_cons_of_pos hc]

/-- White space after a text adds nothing to its first token. -/
theorem targetOf_append_spaces {text spaces : List Char} (h : ∀ c ∈ spaces, isSpace c = true) :
    targetOf (text ++ spaces) = targetOf text := by
  have htoken : ((text ++ spaces).dropWhile isSpace).takeWhile (!isSpace ·) =
      (text.dropWhile isSpace).takeWhile (!isSpace ·) := by
    rw [List.dropWhile_append]
    split
    · rename_i hblank
      rw [List.isEmpty_iff.mp hblank, List.dropWhile_eq_nil_iff.mpr h]
    · cases spaces with
      | nil => rw [List.append_nil]
      | cons c cs => exact takeWhile_append_cons (by simp [h c (.head _)]) _ _
  rw [targetOf, targetOf, htoken]

theorem targetOf_trimChars (text : List Char) : targetOf (trimChars text) = targetOf text := by
  have hspaces : ∀ c ∈ (text.dropWhile isSpace).rtakeWhile isSpace, isSpace c = true :=
    fun c hc => List.mem_rtakeWhile_imp hc
  have hsplit := List.rdropWhile_append_rtakeWhile (p := isSpace) (l := text.dropWhile isSpace)
  have happend : targetOf ((text.dropWhile isSpace).rdropWhile isSpace ++
      (text.dropWhile isSpace).rtakeWhile isSpace) = _ := targetOf_append_spaces hspaces
  rw [hsplit, targetOf_dropWhile] at happend
  exact happend.symm

/-- The first token stands before the first ` -- `. -/
theorem targetOf_take {text after : List Char} {idx : Nat} (hhead : text.dropWhile isSpace = text)
    (h : text = text.take idx ++ (" -- ".toList ++ after)) :
    targetOf (text.take idx) = targetOf text := by
  have hsep : " -- ".toList ++ after = ' ' :: ("-- ".toList ++ after) := rfl
  have hdrop : (text.take idx).dropWhile isSpace = text.take idx := by
    cases hbefore : text.take idx with
    | nil => rfl
    | cons c cs =>
      rw [hbefore] at h
      exact List.dropWhile_cons_of_neg (by simp [dropWhile_isSpace_head (hhead.trans h)])
  have htoken : text.takeWhile (!isSpace ·) = (text.take idx).takeWhile (!isSpace ·) := by
    conv_lhs => rw [h, hsep]
    exact takeWhile_append_cons (by decide) _ _
  rw [targetOf, targetOf, hdrop, hhead, htoken]

theorem wordsOf_head? (text : List Char) :
    (wordsOf text).head? = (((text.dropWhile isSpace).takeWhile (!isSpace ·)).head?).map fun _ =>
      (text.dropWhile isSpace).takeWhile (!isSpace ·) := by
  induction text with
  | nil => rfl
  | cons c cs ih =>
    rw [wordsOf, splitAtEach]
    cases hc : isSpace c with
    | true =>
      rw [if_pos rfl, List.dropWhile_cons_of_pos hc, List.filter_cons_of_neg (by simp)]
      exact ih
    | false =>
      rw [if_neg Bool.false_ne_true, List.dropWhile_cons_of_neg (by simp [hc]),
        List.takeWhile_cons_of_pos (by simp [hc]), List.head?_cons, Option.map_some]
      obtain ⟨parts, hparts⟩ := splitAtEach_first isSpace cs
      rw [hparts, List.filter_cons_of_pos (by simp), List.head?_cons]

/-- A command is read if its head has a target. -/
theorem readCommand_eq_none {raw head : List Char} {message : Option String} :
    readCommand raw head message = none ↔ targetOf head = none := by
  have hwords := wordsOf_head? head
  rw [readCommand, targetOf]
  dsimp only
  cases htoken : (head.dropWhile isSpace).takeWhile (!isSpace ·) with
  | nil =>
    rw [htoken] at hwords
    rw [List.head?_eq_none_iff.mp hwords]
    exact iff_of_true rfl rfl
  | cons c cs =>
    rw [htoken] at hwords
    obtain ⟨tokens, htokens⟩ := List.head?_eq_some_iff.mp hwords
    rw [htokens]
    cases hflag : isFlag (c :: cs) <;> simp [hflag]

theorem readCommand_eq_some {raw head : List Char} {message : Option String}
    {intent : AssignmentIntent} (h : readCommand raw head message = some intent) :
    intent.raw = String.ofList raw ∧ targetOf head = some intent.target.toList ∧
      intent.message = message := by
  have hwords := wordsOf_head? head
  rw [readCommand] at h
  split at h
  · cases h
  · rename_i target tokens htokens
    split at h
    · cases h
    · rename_i hflag
      cases h
      refine ⟨rfl, ?_, rfl⟩
      rw [htokens, List.head?_cons] at hwords
      cases htoken : (head.dropWhile isSpace).takeWhile (!isSpace ·) with
      | nil => rw [htoken] at hwords; cases hwords
      | cons c cs =>
        rw [htoken] at hwords
        obtain rfl := Option.some.inj hwords
        rw [targetOf, htoken, String.toList_ofList]
        simp [hflag]

/-- The first ` -- ` of a text with a target does not stand before the target. -/
theorem indexIn_dropWhile {rest : List Char} (htarget : targetOf rest ≠ none) :
    indexIn " -- ".toList rest = (indexIn " -- ".toList (rest.dropWhile isSpace)).map
      (· + (rest.takeWhile isSpace).length) := by
  induction rest with
  | nil => rfl
  | cons c cs ih =>
    cases hc : isSpace c with
    | false =>
      rw [List.dropWhile_cons_of_neg (by simp [hc]), List.takeWhile_cons_of_neg (by simp [hc]),
        List.length_nil]
      exact Option.map_id'.symm
    | true =>
      rw [targetOf_space hc] at htarget
      have hsep : ¬" -- ".toList.isPrefixOf (c :: cs) = true := by
        rw [List.isPrefixOf_iff_prefix]
        rintro ⟨after, hafter⟩
        -- then the first token is a flag
        have hchars : " -- ".toList ++ after = ' ' :: '-' :: '-' :: ' ' :: after := rfl
        obtain ⟨-, rfl⟩ := List.cons_eq_cons.mp (hchars.symm.trans hafter)
        exact htarget rfl
      rw [indexIn, if_neg hsep, ih htarget, List.dropWhile_cons_of_pos hc,
        List.takeWhile_cons_of_pos hc, Option.map_map]
      rfl

theorem trimChars_of_tight {rest : List Char} (h : Tight rest) :
    trimChars rest = rest.dropWhile isSpace := by
  have htight : Tight (rest.dropWhile isSpace) :=
    Tight.suffix (a := rest.takeWhile isSpace) (by rwa [List.takeWhile_append_dropWhile])
  have hkeep : (rest.dropWhile isSpace).rdropWhile isSpace = rest.dropWhile isSpace := by
    rw [List.rdropWhile_eq_self_iff]
    intro hne
    have hlast := htight _ (List.getLast?_eq_some_getLast hne)
    simp [hlast]
  exact hkeep

/-- What is read of the text after a command. -/
theorem parseCommandLine_spec {text : List Char} (h : Tight text) :
    (parseCommandLine text = none ↔
      targetOf (sliceFrom commandPrefix.length text) = none) ∧
    ∀ intent, parseCommandLine text = some intent → intent.raw = String.ofList text ∧
      targetOf (sliceFrom commandPrefix.length text) = some intent.target.toList ∧
      messageOf (sliceFrom commandPrefix.length text) = intent.message := by
  have hrest : Tight (sliceFrom commandPrefix.length text) := h.sliceFrom _
  rw [parseCommandLine]
  dsimp only
  generalize sliceFrom commandPrefix.length text = rest at hrest ⊢
  have hremainder := trimChars_of_tight hrest
  rw [hremainder]
  cases hindex : indexIn " -- ".toList (rest.dropWhile isSpace) with
  | none =>
    dsimp only
    rw [readCommand_eq_none, targetOf_dropWhile]
    refine ⟨Iff.rfl, fun intent hintent => ?_⟩
    obtain ⟨hraw, htarget, hmessage⟩ := readCommand_eq_some hintent
    rw [targetOf_dropWhile] at htarget
    refine ⟨hraw, htarget, ?_⟩
    rw [hmessage, messageOf, indexIn_dropWhile (by simp [htarget]), hindex]
    rfl
  | some idx =>
    dsimp only
    obtain ⟨after, hafter⟩ := indexIn_split hindex
    have hhead : targetOf (trimChars ((rest.dropWhile isSpace).take idx)) = targetOf rest := by
      rw [targetOf_trimChars, targetOf_take (List.dropWhile_idempotent ..) hafter,
        targetOf_dropWhile]
    rw [readCommand_eq_none, hhead]
    refine ⟨Iff.rfl, fun intent hintent => ?_⟩
    obtain ⟨hraw, htarget, hmessage⟩ := readCommand_eq_some hintent
    rw [hhead] at htarget
    refine ⟨hraw, htarget, ?_⟩
    have hdrop (a b : List Char) : (a ++ b).drop (idx + a.length + 4) = b.drop (idx + 4) := by
      rw [Nat.add_comm idx, Nat.add_assoc, List.drop_append, List.drop_eq_nil_of_le (by omega),
        List.nil_append, Nat.add_sub_cancel_left]
    have hdrop := hdrop (rest.takeWhile isSpace) (rest.dropWhile isSpace)
    rw [List.takeWhile_append_dropWhile] at hdrop
    rw [hmessage, messageOf, indexIn_dropWhile (by simp [htarget]), hindex, Option.map_some,
      Option.bind_some, hdrop]

/-! ## The cut -/

theorem isCommand_nil : isCommand [] = false := by decide

/-- Where nothing is cut off, no command stands. -/
theorem cutCommand_eq_none {k : Nat} {line : List Char} (h : cutCommand k line = none) :
    ∀ text, text <:+ line → isCommand text = false := by
  induction line generalizing k with
  | nil =>
    intro text htext
    rw [List.suffix_nil.mp htext]
    exact isCommand_nil
  | cons c cs ih =>
    rw [cutCommand] at h
    split at h
    · cases h
    · rename_i hcommand
      intro text htext
      rcases List.suffix_cons_iff.mp htext with rfl | htext
      · exact Bool.eq_false_iff.mpr hcommand
      · exact ih h text htext

/-- A cut has fewer units than the line, unless a command starts the line. -/
theorem cutCommand_units {k : Nat} {line text : List Char} (h : cutCommand k line = some text) :
    units text ≤ units line ∧ (units text = units line → text = line ∧ isCommand line = true) := by
  induction line generalizing k with
  | nil => cases h
  | cons c cs ih =>
    have hpos := utf16Units_pos c
    rw [cutCommand] at h
    split at h
    · rename_i hcommand
      obtain rfl := Option.some.inj h
      rw [units_sliceFrom, units_cons]
      refine ⟨Nat.sub_le _ _, fun heq => ⟨?_, hcommand⟩⟩
      have hk : k = 0 := by omega
      rw [hk, sliceFrom_zero]
    · obtain ⟨hle, -⟩ := ih h
      rw [units_cons]
      exact ⟨by omega, fun heq => by omega⟩

theorem cutCommand_tight {k : Nat} {line text : List Char} (h : cutCommand k line = some text)
    (hline : Tight line) : Tight text := by
  induction line generalizing k with
  | nil => cases h
  | cons c cs ih =>
    rw [cutCommand] at h
    split at h
    · obtain rfl := Option.some.inj h
      exact hline.sliceFrom k
    · exact ih h (Tight.suffix (a := [c]) hline)

theorem mem_cutCommand {k : Nat} {line text : List Char} (h : cutCommand k line = some text)
    {c : Char} (hc : c ∈ text) : c ∈ line ∨ c = '\uFFFD' := by
  induction line generalizing k with
  | nil => cases h
  | cons d ds ih =>
    rw [cutCommand] at h
    split at h
    · obtain rfl := Option.some.inj h
      exact mem_sliceFrom hc
    · exact (ih h).imp (.tail d) id

theorem tight_trimChars (line : List Char) : Tight (trimChars line) := by
  intro c hc
  by_contra hspace
  have hne : (line.dropWhile isSpace).rdropWhile isSpace ≠ [] := by
    intro hnil
    have htrim : trimChars line = [] := hnil
    rw [htrim] at hc
    cases hc
  have hlast := List.rdropWhile_last_not isSpace _ hne
  have heq : trimChars line = (line.dropWhile isSpace).rdropWhile isSpace := rfl
  rw [heq, List.getLast?_eq_some_getLast hne] at hc
  obtain rfl := Option.some.inj hc
  exact hlast (by simpa using hspace)

theorem trimChars_sublist (line : List Char) : (trimChars line).Sublist line :=
  (List.rdropWhile_prefix isSpace _).sublist.trans (List.dropWhile_suffix isSpace).sublist

theorem units_le_of_sublist {a b : List Char} (h : a.Sublist b) : units a ≤ units b := by
  induction h with
  | slnil => exact Nat.le_refl _
  | cons c _ ih => rw [units_cons]; omega
  | cons_cons c _ ih => rw [units_cons, units_cons]; omega

/-- What was cut off is read again as it was exactly if a command stands at the cut. -/
theorem parseLine_cut {text : List Char} (htight : Tight text) {intent : AssignmentIntent}
    (hread : parseCommandLine text = some intent) :
    parseLine text = some intent ↔ isCommand text = true := by
  rw [parseLine_eq]
  constructor
  · intro h
    obtain ⟨other, hcut, hother⟩ := Option.bind_eq_some_iff.mp h
    have hraw := ((parseCommandLine_spec htight).2 intent hread).1
    have hsame : other = text := by
      have hotherTight := cutCommand_tight hcut (tight_trimChars text)
      have hraw' := ((parseCommandLine_spec hotherTight).2 intent hother).1
      have hlists := congrArg String.toList (hraw'.symm.trans hraw)
      rwa [String.toList_ofList, String.toList_ofList] at hlists
    obtain ⟨hle, hwhole⟩ := cutCommand_units hcut
    have htrim := units_le_of_sublist (trimChars_sublist text)
    rw [hsame] at hle hwhole
    obtain ⟨heq, hcommand⟩ := hwhole (Nat.le_antisymm hle htrim)
    rw [heq]
    exact hcommand
  · intro hcommand
    cases text with
    | nil => rw [isCommand_nil] at hcommand; cases hcommand
    | cons c cs =>
      have hc : isSpace c = false := by
        have hhead : commandPrefix = '/' :: "a2a assign".toList := by decide
        rw [isCommand, List.isPrefixOf_iff_prefix, hhead, List.map_cons,
          List.cons_prefix_cons] at hcommand
        rw [eq_slash_of_toLower c hcommand.1.symm]
        decide
      have htrim : trimChars (c :: cs) = c :: cs := by
        rw [trimChars_of_tight htight, List.dropWhile_cons_of_neg (by simp [hc])]
      rw [htrim, cutCommand, if_pos hcommand, sliceFrom_zero, Option.bind_some]
      exact hread

/-! ## Lines that are read as the grammar says -/

theorem readsLine_iff {line : List Char} (hline : ∀ c ∈ line, (c == '\n') = false) :
    ReadsLine (trimChars line) (parseLine line) ↔ LineReads (trimChars line) := by
  rw [parseLine_eq]
  have htight := tight_trimChars line
  have hbreak : ∀ c ∈ trimChars line, (c == '\n') = false := fun c hc =>
    hline c ((trimChars_sublist line).subset hc)
  generalize trimChars line = line at htight hbreak ⊢
  rw [LineReads]
  cases hcut : cutCommand 0 line with
  | none =>
    refine iff_of_true ⟨?_, nofun, nofun⟩ nofun
    refine iff_of_false Bool.false_ne_true ?_
    rintro ⟨text, htext, hassignment⟩
    exact absurd hassignment.command (by simp [cutCommand_eq_none hcut text htext])
  | some text =>
    rw [Option.bind_some]
    obtain ⟨hnone, hsome⟩ := parseCommandLine_spec (cutCommand_tight hcut htight)
    simp only [Option.some.injEq, forall_eq']
    cases hread : parseCommandLine text with
    | none =>
      rw [hnone.mp hread]
      constructor
      · intro h other hother hassignment
        exact absurd (h.found.mpr ⟨other, hother, hassignment⟩) Bool.false_ne_true
      · refine fun h => ⟨iff_of_false Bool.false_ne_true ?_, nofun, nofun⟩
        rintro ⟨other, hother, hassignment⟩
        exact h other hother hassignment
    | some intent =>
      obtain ⟨hraw, htarget, hmessage⟩ := hsome intent hread
      rw [htarget, hmessage]
      have hagain : parseAssignmentIntents (some intent.raw) = [intent] ↔
          isCommand text = true := by
        have htext : ∀ c ∈ text, (c == '\n') = false := by
          intro c hc
          rcases mem_cutCommand hcut hc with hc | rfl
          · exact hbreak c hc
          · decide
        rw [hraw, parseAssignmentIntents_line htext,
          ← parseLine_cut (cutCommand_tight hcut htight) hread]
        cases parseLine text <;> simp
      constructor
      · exact fun h => ⟨hagain.mp (h.again intent rfl), h.parts intent rfl⟩
      · rintro ⟨hcommand, other, hother, hassignment, hparts⟩
        refine ⟨iff_of_true rfl ⟨other, hother, hassignment⟩, ?_, ?_⟩
        · rintro _ ⟨⟩
          exact ⟨other, hother, hassignment, hparts⟩
        · rintro _ ⟨⟩
          exact hagain.mpr hcommand

theorem CommandGrammar.lineReads {text : String} (h : CommandGrammar text) {line : List Char}
    (hmem : line ∈ linesOfText text) : LineReads (trimChars line) := by
  have hline : ∀ c ∈ line, (c == '\n') = false := not_mem_of_mem_splitAtEach hmem
  obtain ⟨result, hparse, hreads⟩ := h.each line hmem
  rw [parseAssignmentIntents_line hline] at hparse
  have hresult : parseLine line = result := by
    cases hread : parseLine line <;> cases result <;> simp_all
  rw [← readsLine_iff hline, hresult]
  exact hreads

/-- A text is read as the grammar says exactly when each of its lines is. -/
theorem command_grammar_iff (text : String) :
    CommandGrammar text ↔ ∀ line ∈ linesOfText text, LineReads (trimChars line) := by
  refine ⟨fun h line => h.lineReads, fun h => ⟨fun before after => ?_, ?_, fun line hmem => ?_⟩⟩
  · rw [parseAssignmentIntents_append, parseAssignmentIntents_append]
  · rw [parseAssignmentIntents_some, List.filterMap_eq_flatMap_toList]
    refine List.flatMap_congr fun line hmem => ?_
    rw [parseAssignmentIntents_line (not_mem_of_mem_splitAtEach hmem)]
  · have hline : ∀ c ∈ line, (c == '\n') = false := not_mem_of_mem_splitAtEach hmem
    exact ⟨parseLine line, parseAssignmentIntents_line hline,
      (readsLine_iff hline).mpr (h line hmem)⟩

section Examples

/-- The word `assigned` is read as the command with the target `ed`, and a command after an `İ`
loses its first letter. -/
theorem grammar_broken :
    ¬CommandGrammar "/a2a assigned x" ∧ ¬CommandGrammar "İ /a2a assign w1" := by
  refine ⟨fun h => ?_, fun h => ?_⟩
  · have hreads := @CommandGrammar.lineReads _ h "/a2a assigned x".toList (by decide)
      "/a2a assigned x".toList (by decide)
    have htarget : targetOf (sliceFrom commandPrefix.length "/a2a assigned x".toList) =
        some "ed".toList := by decide
    rw [htarget] at hreads
    obtain ⟨-, other, hother, hassignment, -⟩ := hreads
    have hnone : ∀ text ∈ (trimChars "/a2a assigned x".toList).tails,
        isCommand text = true → (text.drop commandPrefix.length).head?.any isSpace = false := by
      decide
    have hspaced := hnone other ((List.mem_tails _ _).mpr hother) hassignment.command
    rw [hassignment.spaced] at hspaced
    cases hspaced
  · have hreads := @CommandGrammar.lineReads _ h "İ /a2a assign w1".toList (by decide)
      "a2a assign w1".toList (by decide)
    have htarget : targetOf (sliceFrom commandPrefix.length "a2a assign w1".toList) =
        some "w1".toList := by decide
    rw [htarget] at hreads
    exact absurd hreads.1 (by decide)

end Examples

end A2ABroker
