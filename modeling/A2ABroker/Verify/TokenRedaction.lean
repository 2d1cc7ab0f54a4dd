import A2ABroker.Verify.Digest
import A2ABroker.Verify.TokenScan

/-! # Tokens in status comments

Which tokens of a code host reach the body of a status comment. A redacted text has none
(`found_redactString`), and JSON makes none of it; a property's name, an error's code and a pull
request's URL are printed as they are. -/

namespace A2ABroker

open Words GitHubProjection

/-! ## Redacted texts -/

theorem found_letters {p : Bool} (text : List Char) (h : ∀ c ∈ text, c ≠ 'g') :
    found isWordChar startsToken p text = false :=
  found_of_forall (fun c hc cs => startsToken_cons_of_ne (h c hc) cs) p

theorem found_replacement (p : Bool) (text : List Char) :
    found isWordChar startsToken p ("[REDACTED]".toList ++ text) =
      found isWordChar startsToken false text := by
  have hletters : ∀ c ∈ "[REDACTED".toList, c ≠ 'g' := by decide
  have happend := sees_startsToken.found_append_cons (c := ']') rfl p "[REDACTED".toList text
  rw [found_letters _ hletters, Bool.false_or] at happend
  exact happend

theorem matchTokenValue_replacement {prev : Option Char} {text r : List Char} {n : Nat}
    (hmatch : matchTokenValue prev text = some (r, n)) : r = "[REDACTED]".toList := by
  rw [matchTokenValue] at hmatch
  split at hmatch
  · cases hmatch
  · obtain ⟨word, hword, hsome⟩ := List.exists_of_findSome?_eq_some hmatch
    obtain ⟨rest, -, hrun⟩ := Option.bind_eq_some_iff.mp hsome
    simp only [] at hrun
    split at hrun
    · cases hrun
    · cases hrun
      rfl

/-- No token is left by the replacement of tokens. -/
theorem found_replace_tokenValues (prev : Option Char) (text : List Char) :
    found isWordChar startsToken (prev.any isWordChar)
      (replaceMatches matchTokenValue prev 0 text) = false := by
  induction hlength : text.length using Nat.strong_induction_on generalizing prev text with
  | _ length ih =>
  cases text with
  | nil => rfl
  | cons c cs =>
    rw [List.length_cons] at hlength
    cases hmatch : matchTokenValue prev (c :: cs) with
    | none =>
      have hword : startsToken (c :: replaceMatches matchTokenValue (some c) 0 cs) =
          startsToken (c :: cs) := by
        refine sees_startsToken.congr ?_
        rw [List.takeWhile_cons, List.takeWhile_cons]
        split
        case isTrue hc =>
          rw [bordered_matchTokenValue.keepsWords.takeWhile_replaceMatches (some c) hc]
        case isFalse => rfl
      have hstart := matchTokenValue_isSome prev (c :: cs)
      rw [hmatch, Option.isSome_none] at hstart
      have hrest := ih cs.length (by omega) (some c) cs rfl
      rw [Option.any_some] at hrest
      rw [replaceMatches_of_none hmatch, found, hword, ← hstart, Bool.false_or, hrest]
    | some result =>
      obtain ⟨r, n⟩ := result
      obtain ⟨-, d, read, rest, htext, -, rfl, hbreak⟩ := bordered_matchTokenValue hmatch
      obtain ⟨rfl, rfl⟩ := List.cons_eq_cons.mp htext
      rw [replaceMatches_of_some hmatch, matchTokenValue_replacement hmatch, found_replacement,
        sees_startsToken.found_of_head (bordered_matchTokenValue.atBreak_replaceMatches hbreak) _
          ((lastRead (some c) read).any isWordChar)]
      exact ih rest.length (by rw [← hlength, List.length_append]; omega) _ rest rfl

theorem found_redactString (s : String) :
    found isWordChar startsToken false (redactString s).toList = false := by
  rw [redactString, String.toList_ofList]
  exact found_replace_tokenValues none s.toList

/-! ## JSON texts -/

/-- An escape takes the place of no word character and is no beginning of a token. -/
theorem jsonChar_cases (c : Char) : jsonChar c = [c] ∨
    isWordChar c = false ∧ ∃ letters, jsonChar c = '\\' :: letters ∧ ∀ d ∈ letters, d ≠ 'g' := by
  have hescapes : ∀ n < 32, isWordChar (Char.ofNat n) = false ∧
      jsonChar (Char.ofNat n) = '\\' :: (jsonChar (Char.ofNat n)).tail ∧
      ∀ d ∈ (jsonChar (Char.ofNat n)).tail, d ≠ 'g' := by decide
  by_cases hctl : c.toNat < 32
  · have hescape := hescapes c.toNat hctl
    rw [Char.ofNat_toNat] at hescape
    exact .inr ⟨hescape.1, _, hescape.2⟩
  · by_cases hquote : c = '"'
    · subst hquote
      exact .inr ⟨rfl, ['"'], rfl, by decide⟩
    · by_cases hslash : c = '\\'
      · subst hslash
        exact .inr ⟨rfl, ['\\'], rfl, by decide⟩
      · exact .inl (jsonChar_of_printable hctl hquote hslash)

theorem takeWhile_flatMap_jsonChar (text : List Char) :
    (text.flatMap jsonChar).takeWhile isWordChar = text.takeWhile isWordChar := by
  induction text with
  | nil => rfl
  | cons c cs ih =>
    rw [List.flatMap_cons]
    obtain hplain | ⟨hc, letters, hescape, -⟩ := jsonChar_cases c
    · rw [hplain, List.singleton_append, List.takeWhile_cons, List.takeWhile_cons, ih]
    · rw [hescape, List.takeWhile_cons, hc]
      rfl

theorem found_after_letters {p : Bool} {letters rest : List Char}
    (hletters : ∀ c ∈ letters, c ≠ 'g')
    (h : found isWordChar startsToken p (letters ++ rest) = true) :
    found isWordChar startsToken false rest = true := by
  induction letters generalizing p with
  | nil => exact found_of_inWord h
  | cons c cs ih =>
    rw [List.cons_append, found, startsToken_cons_of_ne (hletters c (.head _)), Bool.and_false,
      Bool.false_or] at h
    exact ih (fun d hd => hletters d (.tail _ hd)) h

theorem found_flatMap_jsonChar {p : Bool} {text : List Char}
    (h : found isWordChar startsToken p (text.flatMap jsonChar) = true) :
    found isWordChar startsToken p text = true := by
  induction text generalizing p with
  | nil => cases h
  | cons c cs ih =>
    rw [List.flatMap_cons] at h
    obtain hplain | ⟨hc, letters, hescape, hletters⟩ := jsonChar_cases c
    · have hword : startsToken (c :: cs.flatMap jsonChar) = startsToken (c :: cs) := by
        refine sees_startsToken.congr ?_
        rw [List.takeWhile_cons, List.takeWhile_cons, takeWhile_flatMap_jsonChar]
      rw [hplain, List.singleton_append, found, hword, Bool.or_eq_true] at h
      rw [found, Bool.or_eq_true]
      exact h.imp_right ih
    · rw [hescape, List.cons_append, sees_startsToken.found_cons_of_not rfl] at h
      rw [sees_startsToken.found_cons_of_not hc]
      exact ih (found_after_letters hletters h)

theorem found_jsonQuote {s : String} (h : found isWordChar startsToken false s.toList = false) :
    found isWordChar startsToken false (jsonQuote s).toList = false := by
  rw [jsonQuote_toList, sees_startsToken.found_cons_of_not rfl,
    sees_startsToken.found_append_separators (by decide)]
  rw [Bool.eq_false_iff] at h ⊢
  exact fun hfound => h (found_flatMap_jsonChar hfound)

/-! ## Printed values -/

/-- The host prints a number with digits, a point, an exponent and signs. -/
def Host.PrintsNumbers (host : Host) : Prop :=
  ∀ n, ∀ c ∈ (host.numberText n).toList, c.isDigit = true ∨ c ∈ ['.', 'e', '+', '-']

mutual

/-- The name of a property that is printed carries a token, as JSON prints it. -/
def namesToken : Json → Bool
  | .arr items => itemsNameToken items
  | .obj fields => fieldsNameToken fields
  | _ => false

def itemsNameToken : List Json → Bool
  | [] => false
  | item :: items => namesToken item || itemsNameToken items

/-- What is below a sensitive name is not printed. -/
def fieldsNameToken : List (String × Json) → Bool
  | [] => false
  | (key, raw) :: fields =>
    (key != "__proto__" &&
      (carriesToken (jsonQuote key) || (!isSensitiveKey key && namesToken raw))) ||
      fieldsNameToken fields

end

/-- The name of a property of the output that is printed carries a token. The names of the output
itself are printed as they are. -/
def outputNamesToken (output : JsonObject) : Bool :=
  output.any fun (key, raw) =>
    key != "__proto__" && (carriesToken key || (!isSensitiveKey key && namesToken raw))

variable {host : Host}

theorem found_numberText (hnumbers : host.PrintsNumbers) (n : Rat) :
    found isWordChar startsToken false (host.numberText n).toList = false := by
  refine found_letters _ fun c hc => ?_
  rintro rfl
  obtain hdigit | hmem := hnumbers n 'g' hc
  · cases hdigit
  · revert hmem
    decide

mutual

theorem found_jsonStringify (hnumbers : host.PrintsNumbers) (value : Json) :
    found isWordChar startsToken false (jsonStringify host (redactSensitive value)).toList =
      namesToken value := by
  match value with
  | .null => exact found_letters "null".toList (by decide)
  | .bool true => exact found_letters "true".toList (by decide)
  | .bool false => exact found_letters "false".toList (by decide)
  | .num n => exact found_numberText hnumbers n
  | .str s => exact found_jsonQuote (found_redactString s)
  | .arr items =>
    rw [redactSensitive, jsonStringify, namesToken, String.toList_append, String.toList_append,
      String.toList_intercalate, List.append_assoc]
    refine (sees_startsToken.found_cons_of_not (c := '[') rfl false _).trans ?_
    refine (sees_startsToken.found_append_separators (b := [']']) (by decide) false _).trans ?_
    exact (sees_startsToken.found_intercalate rfl _).trans (found_jsonItems hnumbers items)
  | .obj fields =>
    rw [redactSensitive, jsonStringify, namesToken, String.toList_append, String.toList_append,
      String.toList_intercalate, List.append_assoc]
    refine (sees_startsToken.found_cons_of_not (c := '\x7b') rfl false _).trans ?_
    refine (sees_startsToken.found_append_separators (b := ['\x7d']) (by decide) false _).trans ?_
    exact (sees_startsToken.found_intercalate rfl _).trans (found_jsonFields hnumbers fields)

theorem found_jsonItems (hnumbers : host.PrintsNumbers) (items : List Json) :
    ((jsonItems host (redactItems items)).map String.toList).any
      (found isWordChar startsToken false) = itemsNameToken items := by
  match items with
  | [] => rfl
  | item :: items =>
    rw [redactItems, jsonItems, itemsNameToken, List.map_cons, List.any_cons,
      found_jsonStringify hnumbers item, found_jsonItems hnumbers items]

theorem found_jsonFields (hnumbers : host.PrintsNumbers) (fields : List (String × Json)) :
    ((jsonFields host (redactFields fields)).map String.toList).any
      (found isWordChar startsToken false) = fieldsNameToken fields := by
  match fields with
  | [] => rfl
  | (key, raw) :: fields =>
    rw [redactFields, fieldsNameToken]
    split
    case isTrue hproto =>
      rw [found_jsonFields hnumbers fields, hproto]
      rfl
    case isFalse hproto =>
      have hvalue : found isWordChar startsToken false (jsonStringify host
          (if isSensitiveKey key then .str "[REDACTED]" else redactSensitive raw)).toList =
          (!isSensitiveKey key && namesToken raw) := by
        cases isSensitiveKey key with
        | true => exact found_jsonQuote (found_replacement false [])
        | false => exact found_jsonStringify hnumbers raw
      rw [jsonFields, List.map_cons, List.any_cons, found_jsonFields hnumbers fields,
        carriesToken_eq,
        bne_iff_ne.mpr hproto, Bool.true_and, ← hvalue, String.toList_append, String.toList_append,
        List.append_assoc]
      have hcolon : ":".toList = [':'] := by decide
      rw [hcolon, List.singleton_append]
      refine congrArg (· || fieldsNameToken fields) ?_
      exact sees_startsToken.found_append_cons (c := ':') rfl false _ _

end

/-- A value of the output, printed as it is or as JSON. -/
theorem found_stringify (hnumbers : host.PrintsNumbers) (value : Json) :
    found isWordChar startsToken false (stringify host (redactSensitive value)).toList =
      namesToken value := by
  cases value with
  | str s => exact found_redactString s
  | null => exact found_jsonStringify hnumbers .null
  | bool b => exact found_jsonStringify hnumbers (.bool b)
  | num n => exact found_jsonStringify hnumbers (.num n)
  | arr items => exact found_jsonStringify hnumbers (.arr items)
  | obj fields => exact found_jsonStringify hnumbers (.obj fields)

theorem found_stringifyRedacted (s : String) :
    found isWordChar startsToken false (stringifyRedacted host (.str s)).toList = false :=
  found_redactString s

/-- The lines of an output, one for each property. -/
theorem found_formatRecord (hnumbers : host.PrintsNumbers) (output : JsonObject) :
    found isWordChar startsToken false (formatRecord host output).toList =
      outputNamesToken output := by
  rw [formatRecord, String.toList_intercalate]
  refine (sees_startsToken.found_intercalate (c := '\n') rfl _).trans ?_
  induction output with
  | nil => rfl
  | cons field output ih =>
    obtain ⟨key, raw⟩ := field
    rw [redactFields, outputNamesToken, List.any_cons]
    split
    case isTrue hproto =>
      rw [ih, hproto]
      rfl
    case isFalse hproto =>
      have hvalue : found isWordChar startsToken false (stringify host
          (if isSensitiveKey key then .str "[REDACTED]" else redactSensitive raw)).toList =
          (!isSensitiveKey key && namesToken raw) := by
        cases isSensitiveKey key with
        | true => exact found_letters "[REDACTED]".toList (by decide)
        | false => exact found_stringify hnumbers raw
      rw [List.map_cons, List.map_cons, List.any_cons, ih]
      refine congrArg (· || outputNamesToken output) ?_
      have hindent : "  ".toList = [' ', ' '] := by decide
      have hcolon : ": ".toList = [':', ' '] := by decide
      simp only [String.toList_append, List.append_assoc, hindent, hcolon, List.cons_append,
        List.nil_append]
      rw [carriesToken_eq, bne_iff_ne.mpr hproto, Bool.true_and, ← hvalue]
      refine (sees_startsToken.found_cons_of_not (c := ' ') rfl false _).trans ?_
      refine (sees_startsToken.found_cons_of_not (c := ' ') rfl false _).trans ?_
      refine (sees_startsToken.found_append_cons (c := ':') rfl false key.toList _).trans ?_
      exact congrArg (_ || ·) (sees_startsToken.found_cons_of_not (c := ' ') rfl false _)

/-! ## The body -/

/-- What a comment prints as it is carries a token. -/
def commentExposes (task : TaskRecord) : Bool :=
  match projectStatusMarker task with
  | none | some .start => false
  | some .done => outputNamesToken ((task.result.bind (·.output)).getD [])
  | some .pr => (GitHubProjection.extractPullRequestUrl task).any carriesToken
  | some .block => (task.error.bind (·.code)).any carriesToken

/-- A label, and a separator between it and the text. -/
theorem found_labelled (label : List Char) (hlabel : ∀ c ∈ label, c ≠ 'g') {c : Char}
    (hc : isWordChar c = false) (text : List Char) :
    found isWordChar startsToken false (label ++ c :: text) =
      found isWordChar startsToken false text := by
  rw [sees_startsToken.found_append_cons hc, found_letters _ hlabel, Bool.false_or]

theorem found_header (marker : GitHubStatusMarker) (id : String) :
    found isWordChar startsToken false ("[a2a:" ++ marker.text ++ "] task=" ++ id).toList =
      carriesToken id := by
  have hlabel : ∀ c ∈ ("[a2a:" ++ marker.text ++ "] task").toList, c ≠ 'g' := by
    cases marker <;> decide
  rw [carriesToken_eq]
  refine Eq.trans (congrArg (found _ _ _) ?_) (found_labelled _ hlabel (c := '=') rfl id.toList)
  simp only [String.toList_append, List.append_assoc]
  rfl

theorem found_summaryLines (task : TaskRecord) :
    ((summaryLines host task).map String.toList).any (found isWordChar startsToken false) =
      false := by
  rw [summaryLines]
  split
  · rw [List.map_singleton, List.any_cons, List.any_nil, Bool.or_false, String.toList_append]
    exact (found_labelled "summary:".toList (by decide) (c := ' ') rfl _).trans
      (found_stringifyRedacted _)
  · rfl

/-- A text that is printed after a label when there is one. -/
theorem found_optional_line (label : String) (hlabel : ∀ c ∈ label.toList, c ≠ 'g')
    (value : Option String) :
    ((if truthy value then [label ++ " " ++ value.getD ""] else []).map String.toList).any
      (found isWordChar startsToken false) = value.any carriesToken := by
  cases htruthy : truthy value with
  | true =>
    obtain ⟨text, rfl, -⟩ := truthy_eq_true.mp htruthy
    rw [if_pos rfl, List.map_singleton, List.any_cons, List.any_nil, Bool.or_false, Option.any_some,
      carriesToken_eq, String.toList_append, String.toList_append, List.append_assoc]
    exact found_labelled _ hlabel (c := ' ') rfl _
  | false =>
    rw [if_neg Bool.false_ne_true]
    cases value with
    | none => rfl
    | some text =>
      have hempty : text = "" := by simpa [truthy] using htruthy
      rw [hempty]
      rfl

/-- A body has the tokens of the task's id and of its lines. -/
theorem carriesToken_lines (marker : GitHubStatusMarker) (id : String) (lines : List String) :
    carriesToken ("\n".intercalate (("[a2a:" ++ marker.text ++ "] task=" ++ id) :: lines)) =
      (carriesToken id || (lines.map String.toList).any (found isWordChar startsToken false)) := by
  rw [carriesToken_eq, String.toList_intercalate]
  refine (sees_startsToken.found_intercalate (c := '\n') rfl _).trans ?_
  rw [List.map_cons, List.any_cons, found_header]

theorem carriesToken_renderBody (hnumbers : host.PrintsNumbers) {task : TaskRecord}
    (hid : carriesToken task.id = false)
    (hworker : carriesToken (task.assignedWorkerId.getD task.targetNodeId) = false)
    {marker : GitHubStatusMarker} (hmarker : projectStatusMarker task = some marker) :
    carriesToken (renderBody host marker task) = commentExposes task := by
  rw [commentExposes, hmarker]
  cases marker with
  | start =>
    have hstatus : found isWordChar startsToken false ("status=" ++ task.status.text).toList =
        false := by
      cases task.status <;> decide
    refine (carriesToken_lines .start task.id _).trans ?_
    rw [hid, Bool.false_or, List.map_singleton, List.any_cons, List.any_nil, Bool.or_false]
    simp only [String.toList_append, List.append_assoc]
    refine (found_labelled "worker".toList (by decide) (c := '=') rfl _).trans ?_
    refine (sees_startsToken.found_append_cons (c := ' ') rfl false
      (task.assignedWorkerId.getD task.targetNodeId).toList
      ("status=".toList ++ task.status.text.toList)).trans ?_
    rw [← carriesToken_eq, hworker, Bool.false_or, ← String.toList_append, hstatus]
  | done =>
    let output := (task.result.bind (·.output)).getD []
    refine (carriesToken_lines .done task.id (summaryLines host task ++
      if output.isEmpty then [] else ["output:", formatRecord host output])).trans ?_
    rw [hid, Bool.false_or, List.map_append, List.any_append, found_summaryLines, Bool.false_or]
    cases hempty : output.isEmpty with
    | true =>
      have houtput : (task.result.bind (·.output)).getD [] = [] := List.isEmpty_iff.mp hempty
      rw [if_pos rfl, houtput]
      rfl
    | false =>
      rw [if_neg Bool.false_ne_true, List.map_cons, List.map_singleton, List.any_cons,
        List.any_cons, List.any_nil, Bool.or_false, found_formatRecord hnumbers,
        found_letters "output:".toList (by decide), Bool.false_or]
  | pr =>
    let url := GitHubProjection.extractPullRequestUrl task
    refine (carriesToken_lines .pr task.id ((if truthy url then
      ["pull_request:" ++ " " ++ url.getD ""] else []) ++ summaryLines host task)).trans ?_
    rw [hid, Bool.false_or, List.map_append, List.any_append, found_summaryLines, Bool.or_false]
    exact found_optional_line "pull_request:" (by decide) url
  | block =>
    let reason := ((task.error.map (·.message)).or (task.cancellation.bind (·.reason))).getD
      ("task " ++ task.status.text)
    let code := task.error.bind (·.code)
    let reasonLine := "reason: " ++ stringifyRedacted host (.str reason)
    refine (carriesToken_lines .block task.id (reasonLine ::
      if truthy code then ["code:" ++ " " ++ code.getD ""] else [])).trans ?_
    rw [hid, Bool.false_or, List.map_cons, List.any_cons, String.toList_append]
    have hreason := found_labelled "reason:".toList (by decide) (c := ' ') rfl
      (stringifyRedacted host (.str reason)).toList
    rw [found_stringifyRedacted] at hreason
    refine (congrArg (· || _) hreason).trans ?_
    exact found_optional_line "code:" (by decide) code

/-- A comment that is cut has no token that the whole one has not. -/
theorem carriesToken_boundLength {body : String} (h : carriesToken body = false) :
    carriesToken (boundLength body) = false := by
  rw [boundLength]
  split
  · exact h
  · have hmarker : ∀ c ∈ "\n…(truncated)".toList, c ≠ 'g' := by decide
    rw [carriesToken_eq] at h ⊢
    rw [String.toList_append, cut, String.toList_ofList]
    refine (sees_startsToken.found_append_cons (c := '\n') rfl false _
      "\n…(truncated)".toList).trans ?_
    rw [found_takeUnits h, found_letters _ hmarker]
    rfl

/-- The body of the comment about a task, before and after it is cut. -/
def CommentClean (host : Host) (task : TaskRecord) : Prop :=
  ∀ comment, projectTaskComment host task = some comment →
    carriesToken (renderBody host comment.marker task) = false ∧ carriesToken comment.body = false

theorem commentClean_iff (hnumbers : host.PrintsNumbers) {task : TaskRecord}
    (hid : carriesToken task.id = false)
    (hworker : carriesToken (task.assignedWorkerId.getD task.targetNodeId) = false) :
    CommentClean host task ↔ commentExposes task = false := by
  constructor
  · intro h
    cases hmarker : projectStatusMarker task with
    | none => rw [commentExposes, hmarker]
    | some marker =>
      rw [← carriesToken_renderBody hnumbers hid hworker hmarker]
      exact (h ⟨marker, task.id, _⟩ (by rw [projectTaskComment, hmarker]; rfl)).1
  · intro h comment hcomment
    obtain ⟨marker, hmarker, rfl⟩ := Option.map_eq_some_iff.mp hcomment
    have hbody : carriesToken (renderBody host marker task) = false :=
      (carriesToken_renderBody hnumbers hid hworker hmarker).trans h
    exact ⟨hbody, carriesToken_boundLength hbody⟩

/-! ## No token reaches an operator -/

/-- The sanitizers let no token of a text pass if none starts outside the matches of their patterns,
and a status comment has none if none stands where it prints a value as it is. -/
theorem redaction_law (hnumbers : host.PrintsNumbers) (s : String) (task : TaskRecord)
    (hid : carriesToken task.id = false)
    (hworker : carriesToken (task.assignedWorkerId.getD task.targetNodeId) = false) :
    (Sanitized s ↔ tokenExposed s.toList = false) ∧
      (CommentClean host task ↔ commentExposes task = false) :=
  ⟨sanitized_iff s, commentClean_iff hnumbers hid hworker⟩

section Examples

/-- A task that failed with the given code. -/
def failedTask (code : String) : TaskRecord where
  id := "task"
  exchangeId := none
  parentTaskId := none
  referenceTaskIds := []
  intent := .analyze
  requester := { id := "hub" }
  target := { id := "worker" }
  targetNodeId := "worker"
  assignedWorkerId := none
  workspace := none
  message := none
  proposalId := none
  artifactIds := []
  via := none
  policyContext := none
  payload := []
  status := .failed
  createdAt := .iso 0
  updatedAt := .iso 0
  taskOrigin := .api
  brokerOfRecord := none
  teamId := none
  error := some { code := some code, message := "push with ghp_abc was refused" }

theorem printsNumbers_default : Host.PrintsNumbers {} := by
  intro n c hc
  have hnum : ∀ z : Int, c ∈ (toString z).toList → c.isDigit = true ∨ c ∈ ['.', 'e', '+', '-'] := by
    intro z hz
    cases z with
    | ofNat m => exact .inl (Text.isDigit_of_mem_toString hz)
    | negSucc m =>
      have hneg : toString (Int.negSucc m) = "-" ++ toString (m + 1) := rfl
      rw [hneg, String.toList_append] at hz
      rcases List.mem_cons.mp hz with rfl | hdigit
      · exact .inr (by decide)
      · exact .inl (Text.isDigit_of_mem_toString hdigit)
  exact hnum n.num hc

theorem redaction_law_failed :
    (Sanitized "see token=ghp_abc" ↔ tokenExposed "see token=ghp_abc".toList = false) ∧
      (CommentClean {} (failedTask "exec_error") ↔
        commentExposes (failedTask "exec_error") = false) :=
  redaction_law printsNumbers_default _ _ (by decide) (by decide +kernel)

/-- A token with an underscore passes the sanitizers, and a comment prints the code of an error. -/
theorem tokens_reach_operators :
    carriesToken "ghp_abc" = true ∧ sanitizeSummary (some "ghp_abc") = some "ghp_abc" ∧
      TaskEventStream.sanitizeOperatorText "ghp_abc" = "ghp_abc" ∧
      sanitizeText (some "ghp_abc") 500 = some "ghp_abc" ∧
      (projectTaskComment {} (failedTask "ghp_abc")).map (·.body) =
        some "[a2a:Block] task=task\nreason: push with [REDACTED] was refused\ncode: ghp_abc" ∧
      (projectTaskComment {} (failedTask "ghp_abc")).any (fun c => carriesToken c.body) = true := by
  decide +kernel

end Examples

end A2ABroker
