import A2ABroker.Lib.Text
import A2ABroker.Verify.TokenRedaction
import Mathlib.Data.List.Infix

/-! # One marker to a comment

A consumer finds the comment about a task by its first line, `[a2a:<Marker>] task=<id>`. The texts of
a task stand in the comment as they are, line breaks and all, so that any of them can start another
such line. A comment has one marker exactly when none of its texts does, unless the comment is cut
before the line or in its own header (`one_marker_iff`).

The lines of a text are its words in the sense of `Words`, with the line break as the separator. -/

namespace A2ABroker

open Words GitHubProjection

variable {host : Host}

/-! ## The property -/

def headerOf (marker : GitHubStatusMarker) : List Char :=
  ("[a2a:" ++ marker.text ++ "] task=").toList

/-- The text starts like the first line of a comment. -/
def startsHeader (text : List Char) : Bool :=
  [GitHubStatusMarker.start, .block, .pr, .done].any fun marker =>
    (headerOf marker).isPrefixOf text

def linesOf (text : List Char) : List (List Char) := splitAtEach (· == '\n') text

/-- The first line of a comment is the only header, and it names the marker and the task. -/
def OneMarker (comment : ProjectedComment) : Prop :=
  ∃ rest, linesOf comment.body.toList =
      (headerOf comment.marker ++ comment.taskId.toList) :: rest ∧
    ∀ line ∈ rest, startsHeader line = false

/-- A line of the text after its first one is a header. -/
def breaksIntoHeader (text : String) : Bool := (linesOf text.toList).tail.any startsHeader

def summaryTexts (task : TaskRecord) : List String :=
  let summary := (task.result.bind (·.summary)).or (task.result.bind (·.note))
  if truthy summary then [summary.getD ""] else []

/-- A value of the output that is shown as it is. -/
def shownValue (key : String) : Json → List String
  | .str text => if isSensitiveKey key then [] else [text]
  | _ => []

/-- The names of the output's properties, and their values as far as they are shown as they are. -/
def outputTexts (output : JsonObject) : List String :=
  (output.filter fun field => field.1 ≠ "__proto__").flatMap fun field =>
    field.1 :: shownValue field.1 field.2

/-- The texts of a task that a comment with this marker shows. -/
def shownTexts (task : TaskRecord) : GitHubStatusMarker → List String
  | .start => [task.assignedWorkerId.getD task.targetNodeId]
  | .done => summaryTexts task ++ outputTexts ((task.result.bind (·.output)).getD [])
  | .pr => (GitHubProjection.extractPullRequestUrl task).toList ++ summaryTexts task
  | .block =>
    ((task.error.map (·.message)).or (task.cancellation.bind (·.reason))).getD
      ("task " ++ task.status.text) :: (task.error.bind (·.code)).toList

/-- What is left of a comment that is cut. -/
def keptUnits : Nat := maxGitHubCommentLength - units truncationMarker.toList

/-! ## Lines -/

def inLine (c : Char) : Bool := c != '\n'

theorem startsHeader_iff {text : List Char} :
    startsHeader text = true ↔ ∃ marker, headerOf marker <+: text := by
  simp only [startsHeader, List.any_cons, List.any_nil, Bool.or_false, Bool.or_eq_true,
    List.isPrefixOf_iff_prefix]
  constructor
  · rintro (h | h | h | h)
    · exact ⟨_, h⟩
    · exact ⟨_, h⟩
    · exact ⟨_, h⟩
    · exact ⟨_, h⟩
  · rintro ⟨marker, h⟩
    cases marker
    · exact .inl h
    · exact .inr (.inl h)
    · exact .inr (.inr (.inl h))
    · exact .inr (.inr (.inr h))

theorem inLine_headerOf (marker : GitHubStatusMarker) : ∀ c ∈ headerOf marker, inLine c = true := by
  cases marker <;> decide

theorem prefix_takeWhile {p : Char → Bool} {word text : List Char} (hword : ∀ c ∈ word, p c = true) :
    word <+: text.takeWhile p ↔ word <+: text := by
  constructor
  · exact fun h => h.trans (List.takeWhile_prefix p)
  · rintro ⟨rest, rfl⟩
    rw [List.takeWhile_append_of_pos hword]
    exact List.prefix_append _ _

theorem sees_startsHeader : Sees inLine startsHeader where
  word text := by
    rw [Bool.eq_iff_iff, startsHeader_iff, startsHeader_iff]
    exact exists_congr fun marker => (prefix_takeWhile (inLine_headerOf marker)).symm
  nil := by decide
  append a b h := by
    obtain ⟨marker, hmarker⟩ := startsHeader_iff.mp h
    exact startsHeader_iff.mpr ⟨marker, hmarker.trans (List.prefix_append _ _)⟩

theorem startsHeader_cons_of_ne {c : Char} (hc : c ≠ '[') (cs : List Char) :
    startsHeader (c :: cs) = false := by
  rw [Bool.eq_false_iff]
  intro h
  obtain ⟨marker, hmarker⟩ := startsHeader_iff.mp h
  have hfirst : (headerOf marker).head? = some '[' := by cases marker <;> rfl
  cases hheader : headerOf marker with
  | nil => rw [hheader] at hfirst; cases hfirst
  | cons d ds =>
    rw [hheader] at hfirst hmarker
    obtain rfl := Option.some.inj hfirst
    exact hc (List.cons_prefix_cons.mp hmarker).1.symm

/-- The lines after the first one with a header are found. -/
theorem linesOf_eq (text : List Char) : ∃ rest, linesOf text = text.takeWhile inLine :: rest ∧
    rest.any startsHeader = found inLine startsHeader true text := by
  induction text with
  | nil => exact ⟨[], rfl, rfl⟩
  | cons c cs ih =>
    obtain ⟨rest, hlines, hrest⟩ := ih
    unfold linesOf at hlines ⊢
    rw [splitAtEach, hlines, found, Bool.not_true, Bool.false_and, Bool.false_or,
      List.takeWhile_cons]
    by_cases hc : c = '\n'
    · subst hc
      refine ⟨cs.takeWhile inLine :: rest, rfl, ?_⟩
      have hline : startsHeader (cs.takeWhile inLine) = startsHeader cs :=
        (sees_startsHeader.word cs).symm
      rw [List.any_cons, hline, hrest]
      cases cs with
      | nil => rfl
      | cons d ds => rw [found, found]; rfl
    · have hin : inLine c = true := bne_iff_ne.mpr hc
      rw [if_neg (by simpa using hc), if_pos hin, hin]
      exact ⟨rest, rfl, hrest⟩

theorem breaksIntoHeader_eq (text : String) :
    breaksIntoHeader text = found inLine startsHeader true text.toList := by
  obtain ⟨rest, hlines, hrest⟩ := linesOf_eq text.toList
  rw [breaksIntoHeader, hlines, List.tail_cons, hrest]

/-- A comment has one marker if its first line is its header and no line after it is another. -/
theorem oneMarker_iff {comment : ProjectedComment} : OneMarker comment ↔
    comment.body.toList.takeWhile inLine = headerOf comment.marker ++ comment.taskId.toList ∧
      found inLine startsHeader true comment.body.toList = false := by
  obtain ⟨rest, hlines, hrest⟩ := linesOf_eq comment.body.toList
  rw [OneMarker, hlines, ← hrest]
  constructor
  · rintro ⟨rest', heq, hnone⟩
    obtain ⟨hfirst, rfl⟩ := List.cons_eq_cons.mp heq
    exact ⟨hfirst, by simpa using hnone⟩
  · rintro ⟨hfirst, hnone⟩
    exact ⟨rest, by rw [hfirst], by simpa using hnone⟩

/-! ## Texts between labels -/

theorem found_in_line {line : List Char} (hline : ∀ c ∈ line, inLine c = true) (text : List Char) :
    found inLine startsHeader true (line ++ text) = found inLine startsHeader true text := by
  induction line with
  | nil => rfl
  | cons c cs ih =>
    rw [List.cons_append, found, hline c (.head _), Bool.not_true, Bool.false_and, Bool.false_or]
    exact ih fun d hd => hline d (.tail _ hd)

/-- A label before a text. -/
theorem found_label {label : List Char} (hhead : label.head?.any (· != '[') = true)
    (hlabel : ∀ c ∈ label, inLine c = true) (p : Bool) (text : List Char) :
    found inLine startsHeader p (label ++ text) = found inLine startsHeader true text := by
  cases label with
  | nil => cases hhead
  | cons c cs =>
    have hc : c ≠ '[' := by simpa using hhead
    rw [List.cons_append, found, startsHeader_cons_of_ne hc, Bool.and_false, Bool.false_or,
      hlabel c (.head _)]
    exact found_in_line (fun d hd => hlabel d (.tail _ hd)) text

/-- What joins two texts is no part of a header. -/
structure Joins (joint : List Char) : Prop where
  inLine : ∀ c ∈ joint, inLine c = true
  pair : ∃ c d rest, joint = c :: d :: rest ∧ c ≠ '[' ∧
    ∀ marker, (headerOf marker).tails.all (fun tail => !([c, d].isPrefixOf tail)) = true ∧
      (headerOf marker).getLast? ≠ some c

theorem startsHeader_joined {joint : List Char} (h : Joins joint) (a b : List Char) :
    startsHeader (a ++ (joint ++ b)) = startsHeader a := by
  obtain ⟨c, d, rest, rfl, -, hpair⟩ := h.pair
  rw [Bool.eq_iff_iff, startsHeader_iff, startsHeader_iff]
  refine exists_congr fun marker => ⟨fun hbegins => ?_, fun hbegins => ?_⟩
  · obtain ⟨htails, hlast⟩ := hpair marker
    rcases List.prefix_or_prefix_of_prefix hbegins (List.prefix_append a _) with hshort | ⟨q, hq⟩
    · exact hshort
    · -- the header would end in the joint
      rw [← hq, List.prefix_append_right_inj, List.cons_append, List.cons_append] at hbegins
      match q, hbegins with
      | [], _ => rw [← hq, List.append_nil]
      | [e], hbegins =>
        obtain ⟨rfl, -⟩ := List.cons_prefix_cons.mp hbegins
        exact absurd (by rw [← hq]; simp) hlast
      | e :: e' :: q, hbegins =>
        obtain ⟨hc, hbegins⟩ := List.cons_prefix_cons.mp hbegins
        obtain ⟨hd, -⟩ := List.cons_prefix_cons.mp hbegins
        have htail := List.all_eq_true.mp htails (e :: e' :: q) ((List.mem_tails _ _).mpr ⟨a, hq⟩)
        rw [hc, hd] at htail
        simp at htail
  · exact hbegins.trans (List.prefix_append _ _)

theorem found_joined {joint : List Char} (h : Joins joint) (p : Bool) (a b : List Char) :
    found inLine startsHeader p (a ++ (joint ++ b)) =
      (found inLine startsHeader p a || found inLine startsHeader true b) := by
  induction a generalizing p with
  | nil =>
    obtain ⟨c, d, rest, rfl, hc, -⟩ := h.pair
    rw [List.nil_append, found_label (by simpa using hc) h.inLine, found, Bool.false_or]
  | cons x xs ih =>
    have hword := startsHeader_joined h (x :: xs) b
    rw [List.cons_append] at hword ⊢
    rw [found, found, hword, ih, Bool.or_assoc]

theorem joins_status (status : String) (h : ∀ c ∈ status.toList, inLine c = true) :
    Joins (" status=" ++ status).toList where
  inLine c hc := by
    have hlabel : ∀ c ∈ " status=".toList, inLine c = true := by decide
    rw [String.toList_append] at hc
    rcases List.mem_append.mp hc with hc | hc
    · exact hlabel c hc
    · exact h c hc
  pair := by
    refine ⟨' ', 's', "tatus=".toList ++ status.toList, ?_, by decide, ?_⟩
    · rw [String.toList_append]
      rfl
    · intro marker
      cases marker <;> decide

theorem joins_colon : Joins ": ".toList where
  inLine := by decide
  pair := ⟨':', ' ', [], by decide, by decide, fun marker => by cases marker <;> decide⟩

/-! ## Redacted texts -/

/-- A redacted token is a word that starts with a `g`. -/
theorem read_of_matchTokenValue {prev : Option Char} {text r : List Char} {n : Nat}
    (hmatch : matchTokenValue prev text = some (r, n)) :
    ∃ read rest, text = 'g' :: (read ++ rest) ∧ n = read.length + 1 ∧
      ∀ c ∈ read, isWordChar c = true := by
  rw [matchTokenValue] at hmatch
  split at hmatch
  · cases hmatch
  · obtain ⟨word, hword, hsome⟩ := List.exists_of_findSome?_eq_some hmatch
    obtain ⟨rest, hrest, hrun⟩ := Option.bind_eq_some_iff.mp hsome
    simp only [] at hrun
    split at hrun
    · cases hrun
    · cases hrun
      have hchars := isWordChar_of_mem_tokenValueWords hword
      have hg : ∀ word ∈ tokenValueWords, word.toList.head? = some 'g' := by decide
      have hhead := hg word hword
      have hlength : word.length = word.toList.length := (String.length_toList).symm
      rw [afterWord_eq_some_iff.mp hrest, hlength]
      cases hletters : word.toList with
      | nil => rw [hletters] at hhead; cases hhead
      | cons d ds =>
        rw [hletters] at hhead hchars
        obtain rfl := Option.some.inj hhead
        refine ⟨ds ++ rest.takeWhile isWordChar, rest.dropWhile isWordChar, ?_, ?_, fun c hc => ?_⟩
        · rw [List.append_assoc, List.takeWhile_append_dropWhile]
          rfl
        · rw [List.length_append, List.length_cons]
          omega
        · rcases List.mem_append.mp hc with hc | hc
          · exact hchars c (.tail _ hc)
          · exact (List.mem_takeWhile_imp hc)

/-- The letters of a header after its first character are neither redacted nor put in. -/
theorem prefix_replace_iff {word : List Char} (hword : ∀ c ∈ word, c ≠ 'g' ∧ c ≠ '[')
    (prev : Option Char) (text : List Char) :
    word <+: replaceMatches matchTokenValue prev 0 text ↔ word <+: text := by
  induction word generalizing prev text with
  | nil => exact iff_of_true List.nil_prefix List.nil_prefix
  | cons w ws ih =>
    obtain ⟨hg, hbracket⟩ := hword w (.head _)
    cases text with
    | nil => rfl
    | cons c cs =>
      cases hmatch : matchTokenValue prev (c :: cs) with
      | none =>
        rw [replaceMatches_of_none hmatch, List.cons_prefix_cons, List.cons_prefix_cons,
          ih (fun d hd => hword d (.tail _ hd))]
      | some result =>
        obtain ⟨r, n⟩ := result
        obtain ⟨read, rest, htext, rfl, -⟩ := read_of_matchTokenValue hmatch
        obtain ⟨rfl, rfl⟩ := List.cons_eq_cons.mp htext
        rw [replaceMatches_of_some hmatch, matchTokenValue_replacement hmatch]
        refine iff_of_false (fun h => ?_) fun h => hg (List.cons_prefix_cons.mp h).1
        exact hbracket (List.cons_prefix_cons.mp h).1

theorem startsHeader_replace (prev : Option Char) (c : Char) (cs : List Char) :
    startsHeader (c :: replaceMatches matchTokenValue prev 0 cs) = startsHeader (c :: cs) := by
  rw [Bool.eq_iff_iff, startsHeader_iff, startsHeader_iff]
  refine exists_congr fun marker => ?_
  obtain ⟨letters, hheader, hletters⟩ : ∃ letters, headerOf marker = '[' :: letters ∧
      ∀ c ∈ letters, c ≠ 'g' ∧ c ≠ '[' := by
    cases marker <;> exact ⟨_, rfl, by decide⟩
  rw [hheader, List.cons_prefix_cons, List.cons_prefix_cons, prefix_replace_iff hletters]

theorem startsHeader_redacted (text : List Char) :
    startsHeader ('[' :: ("REDACTED]".toList ++ text)) = false := by
  rw [Bool.eq_false_iff]
  intro h
  obtain ⟨marker, hmarker⟩ := startsHeader_iff.mp h
  have hsecond : (headerOf marker).take 2 = ['[', 'a'] := by cases marker <;> rfl
  have htake := (List.take_prefix 2 (headerOf marker)).trans hmarker
  rw [hsecond] at htake
  exact absurd (List.cons_prefix_cons.mp (List.cons_prefix_cons.mp htake).2).1 (by decide)

theorem inLine_of_isWordChar {c : Char} (h : isWordChar c = true) : inLine c = true := by
  refine bne_iff_ne.mpr ?_
  rintro rfl
  cases h

theorem found_replace (p : Bool) (prev : Option Char) (text : List Char) :
    found inLine startsHeader p (replaceMatches matchTokenValue prev 0 text) =
      found inLine startsHeader p text := by
  induction hlength : text.length using Nat.strong_induction_on generalizing p prev text with
  | _ length ih =>
  cases text with
  | nil => rfl
  | cons c cs =>
    rw [List.length_cons] at hlength
    cases hmatch : matchTokenValue prev (c :: cs) with
    | none =>
      rw [replaceMatches_of_none hmatch, found, found, startsHeader_replace,
        ih cs.length (by omega) (inLine c) (some c) cs rfl]
    | some result =>
      obtain ⟨r, n⟩ := result
      obtain ⟨read, rest, htext, rfl, hread⟩ := read_of_matchTokenValue hmatch
      obtain ⟨rfl, rfl⟩ := List.cons_eq_cons.mp htext
      have hsplit : "[REDACTED]".toList = '[' :: "REDACTED]".toList := by decide
      have hline : ∀ c ∈ "REDACTED]".toList, inLine c = true := by decide
      have hread' : ∀ c ∈ read, inLine c = true := fun c hc => inLine_of_isWordChar (hread c hc)
      rw [replaceMatches_of_some hmatch, matchTokenValue_replacement hmatch, hsplit,
        List.cons_append, found, startsHeader_redacted, Bool.and_false, Bool.false_or,
        show inLine '[' = true from rfl, found_in_line hline, found,
        startsHeader_cons_of_ne (by decide), Bool.and_false, Bool.false_or,
        show inLine 'g' = true from rfl, found_in_line hread']
      exact ih rest.length (by rw [← hlength, List.length_append]; omega) true _ rest rfl

theorem found_header_redactString (p : Bool) (text : String) :
    found inLine startsHeader p (redactString text).toList =
      found inLine startsHeader p text.toList := by
  rw [redactString, String.toList_ofList, found_replace]

/-! ## JSON -/

theorem inLine_jsonChar (c : Char) : ∀ d ∈ jsonChar c, inLine d = true := by
  have hescapes : ∀ n < 32, ∀ d ∈ jsonChar (Char.ofNat n), inLine d = true := by decide
  by_cases hctl : c.toNat < 32
  · have hescape := hescapes c.toNat hctl
    rwa [Char.ofNat_toNat] at hescape
  · have hc : inLine c = true := by
      refine bne_iff_ne.mpr ?_
      rintro rfl
      exact hctl (by decide)
    by_cases hquote : c = '"'
    · subst hquote
      decide
    · by_cases hslash : c = '\\'
      · subst hslash
        decide
      · rw [jsonChar_of_printable hctl hquote hslash]
        exact List.forall_mem_singleton.mpr hc

theorem inLine_jsonQuote (s : String) : ∀ c ∈ (jsonQuote s).toList, inLine c = true := by
  rw [jsonQuote_toList, List.forall_mem_cons]
  refine ⟨rfl, fun c hc => ?_⟩
  rcases List.mem_append.mp hc with hc | hc
  · obtain ⟨d, -, hc⟩ := List.mem_flatMap.mp hc
    exact inLine_jsonChar d c hc
  · rw [List.mem_singleton.mp hc]
    rfl

theorem inLine_append {a b : String} (ha : ∀ c ∈ a.toList, inLine c = true)
    (hb : ∀ c ∈ b.toList, inLine c = true) : ∀ c ∈ (a ++ b).toList, inLine c = true := by
  rw [String.toList_append]
  exact List.forall_mem_append.mpr ⟨ha, hb⟩

theorem inLine_intercalate {texts : List String}
    (h : ∀ text ∈ texts, ∀ c ∈ text.toList, inLine c = true) :
    ∀ c ∈ (",".intercalate texts).toList, inLine c = true := by
  rw [String.toList_intercalate]
  induction texts with
  | nil => exact fun _ h => absurd h List.not_mem_nil
  | cons text texts ih =>
    obtain ⟨htext, htexts⟩ := List.forall_mem_cons.mp h
    cases texts with
    | nil => simpa using htext
    | cons text' texts =>
      rw [List.map_cons, List.map_cons, List.intercalate_cons_cons, ← List.map_cons]
      refine List.forall_mem_append.mpr ⟨List.forall_mem_append.mpr ⟨htext, ?_⟩, ih htexts⟩
      exact by decide

theorem inLine_numberText (hnumbers : host.PrintsNumbers) (n : Rat) :
    ∀ c ∈ (host.numberText n).toList, inLine c = true := by
  intro c hc
  refine bne_iff_ne.mpr ?_
  rintro rfl
  rcases hnumbers n '\n' hc with hdigit | hmem
  · cases hdigit
  · exact absurd hmem (by decide)

mutual

/-- A printed value is one line. -/
theorem inLine_jsonStringify (hnumbers : host.PrintsNumbers) (value : Json) :
    ∀ c ∈ (jsonStringify host value).toList, inLine c = true := by
  match value with
  | .null => exact (by decide : ∀ c ∈ "null".toList, inLine c = true)
  | .bool true => exact (by decide : ∀ c ∈ "true".toList, inLine c = true)
  | .bool false => exact (by decide : ∀ c ∈ "false".toList, inLine c = true)
  | .num n => exact inLine_numberText hnumbers n
  | .str s => exact inLine_jsonQuote s
  | .arr items =>
    rw [jsonStringify]
    exact inLine_append (inLine_append (by decide) (inLine_intercalate
      (inLine_jsonItems hnumbers items))) (by decide)
  | .obj fields =>
    rw [jsonStringify]
    exact inLine_append (inLine_append (by decide) (inLine_intercalate
      (inLine_jsonFields hnumbers fields))) (by decide)

theorem inLine_jsonItems (hnumbers : host.PrintsNumbers) (items : List Json) :
    ∀ text ∈ jsonItems host items, ∀ c ∈ text.toList, inLine c = true := by
  match items with
  | [] => exact fun _ h => absurd h List.not_mem_nil
  | item :: items =>
    rw [jsonItems, List.forall_mem_cons]
    exact ⟨inLine_jsonStringify hnumbers item, inLine_jsonItems hnumbers items⟩

theorem inLine_jsonFields (hnumbers : host.PrintsNumbers) (fields : List (String × Json)) :
    ∀ text ∈ jsonFields host fields, ∀ c ∈ text.toList, inLine c = true := by
  match fields with
  | [] => exact fun _ h => absurd h List.not_mem_nil
  | (key, value) :: fields =>
    rw [jsonFields, List.forall_mem_cons]
    refine ⟨?_, inLine_jsonFields hnumbers fields⟩
    exact inLine_append (inLine_append (inLine_jsonQuote key) (by decide))
      (inLine_jsonStringify hnumbers value)

end

theorem found_of_inLine {text : List Char} (h : ∀ c ∈ text, inLine c = true) :
    found inLine startsHeader true text = false := by
  rw [← List.append_nil text, found_in_line h, found]

/-! ## The body -/

/-- A value of the output breaks the line if it is a text that does, and is shown. -/
theorem found_value (hnumbers : host.PrintsNumbers) (value : Json) :
    found inLine startsHeader true (stringify host (redactSensitive value)).toList =
      match value with
      | .str text => breaksIntoHeader text
      | _ => false := by
  cases value with
  | str text => exact (found_header_redactString true text).trans (breaksIntoHeader_eq text).symm
  | null => exact found_of_inLine (inLine_jsonStringify hnumbers .null)
  | bool b => exact found_of_inLine (inLine_jsonStringify hnumbers (.bool b))
  | num n => exact found_of_inLine (inLine_jsonStringify hnumbers (.num n))
  | arr items => exact found_of_inLine (inLine_jsonStringify hnumbers (.arr (redactItems items)))
  | obj fields => exact found_of_inLine (inLine_jsonStringify hnumbers (.obj (redactFields fields)))

/-- The line of a property breaks where the key or the value does. -/
theorem found_property (key value : String) :
    found inLine startsHeader false ("  " ++ key ++ ": " ++ value).toList =
      (breaksIntoHeader key || found inLine startsHeader true value.toList) := by
  simp only [String.toList_append, List.append_assoc]
  rw [@found_label "  ".toList (by decide) (by decide), found_joined joins_colon,
    breaksIntoHeader_eq]

/-- The lines of an output. -/
theorem found_record (hnumbers : host.PrintsNumbers) (output : JsonObject) :
    found inLine startsHeader false (formatRecord host output).toList =
      (outputTexts output).any breaksIntoHeader := by
  rw [formatRecord, String.toList_intercalate]
  refine (sees_startsHeader.found_intercalate (c := '\n') rfl _).trans ?_
  induction output with
  | nil => rfl
  | cons field output ih =>
    obtain ⟨key, raw⟩ := field
    rw [redactFields]
    split
    case isTrue hproto =>
      rw [ih, outputTexts, outputTexts, List.filter_cons_of_neg (by simpa using hproto)]
    case isFalse hproto =>
      have hvalue : found inLine startsHeader true (stringify host
          (if isSensitiveKey key then .str "[REDACTED]" else redactSensitive raw)).toList =
          (shownValue key raw).any breaksIntoHeader := by
        cases hkey : isSensitiveKey key with
        | true =>
          have hredacted : ∀ c ∈ "[REDACTED]".toList, inLine c = true := by decide
          have hnone : shownValue key raw = [] := by
            cases raw with
            | str text => rw [shownValue, if_pos hkey]
            | null | bool | num | arr | obj => rfl
          rw [hnone]
          exact found_of_inLine hredacted
        | false =>
          refine (found_value hnumbers raw).trans ?_
          cases raw with
          | str text => rw [shownValue, if_neg (by simp [hkey]), List.any_cons, List.any_nil,
              Bool.or_false]
          | null | bool | num | arr | obj => rfl
      rw [List.map_cons, List.map_cons, List.any_cons, ih, found_property, hvalue, outputTexts,
        outputTexts, List.filter_cons_of_pos (by simpa using hproto), List.flatMap_cons,
        List.any_append, List.any_cons]

theorem found_summaryLines_header (task : TaskRecord) :
    ((summaryLines host task).map String.toList).any (found inLine startsHeader false) =
      (summaryTexts task).any breaksIntoHeader := by
  rw [summaryLines, summaryTexts]
  split
  · rw [List.map_singleton, List.any_cons, List.any_nil, Bool.or_false, List.any_cons, List.any_nil,
      Bool.or_false, String.toList_append, found_label (by decide) (by decide),
      breaksIntoHeader_eq]
    exact found_header_redactString true _
  · rfl

/-- A text that is printed after a label when there is one. -/
theorem found_optional_text (label : String) (hhead : label.toList.head?.any (· != '[') = true)
    (hlabel : ∀ c ∈ label.toList, inLine c = true) (value : Option String) :
    ((if truthy value then [label ++ value.getD ""] else []).map String.toList).any
      (found inLine startsHeader false) = value.toList.any breaksIntoHeader := by
  cases htruthy : truthy value with
  | true =>
    obtain ⟨text, rfl, -⟩ := truthy_eq_true.mp htruthy
    rw [if_pos rfl, List.map_singleton, List.any_cons, List.any_nil, Bool.or_false,
      Option.toList_some, List.any_cons, List.any_nil, Bool.or_false, String.toList_append,
      found_label hhead hlabel, breaksIntoHeader_eq]
    rfl
  | false =>
    rw [if_neg Bool.false_ne_true]
    cases value with
    | none => rfl
    | some text =>
      have hempty : text = "" := by simpa [truthy] using htruthy
      rw [hempty]
      rfl

/-- The lines after the header. -/
theorem exists_lines (hnumbers : host.PrintsNumbers) (task : TaskRecord)
    (marker : GitHubStatusMarker) : ∃ lines : List String,
    renderBody host marker task =
      "\n".intercalate (("[a2a:" ++ marker.text ++ "] task=" ++ task.id) :: lines) ∧
    (lines.map String.toList).any (found inLine startsHeader false) =
      (shownTexts task marker).any breaksIntoHeader := by
  cases marker with
  | start =>
    have hstatus : ∀ c ∈ task.status.text.toList, inLine c = true := by
      cases task.status <;> decide
    refine ⟨_, rfl, ?_⟩
    rw [List.map_singleton, List.any_cons, List.any_nil, Bool.or_false]
    simp only [String.toList_append, List.append_assoc]
    rw [@found_label "worker=".toList (by decide) (by decide)]
    have hjoined := found_joined (joins_status task.status.text hstatus) true
      (task.assignedWorkerId.getD task.targetNodeId).toList []
    rw [List.append_nil, String.toList_append, found, Bool.or_false,
      ← breaksIntoHeader_eq] at hjoined
    rw [hjoined, shownTexts, List.any_cons, List.any_nil, Bool.or_false]
  | done =>
    refine ⟨_, rfl, ?_⟩
    rw [List.map_append, List.any_append, found_summaryLines_header, shownTexts, List.any_append]
    refine congrArg _ ?_
    generalize (task.result.bind (·.output)).getD [] = output
    cases output with
    | nil => rfl
    | cons field output =>
      have houtput : found inLine startsHeader false "output:".toList = false := by decide
      rw [if_neg (by simp), List.map_cons, List.map_singleton, List.any_cons, List.any_cons,
        List.any_nil, Bool.or_false, houtput, Bool.false_or, found_record hnumbers]
  | pr =>
    refine ⟨_, rfl, ?_⟩
    rw [List.map_append, List.any_append, found_summaryLines_header, shownTexts, List.any_append]
    exact congrArg (· || _) (found_optional_text "pull_request: " (by decide) (by decide) _)
  | block =>
    refine ⟨_, rfl, ?_⟩
    rw [List.map_cons, List.any_cons, shownTexts, List.any_cons, String.toList_append,
      found_label (by decide) (by decide), breaksIntoHeader_eq]
    refine congrArg₂ (· || ·) (found_header_redactString true _) ?_
    exact found_optional_text "code: " (by decide) (by decide) _

/-- The lines of a body are headers as far as the texts in them break into headers. -/
theorem found_renderBody (hnumbers : host.PrintsNumbers) (task : TaskRecord)
    (marker : GitHubStatusMarker) :
    ∃ rest, (renderBody host marker task).toList =
        headerOf marker ++ task.id.toList ++ rest ∧ rest.head?.all (· == '\n') = true ∧
      found inLine startsHeader true rest = (shownTexts task marker).any breaksIntoHeader := by
  obtain ⟨lines, hbody, hlines⟩ := exists_lines hnumbers task marker
  have hheader : ("[a2a:" ++ marker.text ++ "] task=" ++ task.id).toList =
      headerOf marker ++ task.id.toList := by
    rw [headerOf, ← String.toList_append]
  rw [hbody, String.toList_intercalate, List.map_cons, hheader, ← hlines]
  cases lines with
  | nil => exact ⟨[], by simp, rfl, rfl⟩
  | cons line lines =>
    refine ⟨'\n' :: ['\n'].intercalate ((line :: lines).map String.toList), ?_, rfl, ?_⟩
    · rw [List.map_cons, List.intercalate_cons_cons, List.append_assoc]
      rfl
    · refine (sees_startsHeader.found_cons_of_not rfl true _).trans ?_
      exact sees_startsHeader.found_intercalate rfl _

/-! ## Cutting -/

/-- A cut keeps the beginnings that fit. -/
theorem prefix_takeUnits_iff {n : Nat} {before text : List Char} :
    before <+: takeUnits n text ↔ before <+: text ∧ units before ≤ n := by
  induction text generalizing n before with
  | nil =>
    rw [takeUnits, List.prefix_nil]
    exact ⟨fun h => ⟨h, by simp [h, units]⟩, fun h => h.1⟩
  | cons c cs ih =>
    cases before with
    | nil => simp [units]
    | cons d ds =>
      rw [takeUnits, units_cons, List.cons_prefix_cons]
      by_cases hfits : utf16Units c ≤ n
      · rw [if_pos hfits, List.cons_prefix_cons, ih]
        constructor
        · rintro ⟨rfl, hbegins, hunits⟩
          exact ⟨⟨rfl, hbegins⟩, by omega⟩
        · rintro ⟨⟨rfl, hbegins⟩, hunits⟩
          exact ⟨rfl, hbegins, by omega⟩
      · rw [if_neg hfits, List.prefix_nil]
        refine iff_of_false (List.cons_ne_nil d ds) ?_
        rintro ⟨⟨rfl, -⟩, hunits⟩
        omega

/-- What is found is a header after a line break. -/
theorem found_iff {text : List Char} : found inLine startsHeader true text = true ↔
    ∃ before marker, before ++ '\n' :: headerOf marker <+: text := by
  induction text with
  | nil => simp [found]
  | cons c cs ih =>
    rw [found, Bool.not_true, Bool.false_and, Bool.false_or]
    constructor
    · intro hfound
      by_cases hc : c = '\n'
      · subst hc
        cases cs with
        | nil => cases hfound
        | cons d ds =>
          have hbreak : inLine '\n' = false := rfl
          rw [hbreak, found, Bool.not_false, Bool.true_and, Bool.or_eq_true] at hfound
          rcases hfound with hheader | hlater
          · obtain ⟨marker, hmarker⟩ := startsHeader_iff.mp hheader
            exact ⟨[], marker, List.cons_prefix_cons.mpr ⟨rfl, hmarker⟩⟩
          · have htrue : found inLine startsHeader true (d :: ds) = true := by
              rw [found, Bool.not_true, Bool.false_and, Bool.false_or]
              exact hlater
            obtain ⟨before, marker, hbegins⟩ := ih.mp htrue
            exact ⟨'\n' :: before, marker, List.cons_prefix_cons.mpr ⟨rfl, hbegins⟩⟩
      · have hin : inLine c = true := bne_iff_ne.mpr hc
        rw [hin] at hfound
        obtain ⟨before, marker, hbegins⟩ := ih.mp hfound
        exact ⟨c :: before, marker, List.cons_prefix_cons.mpr ⟨rfl, hbegins⟩⟩
    · rintro ⟨before, marker, hbegins⟩
      cases before with
      | nil =>
        obtain ⟨rfl, hheader⟩ := List.cons_prefix_cons.mp hbegins
        cases cs with
        | nil =>
          rw [List.prefix_nil] at hheader
          cases marker <;> cases hheader
        | cons d ds =>
          rw [found, startsHeader_iff.mpr ⟨marker, hheader⟩]
          rfl
      | cons b before =>
        obtain ⟨rfl, hrest⟩ := List.cons_prefix_cons.mp hbegins
        have htrue := ih.mpr ⟨before, marker, hrest⟩
        cases hin : inLine b with
        | true => exact htrue
        | false => exact found_of_inWord htrue

theorem takeWhile_header {header rest : List Char} (hheader : ∀ c ∈ header, inLine c = true)
    (hrest : rest.head?.all (· == '\n') = true) : (header ++ rest).takeWhile inLine = header := by
  rw [List.takeWhile_append_of_pos hheader]
  cases rest with
  | nil => exact List.append_nil header
  | cons c cs =>
    obtain rfl : c = '\n' := by simpa using hrest
    exact List.append_nil header

/-- The first line of what is kept of a body is the header if the header fits. -/
theorem takeWhile_cut_iff {header rest : List Char} (hheader : ∀ c ∈ header, inLine c = true)
    (hrest : rest.head?.all (· == '\n') = true) {n : Nat} (tail : List Char) :
    (takeUnits n (header ++ rest) ++ '\n' :: tail).takeWhile inLine = header ↔
      units header ≤ n := by
  rw [takeWhile_append_cons (c := '\n') rfl]
  constructor
  · intro hline
    have hbegins := List.takeWhile_prefix inLine (l := takeUnits n (header ++ rest))
    rw [hline] at hbegins
    exact (prefix_takeUnits_iff.mp hbegins).2
  · intro hfits
    obtain ⟨kept, hkept⟩ := prefix_takeUnits_iff.mpr ⟨List.prefix_append header rest, hfits⟩
    obtain ⟨lost, hlost⟩ := takeUnits_prefix n (header ++ rest)
    rw [← hkept, List.append_assoc, List.append_cancel_left_eq] at hlost
    rw [← hkept]
    refine takeWhile_header hheader ?_
    cases kept with
    | nil => rfl
    | cons c cs =>
      rw [← hlost] at hrest
      exact hrest

/-- What a cut keeps of the headers. -/
theorem found_cut (n : Nat) (text : List Char) :
    found inLine startsHeader true (takeUnits n text ++ truncationMarker.toList) = false ↔
      ∀ before marker, before ++ '\n' :: headerOf marker <+: text →
        n < units (before ++ '\n' :: headerOf marker) := by
  have hmarker : truncationMarker.toList = '\n' :: "\n…(truncated)".toList := by decide
  have htail : found inLine startsHeader false "\n…(truncated)".toList = false := by decide
  rw [hmarker, sees_startsHeader.found_append_cons rfl, htail, Bool.or_false, Bool.eq_false_iff,
    ne_eq, found_iff]
  constructor
  · intro hnone before marker hbegins
    rw [← Nat.not_le]
    exact fun hunits => hnone ⟨before, marker, prefix_takeUnits_iff.mpr ⟨hbegins, hunits⟩⟩
  · rintro hlost ⟨before, marker, hbegins⟩
    obtain ⟨hbegins, hunits⟩ := prefix_takeUnits_iff.mp hbegins
    exact absurd hunits (Nat.not_le.mpr (hlost before marker hbegins))

/-! ## One marker -/

/-- No text of the task is a header from some line on, or the comment is cut before that line. -/
def KeepsOneHeader (host : Host) (task : TaskRecord) (marker : GitHubStatusMarker) : Prop :=
  (∀ text ∈ shownTexts task marker, breaksIntoHeader text = false) ∨
    (maxGitHubCommentLength < units (renderBody host marker task).toList ∧
      ∀ before other, before ++ '\n' :: headerOf other <+: (renderBody host marker task).toList →
        keptUnits < units (before ++ '\n' :: headerOf other))

/-- The comment about a task whose id is one line has one marker exactly when none of the texts in it
goes on with a header in a line of its own, as far as the comment is not cut before, and the header
itself is not cut. -/
theorem one_marker_iff {host : Host} (hnumbers : host.PrintsNumbers) {task : TaskRecord}
    (hid : ∀ c ∈ task.id.toList, c ≠ '\n') {comment : ProjectedComment}
    (hcomment : projectTaskComment host task = some comment) :
    OneMarker comment ↔
      (units (renderBody host comment.marker task).toList ≤ maxGitHubCommentLength ∨
          units (headerOf comment.marker ++ task.id.toList) ≤ keptUnits) ∧
        KeepsOneHeader host task comment.marker := by
  obtain ⟨marker, -, rfl⟩ := Option.map_eq_some_iff.mp hcomment
  obtain ⟨rest, hbody, hhead, hfound⟩ := found_renderBody hnumbers task marker
  have hheader : ∀ c ∈ headerOf marker ++ task.id.toList, inLine c = true :=
    List.forall_mem_append.mpr ⟨inLine_headerOf marker, fun c hc => bne_iff_ne.mpr (hid c hc)⟩
  have hwhole : found inLine startsHeader true (renderBody host marker task).toList = false ↔
      ∀ text ∈ shownTexts task marker, breaksIntoHeader text = false := by
    rw [hbody, found_in_line hheader, hfound, List.any_eq_false]
    simp only [Bool.not_eq_true]
  rw [oneMarker_iff, KeepsOneHeader]
  by_cases hfits : units (renderBody host marker task).toList ≤ maxGitHubCommentLength
  · have hbound : boundLength (renderBody host marker task) = renderBody host marker task :=
      if_pos hfits
    have hline : (renderBody host marker task).toList.takeWhile inLine =
        headerOf marker ++ task.id.toList := by
      rw [hbody]
      exact takeWhile_header hheader hhead
    simp only [hbound, hline, true_and, hwhole, hfits, true_or, Nat.not_lt.mpr hfits, false_and,
      or_false]
  · have hbound : (boundLength (renderBody host marker task)).toList =
        takeUnits keptUnits (renderBody host marker task).toList ++ truncationMarker.toList := by
      rw [boundLength]
      refine (congrArg String.toList (if_neg hfits)).trans ?_
      rw [String.toList_append, cut, String.toList_ofList]
      rfl
    have hline : (takeUnits keptUnits (renderBody host marker task).toList ++
        truncationMarker.toList).takeWhile inLine = headerOf marker ++ task.id.toList ↔
        units (headerOf marker ++ task.id.toList) ≤ keptUnits := by
      rw [hbody]
      exact takeWhile_cut_iff hheader hhead "\n…(truncated)".toList
    have hquiet (h : ∀ text ∈ shownTexts task marker, breaksIntoHeader text = false) :
        ∀ before other, before ++ '\n' :: headerOf other <+: (renderBody host marker task).toList →
          keptUnits < units (before ++ '\n' :: headerOf other) := fun before other hbegins =>
      absurd (found_iff.mpr ⟨before, other, hbegins⟩) (by simp [hwhole.mpr h])
    simp only [hbound, hline, found_cut, hfits, false_or, Nat.lt_of_not_le hfits, true_and]
    exact and_congr_right fun _ => ⟨.inr, fun h => h.elim hquiet id⟩

section Examples

def blockComment (code : String) : ProjectedComment where
  marker := .block
  taskId := "task"
  body := "[a2a:Block] task=task\nreason: push with [REDACTED] was refused\ncode: " ++ code

theorem one_marker_failed :
    OneMarker (blockComment "exec_error") ↔
      (units (renderBody {} .block (failedTask "exec_error")).toList ≤ maxGitHubCommentLength ∨
          units (headerOf .block ++ (failedTask "exec_error").id.toList) ≤ keptUnits) ∧
        KeepsOneHeader {} (failedTask "exec_error") .block :=
  @one_marker_iff {} printsNumbers_default (failedTask "exec_error") (by decide)
    (blockComment "exec_error") (by decide +kernel)

/-- The code of an error adds the header of another task. -/
theorem two_markers : ¬ ∀ (task : TaskRecord) (comment : ProjectedComment),
    (∀ c ∈ task.id.toList, c ≠ '\n') → projectTaskComment {} task = some comment →
      OneMarker comment := by
  intro h
  have hone := h (failedTask "1\n[a2a:Done] task=other") (blockComment "1\n[a2a:Done] task=other")
    (by decide) (by decide +kernel)
  exact absurd (oneMarker_iff.mp hone).2 (by decide +kernel)

end Examples

end A2ABroker
