import A2ABroker.GitHub.Evidence
import A2ABroker.Verify.TokenMatches

/-! # Keys in redacted comments

What the three redactions of a comment leave alone. A text that no pattern matches in stays where it
stands (`Unmatched.replaceMatches`), and a key that stands in a redacted text stood in the text
before, with no match in it (`occurs_of_redactComment`): it is too long to be part of a replacement,
and it ends in a word that is longer than the name of any secret. -/

namespace A2ABroker

open GitHubProjection GitHubEvidence

/-! ## Texts without a match -/

/-- No match starts in the text, before `rest`. -/
def Unmatched (m : Matcher) : Option Char → List Char → List Char → Prop
  | _, [], _ => True
  | prev, c :: cs, rest => m prev (c :: (cs ++ rest)) = none ∧ Unmatched m (some c) cs rest

section

variable {m : Matcher} {prev : Option Char} {a b rest text : List Char}

theorem Unmatched.replaceMatches (h : Unmatched m prev text rest) :
    replaceMatches m prev 0 (text ++ rest) =
      text ++ A2ABroker.replaceMatches m (lastRead prev text) 0 rest := by
  induction text generalizing prev with
  | nil => rfl
  | cons c cs ih =>
    rw [List.cons_append, replaceMatches_of_none h.1, ih h.2]
    rfl

theorem unmatched_append : Unmatched m prev (a ++ b) rest ↔
    Unmatched m prev a (b ++ rest) ∧ Unmatched m (lastRead prev a) b rest := by
  induction a generalizing prev with
  | nil => exact (and_iff_right trivial).symm
  | cons c cs ih =>
    rw [List.cons_append, Unmatched, Unmatched, ih, List.append_assoc, and_assoc, lastRead]

theorem unmatched_iff_hasMatch : Unmatched m prev text [] ↔ hasMatch m prev text = false := by
  induction text generalizing prev with
  | nil => exact iff_of_true trivial rfl
  | cons c cs ih =>
    rw [Unmatched, hasMatch, Bool.or_eq_false_iff, ih, List.append_nil, Option.isSome_eq_false_iff,
      Option.isNone_iff_eq_none]

/-- A pattern that matches no less in a longer text. -/
def Grows (m : Matcher) : Prop := ∀ prev a b, m prev (a ++ b) = none → m prev a = none

theorem Unmatched.of_grows (hm : Grows m) (h : Unmatched m prev text rest) :
    Unmatched m prev text [] := by
  induction text generalizing prev with
  | nil => trivial
  | cons c cs ih =>
    refine ⟨hm prev (c :: (cs ++ [])) rest ?_, ih h.2⟩
    rw [List.append_nil]
    exact h.1

end

/-! ## From a redacted text back -/

/-- A pattern whose matches start where a word does, and whose replacements are short: a name, or
nothing, before a bracket, and a bracket at the end. -/
structure Brackets (m : Matcher) : Prop where
  bordered : Bordered m
  shape : ∀ {prev text r n}, m prev text = some (r, n) → ∃ name word,
    r = name ++ '[' :: (word ++ [']']) ∧ name.length ≤ 14 ∧ word.length ≤ 8

/-- A text that is no part of a replacement: it has no bracket, and it ends in a long word. -/
structure KeyLike (w : List Char) : Prop where
  noOpen : '[' ∉ w
  noClose : ']' ∉ w
  long : 24 ≤ w.length
  ending : ∃ u h, w = u ++ h ∧ h.length = 16 ∧ ∀ c ∈ h, isWordChar c = true

section

variable {m : Matcher} {prev : Option Char} {w a b text A B : List Char}

theorem exists_lastRead (p : Option Char) (ha : a ≠ []) : ∃ c ∈ a, lastRead p a = some c := by
  induction a generalizing p with
  | nil => exact absurd rfl ha
  | cons c cs ih =>
    cases cs with
    | nil => exact ⟨c, .head _, rfl⟩
    | cons d ds =>
      obtain ⟨e, he, hlast⟩ := ih (some c) (List.cons_ne_nil d ds)
      exact ⟨e, .tail _ he, hlast⟩

/-- Near the end of the text a word is going on. -/
theorem KeyLike.inWord (hw : KeyLike w) (hsplit : w = a ++ b) (hb : b.length < 16)
    (p : Option Char) : (lastRead p a).any isWordChar = true := by
  obtain ⟨u, h, hending, hlength, hword⟩ := hw.ending
  rw [hending, List.append_eq_append_iff] at hsplit
  obtain ⟨e, rfl, rfl⟩ | ⟨e, rfl, rfl⟩ := hsplit
  · have he : e ≠ [] := by
      rintro rfl
      simp only [List.nil_append] at hlength
      omega
    obtain ⟨c, hc, hlast⟩ := exists_lastRead (lastRead p u) he
    rw [lastRead_append, hlast]
    exact hword c (List.mem_append_left _ hc)
  · rw [List.length_append] at hb
    omega

/-- What goes on with the text after its beginning stood there before. -/
theorem Brackets.goes_on (hm : Brackets m) (hw : KeyLike w) (hsplit : w = a ++ b) (ha : a ≠ [])
    (h : replaceMatches m (lastRead prev a) 0 text = b ++ B) :
    ∃ B', text = b ++ B' ∧ Unmatched m (lastRead prev a) b B' := by
  induction b generalizing a text with
  | nil => exact ⟨text, rfl, trivial⟩
  | cons c cs ih =>
    cases text with
    | nil => cases h
    | cons d ds =>
      cases hmatch : m (lastRead prev a) (d :: ds) with
      | none =>
        rw [replaceMatches_of_none hmatch] at h
        obtain ⟨rfl, hrest⟩ := List.cons_eq_cons.mp h
        have hlast : lastRead prev (a ++ [d]) = some d := by rw [lastRead_append]; rfl
        obtain ⟨B', rfl, hunmatched⟩ := @ih (a ++ [d]) ds (by rw [hsplit, List.append_assoc]; rfl)
          (by simp) (by rw [hlast]; exact hrest)
        rw [hlast] at hunmatched
        exact ⟨B', rfl, hmatch, hunmatched⟩
      | some result =>
        obtain ⟨r, n⟩ := result
        obtain ⟨name, word, rfl, hname, -⟩ := hm.shape hmatch
        obtain ⟨hprev, -⟩ := hm.bordered hmatch
        rw [replaceMatches, hmatch] at h
        have hsame : name ++ '[' :: (word ++ [']'] ++ replaceMatches m (some d) (n - 1) ds) =
            (c :: cs) ++ B := by
          simpa using h
        -- The text has no bracket, so that it ends before the one of the replacement.
        have hshort : (c :: cs).length ≤ name.length := by
          obtain ⟨e, he, hrest⟩ | ⟨e, he, -⟩ := List.append_eq_append_iff.mp hsame
          · cases e with
            | nil => rw [he, List.append_nil]
            | cons x xs =>
              obtain ⟨rfl, -⟩ := List.cons_eq_cons.mp hrest
              refine absurd ?_ hw.noOpen
              rw [hsplit, he]
              simp
          · rw [he, List.length_append]
            exact Nat.le_add_right ..
        rw [hw.inWord hsplit (by omega)] at hprev
        cases hprev

/-- A replacement does not reach into the text. -/
theorem Brackets.no_overlap (hm : Brackets m) (hw : KeyLike w) {r e C : List Char} {n : Nat}
    (hmatch : m prev text = some (r, n)) (hsplit : r = A ++ e) (h : w ++ B = e ++ C) : e = [] := by
  obtain ⟨name, word, hr, hname, hword⟩ := hm.shape hmatch
  have hlength : e.length ≤ w.length := by
    have hlong := hw.long
    have hshape := congrArg List.length (hsplit.symm.trans hr)
    simp only [List.length_append, List.length_cons, List.length_nil] at hshape
    omega
  obtain ⟨w', rfl⟩ : ∃ w', w = e ++ w' :=
    (List.prefix_of_prefix_length_le ⟨C, h.symm⟩ ⟨B, rfl⟩ hlength).imp fun _ h => h.symm
  cases hlast : e.getLast? with
  | none => exact List.getLast?_eq_none_iff.mp hlast
  | some x =>
    have hx : x = ']' := by
      have hend : r.getLast? = some ']' := by
        rw [hr, ← List.cons_append, ← List.append_assoc, List.getLast?_concat]
      rw [hsplit, List.getLast?_append, hlast] at hend
      exact Option.some.inj hend
    refine absurd ?_ hw.noClose
    rw [← hx]
    exact List.mem_append_left _ (List.mem_of_getLast? hlast)

/-- What stands in a text after the matches are replaced stood there before, without a match. -/
theorem Brackets.occurs (hm : Brackets m) (hw : KeyLike w)
    (h : replaceMatches m prev 0 text = A ++ (w ++ B)) :
    ∃ A' B', text = A' ++ (w ++ B') ∧ Unmatched m (lastRead prev A') w B' := by
  induction hlength : text.length using Nat.strong_induction_on generalizing prev text A with
  | _ length ih =>
  have hne : w ≠ [] := by
    rintro rfl
    exact absurd hw.long (by decide)
  cases text with
  | nil =>
    rw [replaceMatches] at h
    exact absurd (List.append_eq_nil_iff.mp (List.append_eq_nil_iff.mp h.symm).2).1 hne
  | cons c cs =>
    rw [List.length_cons] at hlength
    cases hmatch : m prev (c :: cs) with
    | none =>
      rw [replaceMatches_of_none hmatch] at h
      cases A with
      | nil =>
        cases w with
        | nil => exact absurd rfl hne
        | cons d ds =>
          obtain ⟨rfl, hrest⟩ := List.cons_eq_cons.mp h
          obtain ⟨B', rfl, hunmatched⟩ :=
            @Brackets.goes_on m prev (c :: ds) [c] ds cs B hm hw rfl (by simp) hrest
          exact ⟨[], B', rfl, hmatch, hunmatched⟩
      | cons d A =>
        obtain ⟨rfl, hrest⟩ := List.cons_eq_cons.mp h
        obtain ⟨A', B', rfl, hunmatched⟩ := ih cs.length (by omega) hrest rfl
        exact ⟨c :: A', B', rfl, hunmatched⟩
    | some result =>
      obtain ⟨r, n⟩ := result
      obtain ⟨-, d, read, rest, htext, -, rfl, -⟩ := hm.bordered hmatch
      obtain ⟨rfl, rfl⟩ := List.cons_eq_cons.mp htext
      rw [replaceMatches_of_some hmatch] at h
      have hrest : ∃ A₂, replaceMatches m (lastRead (some c) read) 0 rest = A₂ ++ (w ++ B) := by
        obtain ⟨e, he, hrest⟩ | ⟨e, he, hrest⟩ := List.append_eq_append_iff.mp h
        · exact ⟨e, hrest⟩
        · obtain rfl := hm.no_overlap hw hmatch he hrest
          exact ⟨[], hrest.symm⟩
      obtain ⟨A₂, hrest⟩ := hrest
      obtain ⟨A', B', rfl, hunmatched⟩ :=
        ih rest.length (by rw [← hlength, List.length_append]; omega) hrest rfl
      refine ⟨c :: (read ++ A'), B', by simp, ?_⟩
      rw [lastRead, lastRead_append]
      exact hunmatched

end

/-! ## The patterns of a comment -/

section

variable {words : List String}

theorem exists_of_matchTokenRun {prev : Option Char} {text r : List Char} {n : Nat}
    (hmatch : matchTokenRun words prev text = some (r, n)) :
    prev.any isWordChar = false ∧ r = "[REDACTED]".toList ∧ ∃ word ∈ words, ∃ token rest,
      text = word.toList ++ (token ++ rest) ∧ n = word.length + token.length ∧ AtBreak rest := by
  rw [matchTokenRun] at hmatch
  split at hmatch
  · cases hmatch
  case isFalse hprev =>
    obtain ⟨word, hword, hsome⟩ := List.exists_of_findSome?_eq_some hmatch
    obtain ⟨rest, hrest, hrun⟩ := Option.bind_eq_some_iff.mp hsome
    simp only [] at hrun
    split at hrun
    · cases hrun
    · cases hrun
      obtain ⟨rest', hsplit, -, hend⟩ := exists_of_tokenRun rest
      refine ⟨by simpa using hprev, rfl, word, hword, _, rest', ?_, rfl, hend⟩
      rw [← hsplit]
      exact afterWord_eq_some_iff.mp hrest

theorem brackets_matchTokenRun (hwords : ∀ word ∈ words, word.toList.head?.any isWordChar = true) :
    Brackets (matchTokenRun words) where
  bordered := by
    intro prev text r n hmatch
    obtain ⟨hprev, -, word, hword, token, rest, rfl, rfl, hrest⟩ := exists_of_matchTokenRun hmatch
    have hcuts := cuts_of_append token (hwords word hword) hrest
    rw [String.length_toList] at hcuts
    exact ⟨hprev, hcuts⟩
  shape hmatch :=
    ⟨[], "REDACTED".toList, (exists_of_matchTokenRun hmatch).2.1, by decide, by decide⟩

theorem afterWord_append {same : Char → Char → Bool} {word text rest : List Char}
    (h : afterWord same word text = some rest) (more : List Char) :
    afterWord same word (text ++ more) = some (rest ++ more) := by
  induction word generalizing text with
  | nil => exact congrArg (fun text => some (text ++ more)) (Option.some.inj h)
  | cons w ws ih =>
    cases text with
    | nil => cases h
    | cons c cs =>
      rw [afterWord] at h
      rw [List.cons_append, afterWord]
      split at h
      case isTrue hc => rw [if_pos hc, ih h]
      case isFalse => cases h

theorem grows_matchTokenRun : Grows (matchTokenRun words) := by
  intro prev a b hnone
  rw [matchTokenRun] at hnone ⊢
  split at hnone
  case isTrue hprev => rw [if_pos hprev]
  case isFalse hprev =>
    rw [if_neg hprev, List.findSome?_eq_none_iff]
    intro word hword
    cases hrest : afterWord (· == ·) word.toList a with
    | none => rfl
    | some rest =>
      have hlong := List.findSome?_eq_none_iff.mp hnone word hword
      rw [afterWord_append hrest, Option.bind_some] at hlong
      rw [Option.bind_some]
      -- The run goes on, and a longer run of hyphens is none, too.
      let run := rest.takeWhile fun c => isWordChar c || c == '-'
      let run' := (rest ++ b).takeWhile fun c => isWordChar c || c == '-'
      have hsub : ∀ c ∈ run, c ∈ run' := by
        obtain ⟨more, hmore⟩ := List.takeWhile_prefix (l := rest) fun c => isWordChar c || c == '-'
        intro c hc
        have hall : ∀ d ∈ run, (isWordChar d || d == '-') = true :=
          fun d hd => List.mem_takeWhile_imp (p := fun c => isWordChar c || c == '-') hd
        have hrun' : run' = run ++ (more ++ b).takeWhile fun c => isWordChar c || c == '-' := by
          show (rest ++ b).takeWhile _ = _
          rw [← hmore, List.append_assoc]
          exact List.takeWhile_append_of_pos hall
        rw [hrun']
        exact List.mem_append_left _ hc
      have hhyphens : (run'.reverse.dropWhile (· == '-')).reverse = [] := by
        by_contra hne
        rw [if_neg (by rwa [List.isEmpty_iff])] at hlong
        cases hlong
      have htoken : (run.reverse.dropWhile (· == '-')).reverse = [] := by
        rw [List.reverse_eq_nil_iff, List.dropWhile_eq_nil_iff] at hhyphens ⊢
        intro c hc
        exact hhyphens c (List.mem_reverse.mpr (hsub c (List.mem_reverse.mp hc)))
      rw [if_pos (List.isEmpty_iff.mpr htoken)]

theorem dropWhile_append_cons {p : Char → Bool} {a rest : List Char} {c : Char}
    (h : a.dropWhile p = c :: rest) (b : List Char) :
    (a ++ b).dropWhile p = c :: (rest ++ b) := by
  rw [List.dropWhile_append, h]
  rfl

theorem afterSecret_append {rest tail : List Char} (h : afterSecret rest = some tail)
    (more : List Char) : (afterSecret (rest ++ more)).isSome = true := by
  rw [afterSecret] at h ⊢
  cases hsep : rest.dropWhile isSpace with
  | nil => rw [hsep] at h; cases h
  | cons sep rest' =>
    rw [hsep] at h
    rw [dropWhile_append_cons hsep]
    simp only [] at h ⊢
    split at h
    case isFalse => cases h
    case isTrue hmark =>
      rw [if_pos hmark]
      cases hvalue : rest'.dropWhile isSpace with
      | nil => rw [hvalue] at h; cases h
      | cons c cs =>
        rw [dropWhile_append_cons hvalue]
        rfl

theorem grows_matchSecretIn (ending : List Char) : Grows (matchSecretIn words ending) := by
  intro prev a b hnone
  rw [matchSecretIn_eq] at hnone ⊢
  split at hnone
  case isTrue hprev => rw [if_pos hprev]
  case isFalse hprev =>
    rw [Option.map_eq_none_iff] at hnone
    rw [if_neg hprev, Option.map_eq_none_iff]
    refine List.findSome?_eq_none_iff.mpr fun word hword => ?_
    have hlong := List.findSome?_eq_none_iff.mp hnone word hword
    cases hrest : afterWord sameLetter word.toList a with
    | none => rfl
    | some rest =>
      rw [afterWord_append hrest, Option.bind_some, Option.map_eq_none_iff] at hlong
      rw [Option.bind_some, Option.map_eq_none_iff]
      cases hafter : afterSecret rest with
      | none => rfl
      | some tail =>
        have hsome := afterSecret_append hafter b
        rw [hlong] at hsome
        cases hsome

theorem matchCommentSecret_eq :
    matchCommentSecret = matchSecretIn commentSecretWords "=[REDACTED]".toList := rfl

theorem startsWord_of_mem_commentSecretWords :
    ∀ word ∈ commentSecretWords, word.toList.head?.any isWordChar = true := by
  decide

theorem brackets_matchCommentSecret : Brackets matchCommentSecret where
  bordered := bordered_matchSecretIn startsWord_of_mem_commentSecretWords
  shape := by
    intro prev text r n hmatch
    obtain ⟨-, c, cs, tail, name, -, -, -, ⟨word, hword, hname⟩, hr, -⟩ :=
      exists_of_matchSecretIn startsWord_of_mem_commentSecretWords hmatch
    have hshort : ∀ word ∈ commentSecretWords, word.toList.length ≤ 13 := by decide
    have hlength := hshort word hword
    rw [← hname, List.length_map] at hlength
    refine ⟨name ++ ['='], "REDACTED".toList, ?_, ?_, by decide⟩
    · rw [hr, List.append_assoc]
      rfl
    · rw [List.length_append]
      exact Nat.add_le_add_right hlength 1

end

/-- The patterns of `redactCommentText`, in the order in which they are replaced. -/
def commentPatterns : List Matcher :=
  [matchTokenRun hostTokenWords, matchTokenRun providerTokenWords, matchCommentSecret]

theorem brackets_of_mem {m : Matcher} (hm : m ∈ commentPatterns) : Brackets m := by
  have hhost : ∀ word ∈ hostTokenWords, word.toList.head?.any isWordChar = true := by decide
  have hprovider : ∀ word ∈ providerTokenWords, word.toList.head?.any isWordChar = true := by decide
  simp only [commentPatterns, List.mem_cons, List.not_mem_nil, or_false] at hm
  rcases hm with rfl | rfl | rfl
  · exact brackets_matchTokenRun hhost
  · exact brackets_matchTokenRun hprovider
  · exact brackets_matchCommentSecret

theorem grows_of_mem {m : Matcher} (hm : m ∈ commentPatterns) : Grows m := by
  simp only [commentPatterns, List.mem_cons, List.not_mem_nil, or_false] at hm
  rcases hm with rfl | rfl | rfl
  · exact grows_matchTokenRun
  · exact grows_matchTokenRun
  · exact grows_matchSecretIn _

theorem redactComment_eq (text : List Char) : redactComment text =
    commentPatterns.foldl (fun text m => replaceMatches m none 0 text) text := rfl

theorem occurs_of_foldl {w text A B : List Char} (hw : KeyLike w) {patterns : List Matcher}
    (hpatterns : ∀ m ∈ patterns, m ∈ commentPatterns)
    (h : patterns.foldl (fun text m => replaceMatches m none 0 text) text = A ++ (w ++ B)) :
    (∃ A' B', text = A' ++ (w ++ B')) ∧ ∀ m ∈ patterns, ∃ prev, Unmatched m prev w [] := by
  induction patterns generalizing text with
  | nil => exact ⟨⟨A, B, h⟩, fun m hm => absurd hm List.not_mem_nil⟩
  | cons m patterns ih =>
    obtain ⟨⟨A₁, B₁, hfirst⟩, hunmatched⟩ := ih (fun m' hm' => hpatterns m' (.tail _ hm')) h
    have hm := hpatterns m (.head _)
    obtain ⟨A', B', htext, hunmatched'⟩ := (brackets_of_mem hm).occurs hw hfirst
    refine ⟨⟨A', B', htext⟩, List.forall_mem_cons.mpr ⟨?_, hunmatched⟩⟩
    exact ⟨_, hunmatched'.of_grows (grows_of_mem hm)⟩

/-- A key in a redacted text stood in the text, and no pattern matches in it. -/
theorem occurs_of_redactComment {w text A B : List Char} (hw : KeyLike w)
    (h : redactComment text = A ++ (w ++ B)) :
    (∃ A' B', text = A' ++ (w ++ B')) ∧
      ∀ m ∈ commentPatterns, ∃ prev, Unmatched m prev w [] := by
  rw [redactComment_eq] at h
  refine occurs_of_foldl hw (fun _ hm => hm) h

/-! ## The text of a key -/

/-- The characters of a key. -/
def isKeyChar (c : Char) : Bool := isUriUnreserved c || c == '%' || c == ':'

/-- A key: seven parts without a colon, and the last one is the beginning `hash` of a digest. -/
structure KeyText (key hash : List Char) : Prop where
  chars : ∀ c ∈ key, isKeyChar c = true
  long : 20 ≤ key.length
  ending : ∃ u, key = u ++ ':' :: hash
  colons : key.count ':' = 6
  length : hash.length = 16
  word : ∀ c ∈ hash, isWordChar c = true

theorem isKeyChar_of_mem_encodeURIComponent {s : String} {c : Char}
    (hc : c ∈ (encodeURIComponent s).toList) : isKeyChar c = true ∧ c ≠ ':' := by
  have hdigits : ∀ n < 16, isKeyChar (Nat.digitChar n).toUpper = true ∧
      (Nat.digitChar n).toUpper ≠ ':' := by decide
  rw [encodeURIComponent, String.toList_ofList, List.mem_flatMap] at hc
  obtain ⟨d, -, hd⟩ := hc
  split at hd
  case isTrue hunreserved =>
    rw [List.mem_singleton.mp hd]
    refine ⟨by rw [isKeyChar, hunreserved, Bool.true_or, Bool.true_or], ?_⟩
    rintro rfl
    exact absurd hunreserved (by decide)
  case isFalse =>
    obtain ⟨b, -, hb⟩ := List.mem_flatMap.mp hd
    simp only [percentEncoded, List.mem_cons, List.not_mem_nil, or_false] at hb
    have hlt : b.toNat < 256 := b.toNat_lt
    rcases hb with rfl | rfl | rfl
    · exact ⟨by decide, by decide⟩
    · exact hdigits _ (by omega)
    · exact hdigits _ (by omega)

theorem encodeURIComponent_of_word {s : String} (h : ∀ c ∈ s.toList, c.isAlphanum = true) :
    encodeURIComponent s = s := by
  have hsame : s.toList.flatMap (fun c => if isUriUnreserved c then [c]
      else (String.utf8EncodeChar c).flatMap percentEncoded) = s.toList.flatMap fun c => [c] := by
    refine List.flatMap_congr fun c hc => if_pos ?_
    rw [isUriUnreserved, h c hc, Bool.true_or]
  rw [encodeURIComponent, hsame, List.flatMap_singleton', String.ofList_toList]

/-- What `createHash("sha256")` writes: 64 hexadecimal digits. -/
def HexDigests (host : Host) : Prop :=
  ∀ text, (host.sha256 text).length = 64 ∧
    ∀ c ∈ (host.sha256 text).toList, c.isDigit = true ∨ 'a' ≤ c ∧ c ≤ 'f'

theorem isAlphanum_of_hex {c : Char} (h : c.isDigit = true ∨ 'a' ≤ c ∧ c ≤ 'f') :
    c.isAlphanum = true := by
  rw [isAlphanum_eq, Bool.or_eq_true, Bool.or_eq_true]
  refine h.elim .inr fun hletter => .inl (.inr ?_)
  obtain ⟨hlow, hhigh⟩ := hletter
  have ha : 'a'.val.toNat = 97 := rfl
  have hf : 'f'.val.toNat = 102 := rfl
  have hz : 'z'.val.toNat = 122 := rfl
  rw [Char.le_def, UInt32.le_iff_toNat_le] at hlow hhigh
  simp only [Bool.and_eq_true, decide_eq_true_eq, UInt32.le_iff_toNat_le]
  omega

theorem keyText_buildIdempotencyKey {host : Host} (hhex : HexDigests host) (m : EvidenceManifest)
    (text : String) : KeyText (buildIdempotencyKey host m (host.sha256 text)).toList
      ((host.sha256 text).toList.take 16) := by
  obtain ⟨hlength, hdigits⟩ := hhex text
  have hword : ∀ c ∈ (host.sha256 text).toList.take 16, c.isAlphanum = true :=
    fun c hc => isAlphanum_of_hex (hdigits c (List.mem_of_mem_take hc))
  have hhash : encodeURIComponent (String.ofList ((host.sha256 text).toList.take 16)) =
      String.ofList ((host.sha256 text).toList.take 16) :=
    encodeURIComponent_of_word (by rwa [String.toList_ofList])
  let sourceKey := m.terminalOutboxCursor.getD (m.run.getD "no-run" ++ ":" ++ m.taskId)
  let part (s : String) : List Char := (encodeURIComponent s).toList
  have hkey : (buildIdempotencyKey host m (host.sha256 text)).toList =
      part "terminal-brief" ++ ':' :: (part m.source.text ++ ':' :: (part m.repo ++
        ':' :: (part (host.numberText m.issueOrPrNumber) ++ ':' :: (part m.marker.text ++
          ':' :: (part sourceKey ++ ':' :: (host.sha256 text).toList.take 16))))) := by
    have hcolon : ":".toList = [':'] := rfl
    rw [buildIdempotencyKey, String.toList_intercalate, hcolon]
    simp only [List.map_cons, List.map_nil, hhash, String.toList_ofList,
      List.intercalate_cons_cons, List.intercalate_singleton, List.append_assoc,
      List.singleton_append, part, sourceKey]
  have hpart (s : String) : (part s).count ':' = 0 :=
    List.count_eq_zero.mpr fun hc => (isKeyChar_of_mem_encodeURIComponent hc).2 rfl
  have hcount : ((host.sha256 text).toList.take 16).count ':' = 0 :=
    List.count_eq_zero.mpr fun hc => absurd (hword _ hc) (by decide)
  have htake : ((host.sha256 text).toList.take 16).length = 16 := by
    rw [List.length_take, String.length_toList, hlength]
    rfl
  have hchars : ∀ s, ∀ c ∈ part s, isKeyChar c = true :=
    fun s c hc => (isKeyChar_of_mem_encodeURIComponent hc).1
  constructor
  · rw [hkey]
    simp only [List.forall_mem_append, List.forall_mem_cons]
    have hlast : ∀ c ∈ (host.sha256 text).toList.take 16, isKeyChar c = true := by
      intro c hc
      rw [isKeyChar, isUriUnreserved, hword c hc, Bool.true_or, Bool.true_or, Bool.true_or]
    exact ⟨hchars _, by decide, hchars _, by decide, hchars _, by decide, hchars _, by decide,
      hchars _, by decide, hchars _, by decide, hlast⟩
  · have hfirst : (part "terminal-brief").length = 14 := by decide +kernel
    rw [hkey]
    simp only [List.length_append, List.length_cons, htake, hfirst]
    omega
  · refine ⟨part "terminal-brief" ++ ':' :: (part m.source.text ++ ':' :: (part m.repo ++
      ':' :: (part (host.numberText m.issueOrPrNumber) ++ ':' :: (part m.marker.text ++
        ':' :: part sourceKey)))), ?_⟩
    rw [hkey]
    simp only [List.append_assoc, List.cons_append]
  · rw [hkey]
    simp only [List.count_append, List.count_cons, hpart, hcount]
    rfl
  · exact htake
  · intro c hc
    rw [isWordChar, hword c hc, Bool.true_or]

/-! ## A key that stays -/

theorem afterWord_append_of_length {same : Char → Char → Bool} {word text : List Char}
    (h : word.length ≤ text.length) (more : List Char) :
    afterWord same word (text ++ more) = (afterWord same word text).map (· ++ more) := by
  induction word generalizing text with
  | nil => rfl
  | cons w ws ih =>
    cases text with
    | nil => cases h
    | cons c cs =>
      rw [List.cons_append, afterWord, afterWord, ih (Nat.le_of_succ_le_succ h)]
      split <;> rfl

/-- Where a text without a space is long enough, the pattern looks at nothing beyond it. -/
def StopsAtSpace (m : Matcher) : Prop := ∀ prev text rest, (∀ c ∈ text, isSpace c = false) →
  16 ≤ text.length → m prev text = none → m prev (text ++ ' ' :: rest) = none

section

variable {words : List String}

theorem stopsAtSpace_matchTokenRun (hwords : ∀ word ∈ words, word.toList.length ≤ 13) :
    StopsAtSpace (matchTokenRun words) := by
  intro prev text rest _ hlong hnone
  rw [matchTokenRun] at hnone ⊢
  split at hnone
  case isTrue hprev => rw [if_pos hprev]
  case isFalse hprev =>
    rw [if_neg hprev, List.findSome?_eq_none_iff]
    intro word hword
    have hshort := List.findSome?_eq_none_iff.mp hnone word hword
    have hfits : word.toList.length ≤ text.length := by
      have hlength := hwords word hword
      omega
    rw [afterWord_append_of_length hfits]
    cases hafter : afterWord (· == ·) word.toList text with
    | none => rfl
    | some more =>
      rw [hafter, Option.bind_some] at hshort
      rw [Option.map_some, Option.bind_some,
        Words.takeWhile_append_cons (W := fun c => isWordChar c || c == '-') rfl]
      exact hshort

theorem afterSecret_cons_cons {sep c : Char} (hsep : isSpace sep = false) (hc : isSpace c = false)
    (text : List Char) :
    (afterSecret (sep :: c :: text)).isSome = (sep == ':' || sep == '=') := by
  rw [afterSecret, List.dropWhile_cons_of_neg (by simp [hsep])]
  simp only [List.dropWhile_cons_of_neg (show ¬isSpace c = true by simp [hc])]
  split
  case isTrue hmark => rw [hmark]; rfl
  case isFalse hmark => rw [Bool.eq_false_iff.mpr hmark]; rfl

theorem stopsAtSpace_matchSecretIn (hwords : ∀ word ∈ words, word.toList.length ≤ 13)
    (ending : List Char) : StopsAtSpace (matchSecretIn words ending) := by
  intro prev text rest hspace hlong hnone
  rw [matchSecretIn_eq] at hnone ⊢
  split at hnone
  case isTrue hprev => rw [if_pos hprev]
  case isFalse hprev =>
    rw [Option.map_eq_none_iff] at hnone
    rw [if_neg hprev, Option.map_eq_none_iff]
    refine List.findSome?_eq_none_iff.mpr fun word hword => ?_
    have hshort := List.findSome?_eq_none_iff.mp hnone word hword
    have hlength := hwords word hword
    rw [afterWord_append_of_length (by omega)]
    cases hafter : afterWord sameLetter word.toList text with
    | none => rfl
    | some more =>
      rw [hafter, Option.bind_some, Option.map_eq_none_iff] at hshort
      rw [Option.map_some, Option.bind_some, Option.map_eq_none_iff]
      obtain ⟨name, rfl, hname⟩ := exists_of_afterWord hafter
      have hrest : 2 ≤ more.length := by
        have hsame := congrArg List.length hname
        rw [List.length_map] at hsame
        rw [List.length_append] at hlong
        omega
      obtain ⟨sep, c, tail, rfl⟩ : ∃ sep c tail, more = sep :: c :: tail := by
        match more, hrest with
        | sep :: c :: tail, _ => exact ⟨sep, c, tail, rfl⟩
      have hsep := hspace sep (by simp)
      have hc := hspace c (by simp)
      have hmark := afterSecret_cons_cons hsep hc tail
      rw [hshort, Option.isSome_none] at hmark
      rw [← Option.not_isSome_iff_eq_none, List.cons_append, List.cons_append,
        afterSecret_cons_cons hsep hc, ← hmark]
      exact Bool.false_ne_true

end

theorem stopsAtSpace_of_mem {m : Matcher} (hm : m ∈ commentPatterns) : StopsAtSpace m := by
  have hhost : ∀ word ∈ hostTokenWords, word.toList.length ≤ 13 := by decide
  have hprovider : ∀ word ∈ providerTokenWords, word.toList.length ≤ 13 := by decide
  have hsecrets : ∀ word ∈ commentSecretWords, word.toList.length ≤ 13 := by decide
  simp only [commentPatterns, List.mem_cons, List.not_mem_nil, or_false] at hm
  rcases hm with rfl | rfl | rfl
  · exact stopsAtSpace_matchTokenRun hhost
  · exact stopsAtSpace_matchTokenRun hprovider
  · exact stopsAtSpace_matchSecretIn hsecrets _

theorem congr_prev_of_mem {m : Matcher} (hm : m ∈ commentPatterns) {p q : Option Char}
    (hpq : p.any isWordChar = q.any isWordChar) (text : List Char) : m p text = m q text := by
  simp only [commentPatterns, List.mem_cons, List.not_mem_nil, or_false] at hm
  rcases hm with rfl | rfl | rfl
  · rw [matchTokenRun, matchTokenRun, hpq]
  · rw [matchTokenRun, matchTokenRun, hpq]
  · rw [matchCommentSecret_eq, matchSecretIn_eq, matchSecretIn_eq, hpq]

theorem Unmatched.congr_prev {m : Matcher} (hm : m ∈ commentPatterns) {p q : Option Char}
    (hpq : p.any isWordChar = q.any isWordChar) {text rest : List Char}
    (h : Unmatched m p text rest) : Unmatched m q text rest := by
  cases text with
  | nil => trivial
  | cons c cs => exact ⟨(congr_prev_of_mem hm hpq _).symm.trans h.1, h.2⟩

/-- What stands before the key in a comment. -/
def keyPlace : String := markerPrefix ++ " v=1 key="

theorem keyPlace_toList : keyPlace.toList =
    ['<', '!', '-', '-', ' ', 'a', '2', 'a', ':', 't', 'e', 'r', 'm', 'i', 'n', 'a', 'l', '-', 'b',
      'r', 'i', 'e', 'f', '-', 'g', 'i', 't', 'h', 'u', 'b', '-', 'e', 'v', 'i', 'd', 'e', 'n', 'c',
      'e', ' ', 'v', '=', '1', ' ', 'k', 'e', 'y', '='] := by
  decide

theorem unmatched_keyPlace {m : Matcher} (hm : m ∈ commentPatterns) (rest : List Char) :
    Unmatched m none keyPlace.toList rest := by
  rw [keyPlace_toList]
  simp only [commentPatterns, List.mem_cons, List.not_mem_nil, or_false] at hm
  rcases hm with rfl | rfl | rfl <;> repeat (refine ⟨rfl, ?_⟩)
  all_goals trivial

/-- The text by which a comment is looked up. -/
def lookedFor (key : String) : String := "key=" ++ key

theorem lookedFor_toList (key : String) :
    (lookedFor key).toList = "key=".toList ++ key.toList := String.toList_append

section

variable {key hash : List Char}

theorem isKeyChar_of_isSpace {c : Char} (hc : isSpace c = true) : isKeyChar c = false := by
  have halnum : c.isAlphanum = false :=
    (Bool.or_eq_false_iff.mp (isWordChar_of_isSpace hc)).1
  have hmarks : ∀ d ∈ "-_.!~*'()%:".toList, isSpace d = false := by decide
  have hne (d : Char) (hd : d ∈ "-_.!~*'()%:".toList) : c ≠ d := by
    rintro rfl
    rw [hmarks c hd] at hc
    cases hc
  have hmark : "-_.!~*'()".toList.contains c = false := by
    rw [List.contains_eq_mem, decide_eq_false_iff_not]
    exact fun hmem => hne c (List.mem_append_left "%:".toList hmem) rfl
  rw [isKeyChar, isUriUnreserved, halnum, hmark, beq_false_of_ne (hne '%' (by decide)),
    beq_false_of_ne (hne ':' (by decide))]
  rfl

theorem KeyText.notMem (hkey : KeyText key hash) {c : Char} (hc : isKeyChar c = false) :
    c ∉ key := fun hmem => Bool.false_ne_true (hc.symm.trans (hkey.chars c hmem))

theorem KeyText.not_isSpace (hkey : KeyText key hash) {c : Char} (hc : c ∈ key) :
    isSpace c = false := by
  rw [Bool.eq_false_iff]
  exact fun hspace => hkey.notMem (isKeyChar_of_isSpace hspace) hc

theorem KeyText.keyLike (hkey : KeyText key hash) : KeyLike ("key=".toList ++ key) where
  noOpen := by
    rw [List.mem_append]
    exact not_or.mpr ⟨by decide, hkey.notMem (by decide)⟩
  noClose := by
    rw [List.mem_append]
    exact not_or.mpr ⟨by decide, hkey.notMem (by decide)⟩
  long := by
    rw [List.length_append]
    exact Nat.add_le_add_left hkey.long 4
  ending := by
    obtain ⟨u, rfl⟩ := hkey.ending
    exact ⟨"key=".toList ++ (u ++ [':']), hash, by simp, hkey.length, hkey.word⟩

/-- In a comment a space follows the key, and nothing that follows makes a match in it. -/
theorem KeyText.unmatched_space (hkey : KeyText key hash) {m : Matcher} (hm : m ∈ commentPatterns)
    (h : hasMatch m none key = false) (rest : List Char) :
    Unmatched m (some '=') key (' ' :: rest) := by
  have hfirst : Unmatched m none key [] := unmatched_iff_hasMatch.mpr h
  have hnone : Unmatched m (some '=') key [] :=
    Unmatched.congr_prev (p := none) (q := some '=') hm rfl hfirst
  suffices hsuffix : ∀ b a, key = a ++ b → Unmatched m (lastRead (some '=') a) b [] →
      Unmatched m (lastRead (some '=') a) b (' ' :: rest) from hsuffix key [] rfl hnone
  intro b
  induction b with
  | nil => exact fun _ _ _ => trivial
  | cons c cs ih =>
    intro a hsplit hb
    have hlast : lastRead (some '=') (a ++ [c]) = some c := by rw [lastRead_append]; rfl
    have hrest := ih (a ++ [c]) (by rw [hsplit, List.append_assoc]; rfl)
      (by rw [hlast]; exact hb.2)
    rw [hlast] at hrest
    refine ⟨?_, hrest⟩
    by_cases hlong : 16 ≤ (c :: cs).length
    · have hspace : ∀ d ∈ c :: cs, isSpace d = false := fun d hd =>
        hkey.not_isSpace (by rw [hsplit]; exact List.mem_append_right _ hd)
      have hfirst := hb.1
      rw [List.append_nil] at hfirst
      exact stopsAtSpace_of_mem hm _ _ rest hspace hlong hfirst
    · have hword := hkey.keyLike.inWord (a := "key=".toList ++ a) (b := c :: cs)
        (by rw [hsplit, List.append_assoc]) (by omega) none
      rw [lastRead_append] at hword
      have hbordered : Bordered m := (brackets_of_mem hm).bordered
      exact hbordered.eq_none_of_word hword _

/-- What follows the key in a comment. -/
def keyEnd : List Char := " manifest=sha256:".toList

theorem unmatched_keyEnd {m : Matcher} (hm : m ∈ commentPatterns) (prev : Option Char)
    (rest : List Char) : Unmatched m prev keyEnd rest := by
  have hbordered : Bordered m := (brackets_of_mem hm).bordered
  have hend : keyEnd = ' ' :: "manifest=sha256:".toList := by decide
  rw [hend]
  refine ⟨hbordered.eq_none_of_atBreak (atBreak_cons rfl _), ?_⟩
  simp only [commentPatterns, List.mem_cons, List.not_mem_nil, or_false] at hm
  rcases hm with rfl | rfl | rfl <;> repeat (refine ⟨rfl, ?_⟩)
  all_goals trivial

/-- The redactions of what stands after `keyPlace`. -/
def redactAfter (text : List Char) : List Char :=
  commentPatterns.foldl (fun text m => replaceMatches m (some '=') 0 text) text

theorem redactComment_keyPlace (text : List Char) :
    redactComment (keyPlace.toList ++ text) = keyPlace.toList ++ redactAfter text := by
  have hlast : lastRead none keyPlace.toList = some '=' := by rw [keyPlace_toList]; rfl
  suffices hfold : ∀ patterns : List Matcher, (∀ m ∈ patterns, m ∈ commentPatterns) → ∀ text,
      patterns.foldl (fun text m => replaceMatches m none 0 text) (keyPlace.toList ++ text) =
        keyPlace.toList ++ patterns.foldl (fun text m => replaceMatches m (some '=') 0 text) text by
    exact hfold commentPatterns (fun _ hm => hm) text
  intro patterns hpatterns
  induction patterns with
  | nil => exact fun _ => rfl
  | cons m patterns ih =>
    intro text
    have hm := hpatterns m (.head _)
    rw [List.foldl_cons, (unmatched_keyPlace hm text).replaceMatches, hlast]
    exact ih (fun m' hm' => hpatterns m' (.tail _ hm')) _

/-- The key stays in the comment if no pattern matches in it. -/
theorem KeyText.stays (hkey : KeyText key hash)
    (h : ∀ m ∈ commentPatterns, hasMatch m none key = false) (rest : List Char) :
    ∃ rest', redactAfter (key ++ (keyEnd ++ rest)) = key ++ (keyEnd ++ rest') := by
  suffices hfold : ∀ patterns : List Matcher, (∀ m ∈ patterns, m ∈ commentPatterns) → ∀ rest,
      ∃ rest', patterns.foldl (fun text m => replaceMatches m (some '=') 0 text)
        (key ++ (keyEnd ++ rest)) = key ++ (keyEnd ++ rest') by
    exact hfold commentPatterns (fun _ hm => hm) rest
  intro patterns hpatterns
  induction patterns with
  | nil => exact fun rest => ⟨rest, rfl⟩
  | cons m patterns ih =>
    intro rest
    have hm := hpatterns m (.head _)
    have hend : keyEnd ++ rest = ' ' :: ("manifest=sha256:".toList ++ rest) := rfl
    have hunmatched : Unmatched m (some '=') (key ++ keyEnd) rest := by
      rw [unmatched_append, hend]
      exact ⟨hkey.unmatched_space hm (h m hm) _, unmatched_keyEnd hm _ rest⟩
    have hreplace := hunmatched.replaceMatches
    simp only [List.append_assoc] at hreplace
    rw [List.foldl_cons, hreplace]
    exact ih (fun m' hm' => hpatterns m' (.tail _ hm')) _

/-- What a redacted comment names as the key, it named before. -/
theorem KeyText.stood (hkey : KeyText key hash) {text rest : List Char}
    (h : redactAfter text = key ++ rest) : ∃ rest', text = key ++ rest' := by
  suffices hfold : ∀ patterns : List Matcher, (∀ m ∈ patterns, m ∈ commentPatterns) → ∀ text,
      patterns.foldl (fun text m => replaceMatches m (some '=') 0 text) text = key ++ rest →
        ∃ rest', text = key ++ rest' by
    exact hfold commentPatterns (fun _ hm => hm) text h
  intro patterns hpatterns
  induction patterns with
  | nil => exact fun _ h => ⟨rest, h⟩
  | cons m patterns ih =>
    intro text h
    obtain ⟨rest', hrest⟩ := ih (fun m' hm' => hpatterns m' (.tail _ hm')) _ h
    have hfirst : replaceMatches m (lastRead none "key=".toList) 0 text = key ++ rest' := hrest
    obtain ⟨rest'', htext, -⟩ := (brackets_of_mem (hpatterns m (.head _))).goes_on hkey.keyLike rfl
      (by decide) hfirst
    exact ⟨rest'', htext⟩

/-- A key that begins another one ends in the same digest. -/
theorem KeyText.eq_of_append {key' hash' rest : List Char} (hkey : KeyText key hash)
    (hkey' : KeyText key' hash') (h : key' = key ++ rest) : hash = hash' := by
  obtain ⟨u, hending⟩ := hkey.ending
  obtain ⟨u', hending'⟩ := hkey'.ending
  have hrest : ':' ∉ rest := by
    have hcount := hkey'.colons
    rw [h, List.count_append, hkey.colons] at hcount
    exact List.count_eq_zero.mp (by omega)
  have hcolon {hash : List Char} (hword : ∀ c ∈ hash, isWordChar c = true) : ':' ∉ hash :=
    fun hc => absurd (hword ':' hc) (by decide)
  have hsame : u' ++ ':' :: hash' = u ++ ':' :: (hash ++ rest) := by
    rw [← hending', h, hending, List.append_assoc, List.cons_append]
  have hhash := (Text.append_cons_inj_last (hcolon hkey'.word)
    (by rw [List.mem_append]; exact not_or.mpr ⟨hcolon hkey.word, hrest⟩) hsame).2
  have hnil : rest = [] := by
    have hlength := congrArg List.length hhash
    rw [hkey'.length, List.length_append, hkey.length] at hlength
    exact List.length_eq_zero_iff.mp (by omega)
  rw [hhash, hnil, List.append_nil]

/-- A comment that names a key at its beginning was written for the digest of the key. -/
theorem KeyText.eq_of_redactAfter {key' hash' rest rest' : List Char} (hkey : KeyText key hash)
    (hkey' : KeyText key' hash') (h : redactAfter (key' ++ (keyEnd ++ rest)) = key ++ rest') :
    hash = hash' := by
  obtain ⟨rest'', hrest⟩ := hkey.stood h
  have hend : keyEnd ++ rest = ' ' :: ("manifest=sha256:".toList ++ rest) := rfl
  obtain ⟨e, hlonger, -⟩ | ⟨e, hshorter, htail⟩ := List.append_eq_append_iff.mp hrest.symm
  · exact hkey.eq_of_append hkey' hlonger
  · cases e with
    | nil =>
      have hsame : key' = key ++ [] := by rw [hshorter, List.append_nil, List.append_nil]
      exact hkey.eq_of_append hkey' hsame
    | cons c cs =>
      rw [hend] at htail
      obtain ⟨rfl, -⟩ := List.cons_eq_cons.mp htail
      exact absurd (hshorter ▸ List.mem_append_right _ (.head _)) (hkey.notMem (by decide))

end

end A2ABroker
