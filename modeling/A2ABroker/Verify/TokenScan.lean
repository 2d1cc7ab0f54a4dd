import A2ABroker.Core.TaskEventStream
import A2ABroker.Verify.TokenMatches

/-! # Tokens in operator texts

What the redactions of an operator text do to the tokens of a code host. The patterns are replaced
one after the other, and all of it is read as one scan: `exposed` goes from left to right and looks
for a token outside the matches of the patterns and outside every path, and to replace a pattern
first is to let the scan skip its matches (`exposed_replaceMatches`). -/

namespace A2ABroker

open Words GitHubProjection

/-! ## The scan -/

def isPathChar (c : Char) : Bool := isWordChar c || c == '.' || c == '/' || c == '-'

/-- How far a path has been read: a place where one may start, a drive letter, its colon, and the
path from its first slash on. -/
inductive PathRead where
  | out | edge | drive | colon | path
  deriving DecidableEq

def PathRead.next (c : Char) (state : PathRead) : PathRead :=
  if isSpace c then edge
  else match state with
    | out => out
    | edge => if c == '/' then path else if c.isAlpha then drive else out
    | drive => if c == ':' then colon else out
    | colon => if c == '/' then path else out
    | path => if isPathChar c then path else out

/-- The text is read from left to right, and a token starts outside the matches of `m` and outside
every path. -/
def exposed (m : Matcher) : Option Char → PathRead → Nat → List Char → Bool
  | _, _, _, [] => false
  | _, state, skip + 1, c :: cs => exposed m (some c) state skip cs
  | prev, state, 0, c :: cs =>
    match m prev (c :: cs) with
    | some (_, n) => exposed m (some c) .out (n - 1) cs
    | none => (state != .path && !prev.any isWordChar && startsToken (c :: cs)) ||
        exposed m (some c) (state.next c) 0 cs

variable {m m' : Matcher} {prev : Option Char} {state : PathRead}

theorem exposed_skip (m : Matcher) (prev : Option Char) (state : PathRead)
    (read rest : List Char) : exposed m prev state read.length (read ++ rest) =
      exposed m (lastRead prev read) state 0 rest := by
  induction read generalizing prev with
  | nil => rfl
  | cons c cs ih => exact ih (some c)

theorem exposed_of_some {c : Char} {cs rest r : List Char}
    (hmatch : m prev (c :: (cs ++ rest)) = some (r, cs.length + 1)) :
    exposed m prev state 0 (c :: (cs ++ rest)) = exposed m (lastRead (some c) cs) .out 0 rest := by
  rw [exposed, hmatch]
  exact exposed_skip m (some c) .out cs rest

theorem exposed_of_none {c : Char} {cs : List Char} (hmatch : m prev (c :: cs) = none) :
    exposed m prev state 0 (c :: cs) =
      ((state != .path && !prev.any isWordChar && startsToken (c :: cs)) ||
        exposed m (some c) (state.next c) 0 cs) := by
  rw [exposed, hmatch]

/-- A character that starts no token and no match. -/
theorem exposed_cons_quiet {c : Char} {cs : List Char} (hmatch : m prev (c :: cs) = none)
    (hquiet : startsToken (c :: cs) = false) :
    exposed m prev state 0 (c :: cs) = exposed m (some c) (state.next c) 0 cs := by
  rw [exposed_of_none hmatch, hquiet, Bool.and_false, Bool.false_or]

theorem exposed_cons_of_not (hm : Bordered m) {c : Char} (hc : isWordChar c = false)
    (cs : List Char) :
    exposed m prev state 0 (c :: cs) = exposed m (some c) (state.next c) 0 cs :=
  exposed_cons_quiet (hm.eq_none_of_atBreak (atBreak_cons hc cs))
    (sees_startsToken.cons_of_not hc cs)

theorem exposed_of_atBreak (hm : Bordered m) {text : List Char} (hbreak : AtBreak text)
    (p q : Option Char) : exposed m p state 0 text = exposed m q state 0 text := by
  cases text with
  | nil => rw [exposed, exposed]
  | cons c cs => rw [exposed_cons_of_not hm hbreak.cons, exposed_cons_of_not hm hbreak.cons]

/-- The rest of a word that has begun. -/
theorem exposed_word (hm : Bordered m) {read : List Char} (hread : ∀ c ∈ read, isWordChar c = true)
    (hprev : prev.any isWordChar = true) (rest : List Char) :
    exposed m prev state 0 (read ++ rest) =
      exposed m (lastRead prev read) (read.foldl (fun state c => state.next c) state) 0 rest := by
  induction read generalizing prev state with
  | nil => rfl
  | cons c cs ih =>
    have hskip : exposed m prev state 0 (c :: (cs ++ rest)) =
        exposed m (some c) (state.next c) 0 (cs ++ rest) := by
      rw [exposed_of_none (hm.eq_none_of_word hprev _), hprev, Bool.not_true, Bool.and_false,
        Bool.false_and, Bool.false_or]
    exact hskip.trans (ih (fun d hd => hread d (.tail _ hd)) (hread c (.head _)))

theorem Bordered.atBreak_replaceMatches (hm : Bordered m) {text : List Char}
    (hbreak : AtBreak text) : AtBreak (replaceMatches m prev 0 text) := by
  cases text with
  | nil => exact hbreak
  | cons c cs =>
    rw [replaceMatches_of_none (hm.eq_none_of_atBreak hbreak)]
    exact hbreak

theorem Bordered.replaceMatches_of_atBreak (hm : Bordered m) {text : List Char}
    (hbreak : AtBreak text) (p q : Option Char) :
    replaceMatches m p 0 text = replaceMatches m q 0 text := by
  cases text with
  | nil => rw [replaceMatches, replaceMatches]
  | cons c cs =>
    rw [replaceMatches_of_none (hm.eq_none_of_atBreak hbreak),
      replaceMatches_of_none (hm.eq_none_of_atBreak hbreak)]

/-- Where the matches of `m'` have been replaced, `m` matches where it matched before. -/
def ReadsThrough (m m' : Matcher) : Prop := ∀ prev c cs, m' prev (c :: cs) = none →
  (m prev (c :: cs) = none ∧ m prev (c :: replaceMatches m' (some c) 0 cs) = none) ∨
    ∃ read read' rest r r' q, cs = read ++ rest ∧ m prev (c :: cs) = some (r, read.length + 1) ∧
      replaceMatches m' (some c) 0 cs = read' ++ replaceMatches m' q 0 rest ∧
      m prev (c :: replaceMatches m' (some c) 0 cs) = some (r', read'.length + 1)

/-- To replace the matches of `m'` first is to let the scan skip them. -/
theorem exposed_replaceMatches (hm : Bordered m) (hm' : Bordered m') (hreads : ReadsThrough m m')
    (hmute : ∀ {prev text r n}, m' prev text = some (r, n) → ∀ state rest,
      exposed m prev state 0 (r ++ rest) = exposed m (some ']') .out 0 rest)
    (prev : Option Char) (state : PathRead) (text : List Char) :
    exposed m prev state 0 (replaceMatches m' prev 0 text) =
      exposed (fun prev text => (m' prev text).or (m prev text)) prev state 0 text := by
  induction hlength : text.length using Nat.strong_induction_on generalizing prev state text with
  | _ length ih =>
  cases text with
  | nil => rw [replaceMatches, exposed, exposed]
  | cons c cs =>
    rw [List.length_cons] at hlength
    cases hmatch : m' prev (c :: cs) with
    | some result =>
      obtain ⟨r, n⟩ := result
      obtain ⟨-, d, read, rest, htext, -, rfl, hbreak⟩ := hm' hmatch
      obtain ⟨rfl, rfl⟩ := List.cons_eq_cons.mp htext
      rw [replaceMatches_of_some hmatch, hmute hmatch,
        exposed_of_some (r := r) (by rw [hmatch, Option.some_or]),
        exposed_of_atBreak hm (hm'.atBreak_replaceMatches hbreak) _ (lastRead (some c) read)]
      exact ih rest.length (by rw [← hlength, List.length_append]; omega) _ _ rest rfl
    | none =>
      rw [replaceMatches_of_none hmatch]
      obtain ⟨hnone, hnone'⟩ | ⟨read, read', rest, r, r', q, rfl, hsome, htext, hsome'⟩ :=
        hreads prev c cs hmatch
      · have hword : startsToken (c :: replaceMatches m' (some c) 0 cs) =
            startsToken (c :: cs) := by
          refine sees_startsToken.congr ?_
          rw [List.takeWhile_cons, List.takeWhile_cons]
          split
          case isTrue hc => rw [hm'.keepsWords.takeWhile_replaceMatches (some c) hc]
          case isFalse => rfl
        rw [exposed_of_none hnone', exposed_of_none (by rw [hmatch, Option.none_or, hnone]), hword]
        congr 1
        exact ih cs.length (by omega) _ _ cs rfl
      · obtain ⟨-, d, ds, rest', hcons, -, hlen, hbreak⟩ := hm hsome
        have hrest : rest = rest' := by
          have heq := (List.cons_eq_cons.mp hcons).2
          exact (List.append_inj heq (by omega)).2
        subst hrest
        rw [htext] at hsome' ⊢
        rw [exposed_of_some hsome',
          exposed_of_some (r := r) (by rw [hmatch, Option.none_or, hsome]),
          hm'.replaceMatches_of_atBreak hbreak q (lastRead (some c) read),
          exposed_of_atBreak hm (hm'.atBreak_replaceMatches hbreak) _ (lastRead (some c) read)]
        exact ih rest.length (by rw [← hlength, List.length_append]; omega) _ _ rest rfl

/-! ## The patterns before paths -/

/-- No pattern but the paths. -/
def noMatch : Matcher := fun _ _ => none

theorem bordered_noMatch : Bordered noMatch := nofun

theorem readsThrough_noMatch (m' : Matcher) : ReadsThrough noMatch m' :=
  fun _ _ _ _ => .inl ⟨rfl, rfl⟩

theorem PathRead.next_bracket (state : PathRead) : state.next '[' = .out := by
  cases state <;> rfl

theorem exposed_noMatch_quiet {read : List Char} (hread : ∀ c ∈ read, c ≠ 'g') (rest : List Char) :
    exposed noMatch prev state 0 (read ++ rest) = exposed noMatch (lastRead prev read)
      (read.foldl (fun state c => state.next c) state) 0 rest := by
  induction read generalizing prev state with
  | nil => rfl
  | cons c cs ih =>
    exact (exposed_cons_quiet rfl (startsToken_cons_of_ne (hread c (.head _)) _)).trans
      (ih fun d hd => hread d (.tail _ hd))

theorem ne_g_of_name {word : String} (hword : word ∈ secretWords) {name : List Char}
    (hname : name.map Char.toLower = word.toList) : ∀ c ∈ name, c ≠ 'g' := by
  have hwords : ∀ word ∈ secretWords, 'g' ∉ word.toList := by decide
  rintro c hc rfl
  apply hwords word hword
  rw [← hname]
  exact List.mem_map_of_mem (f := Char.toLower) hc

/-- The replacement of a secret is read over. -/
theorem exposed_secret_replacement {text r : List Char} {n : Nat}
    (hmatch : matchSecret prev text = some (r, n)) (state : PathRead) (rest : List Char) :
    exposed noMatch prev state 0 (r ++ rest) = exposed noMatch (some ']') .out 0 rest := by
  have hprev := (bordered_matchSecret hmatch).1
  have hsome := hmatch
  rw [matchSecret_eq, hprev, if_neg Bool.false_ne_true] at hsome
  obtain ⟨⟨word, tail⟩, hfound, -⟩ := Option.map_eq_some_iff.mp hsome
  obtain ⟨c, cs, name, rfl, -, -, hname, heq⟩ := matchSecret_of_secretMatch hprev hfound
  cases hmatch.symm.trans heq
  have hquiet : ∀ c ∈ name ++ "=[redacted]".toList, c ≠ 'g' := by
    intro c hc
    rcases List.mem_append.mp hc with hc | hc
    · exact ne_g_of_name (exists_of_secretMatch hfound).1 hname c hc
    · have hfixed : ∀ c ∈ "=[redacted]".toList, c ≠ 'g' := by decide
      exact hfixed c hc
  rw [exposed_noMatch_quiet hquiet, lastRead_append, List.foldl_append]
  generalize name.foldl (fun state c => state.next c) state = state'
  cases state' <;> rfl

theorem secretMatch_cons_of_ne {c : Char}
    (hc : ∀ word ∈ secretWords, word.toList.head? ≠ some c.toLower) (cs : List Char) :
    secretMatch (c :: cs) = none := by
  cases hfound : secretMatch (c :: cs) with
  | none => rfl
  | some result =>
    obtain ⟨hword, -, name, read, htext, hname⟩ := exists_of_secretMatch hfound
    have hwords : ∀ word ∈ secretWords, word.toList ≠ [] := by decide
    cases name with
    | nil => exact absurd hname.symm (hwords _ hword)
    | cons d ds =>
      obtain ⟨rfl, -⟩ := List.cons_eq_cons.mp htext
      refine absurd ?_ (hc _ hword)
      rw [← hname, List.map_cons, List.head?_cons]

/-- The replacement of a token is read over. -/
theorem exposed_token_replacement {text r : List Char} {n : Nat}
    (hmatch : matchToken prev text = some (r, n)) (state : PathRead) (rest : List Char) :
    exposed matchSecret prev state 0 (r ++ rest) = exposed matchSecret (some ']') .out 0 rest := by
  have hr : matchSecret (some '[') ('r' :: ("edacted".toList ++ ']' :: rest)) = none := by
    rw [matchSecret_eq, secretMatch_cons_of_ne (by decide), Option.map_none, ite_self]
  rw [(exists_of_matchToken hmatch).2.1]
  calc exposed matchSecret prev state 0 ("[redacted]".toList ++ rest)
      = exposed matchSecret (some '[') (state.next '[') 0
          ('r' :: ("edacted".toList ++ ']' :: rest)) :=
        exposed_cons_of_not bordered_matchSecret rfl _
    _ = exposed matchSecret (some 'r') .out 0 ("edacted".toList ++ ']' :: rest) := by
        rw [PathRead.next_bracket, exposed_cons_quiet hr (startsToken_cons_of_ne (by decide) _)]
        rfl
    _ = exposed matchSecret (some 'd') .out 0 (']' :: rest) :=
        exposed_word bordered_matchSecret (by decide) rfl _
    _ = exposed matchSecret (some ']') .out 0 rest :=
        exposed_cons_of_not bordered_matchSecret rfl _

theorem exposed_replace_secrets (prev : Option Char) (state : PathRead) (text : List Char) :
    exposed noMatch prev state 0 (replaceMatches matchSecret prev 0 text) =
      exposed matchSecret prev state 0 text := by
  rw [exposed_replaceMatches bordered_noMatch bordered_matchSecret (readsThrough_noMatch _)
    exposed_secret_replacement]
  congr 1
  funext prev text
  exact Option.or_none

/-! ## Secrets after tokens -/

/-- No token starts within the characters of a name: each of them goes on with a word or is a letter
that starts no token. -/
def unbroken : Bool → List Char → Bool
  | _, [] => true
  | inWord, w :: ws => (inWord || w == 'k') && unbroken (isWordChar w) ws

theorem unbroken_mono {p q : Bool} {ws : List Char} (h : unbroken p ws = true)
    (hpq : p = true → q = true) : unbroken q ws = true := by
  cases ws with
  | nil => rfl
  | cons w ws =>
    rw [unbroken, Bool.and_eq_true, Bool.or_eq_true] at h ⊢
    exact ⟨h.1.imp_left hpq, h.2⟩

theorem afterWord_replace (prev : Option Char) {word : List Char}
    (hword : unbroken (prev.any isWordChar) word = true) (text : List Char) :
    ∃ q, afterWord sameLetter word (replaceMatches matchToken prev 0 text) =
      (afterWord sameLetter word text).map (replaceMatches matchToken q 0) := by
  have hwords : ∀ word ∈ tokenWords,
      (word.toList ++ ['-']).head?.any (fun c => c.toLower != 'k') = true := by decide
  induction word generalizing prev text with
  | nil => exact ⟨prev, rfl⟩
  | cons w ws ih =>
    rw [unbroken, Bool.and_eq_true, Bool.or_eq_true] at hword
    cases text with
    | nil => exact ⟨prev, rfl⟩
    | cons c cs =>
      cases hmatch : matchToken prev (c :: cs) with
      | none =>
        rw [replaceMatches_of_none hmatch, afterWord, afterWord]
        split
        case isTrue hwc =>
          refine ih (some c) (unbroken_mono hword.2 fun hw => ?_) cs
          rw [beq_iff_eq.mp hwc] at hw
          exact isWordChar_of_toLower hw
        case isFalse => exact ⟨prev, rfl⟩
      | some result =>
        obtain ⟨r, n⟩ := result
        obtain ⟨hprev, rfl, token, htoken, run, rest, htext, -⟩ := exists_of_matchToken hmatch
        have hw : w = 'k' := by
          rw [hprev] at hword
          exact beq_iff_eq.mp (hword.1.resolve_left Bool.false_ne_true)
        have hc : c.toLower ≠ 'k' := by
          have hhead := hwords token htoken
          cases hchars : token.toList ++ ['-'] with
          | nil => rw [hchars] at hhead; cases hhead
          | cons d ds =>
            rw [hchars] at htext hhead
            obtain ⟨rfl, -⟩ := List.cons_eq_cons.mp htext
            exact bne_iff_ne.mp hhead
        refine ⟨prev, ?_⟩
        rw [replaceMatches, hmatch, afterWord, if_neg (by rw [hw, beq_iff_eq]; exact hc.symm)]
        rw [hw]
        rfl

theorem dropWhile_isSpace_replace (prev : Option Char) (text : List Char) :
    ∃ q, (replaceMatches matchToken prev 0 text).dropWhile isSpace =
      replaceMatches matchToken q 0 (text.dropWhile isSpace) := by
  induction text generalizing prev with
  | nil => exact ⟨prev, rfl⟩
  | cons c cs ih =>
    rw [List.dropWhile_cons]
    split
    case isTrue hc =>
      rw [replaceMatches_of_none (bordered_matchToken.eq_none_of_atBreak
        (atBreak_cons (isWordChar_of_isSpace hc) cs)), List.dropWhile_cons, if_pos hc]
      exact ih (some c)
    case isFalse hc =>
      refine ⟨prev, ?_⟩
      cases hmatch : matchToken prev (c :: cs) with
      | none => rw [replaceMatches_of_none hmatch, List.dropWhile_cons, if_neg hc]
      | some result =>
        obtain ⟨r, n⟩ := result
        obtain ⟨-, rfl, -⟩ := exists_of_matchToken hmatch
        rw [replaceMatches, hmatch]
        rfl

theorem replaceMatches_eq_nil_iff {prev : Option Char} {text : List Char} :
    replaceMatches matchToken prev 0 text = [] ↔ text = [] := by
  cases text with
  | nil => rw [replaceMatches]
  | cons c cs =>
    cases hmatch : matchToken prev (c :: cs) with
    | none => simp [replaceMatches_of_none hmatch]
    | some result =>
      obtain ⟨r, n⟩ := result
      obtain ⟨-, rfl, -⟩ := exists_of_matchToken hmatch
      rw [replaceMatches, hmatch]
      exact iff_of_false (List.append_ne_nil_of_left_ne_nil (by decide) _)
        (List.cons_ne_nil c cs)

theorem dropWhile_value_replace (prev : Option Char) (text : List Char) :
    (replaceMatches matchToken prev 0 text).dropWhile (fun c => !isSpace c) =
      replaceMatches matchToken (some ' ') 0 (text.dropWhile fun c => !isSpace c) := by
  induction hlength : text.length using Nat.strong_induction_on generalizing prev text with
  | _ length ih =>
  cases text with
  | nil => rfl
  | cons c cs =>
    rw [List.length_cons] at hlength
    cases hmatch : matchToken prev (c :: cs) with
    | none =>
      rw [replaceMatches_of_none hmatch, List.dropWhile_cons, List.dropWhile_cons]
      split
      case isTrue hc => exact ih cs.length (by omega) (some c) cs rfl
      case isFalse hc =>
        have hspace : isSpace c = true := by simpa using hc
        have hbreak := atBreak_cons (isWordChar_of_isSpace hspace) cs
        rw [replaceMatches_of_none (bordered_matchToken.eq_none_of_atBreak hbreak)]
    | some result =>
      obtain ⟨r, n⟩ := result
      obtain ⟨-, rfl, word, hword, token, rest, htext, rfl, htoken, -⟩ :=
        exists_of_matchToken hmatch
      let read := word.toList ++ ['-'] ++ token
      have hsplit : c :: cs = read ++ rest := by rw [htext, List.append_assoc _ token]
      have hread : ∀ c ∈ read, (!isSpace c) = true := by
        have hwords : ∀ word ∈ tokenWords, ∀ c ∈ word.toList ++ ['-'], (!isSpace c) = true := by
          decide
        intro c hc
        rcases List.mem_append.mp hc with hc | hc
        · exact hwords word hword c hc
        · have hchar := htoken c hc
          rw [Bool.or_eq_true, beq_iff_eq] at hchar
          cases hspace : isSpace c with
          | false => rfl
          | true =>
            rw [isWordChar_of_isSpace hspace] at hchar
            rw [hchar.resolve_left Bool.false_ne_true] at hspace
            cases hspace
      have hreplacement : ∀ c ∈ "[redacted]".toList, (!isSpace c) = true := by decide
      have hlt : rest.length < length := by
        have heq := congrArg List.length hsplit
        rw [List.length_cons, List.length_append, List.length_append, List.length_append,
          List.length_singleton] at heq
        omega
      have hlen : read.length = word.length + 1 + token.length := by
        rw [List.length_append, List.length_append, String.length_toList, List.length_singleton]
      rw [hsplit] at hmatch ⊢
      rw [replaceMatches_of_append (by simp [read]) (by rw [hmatch, hlen]),
        List.dropWhile_append_of_pos hreplacement, List.dropWhile_append_of_pos hread]
      exact ih rest.length hlt _ rest rfl

theorem afterSecret_replace (prev : Option Char) (text : List Char) :
    afterSecret (replaceMatches matchToken prev 0 text) =
      (afterSecret text).map (replaceMatches matchToken (some ' ') 0) := by
  obtain ⟨q, hq⟩ := dropWhile_isSpace_replace prev text
  rw [afterSecret, afterSecret, hq]
  cases text.dropWhile isSpace with
  | nil => rfl
  | cons sep rest =>
    cases hsep : sep == ':' || sep == '=' with
    | true =>
      have hword : isWordChar sep = false := by
        rw [Bool.or_eq_true, beq_iff_eq, beq_iff_eq] at hsep
        obtain rfl | rfl := hsep <;> rfl
      obtain ⟨q', hq'⟩ := dropWhile_isSpace_replace (some sep) rest
      rw [replaceMatches_of_none (bordered_matchToken.eq_none_of_atBreak (atBreak_cons hword rest))]
      simp only [hsep, if_true, hq', List.isEmpty_iff, replaceMatches_eq_nil_iff,
        dropWhile_value_replace]
      split <;> rfl
    | false =>
      simp only [hsep, Bool.false_eq_true, if_false, Option.map_none]
      cases hmatch : matchToken q (sep :: rest) with
      | none => simp only [replaceMatches_of_none hmatch, hsep, Bool.false_eq_true, if_false]
      | some result =>
        obtain ⟨r, n⟩ := result
        obtain ⟨-, rfl, -⟩ := exists_of_matchToken hmatch
        rw [replaceMatches, hmatch]
        rfl

theorem findSome?_congr {α β : Type} {f g : α → Option β} {l : List α} (h : ∀ a ∈ l, f a = g a) :
    l.findSome? f = l.findSome? g := by
  induction l with
  | nil => rfl
  | cons a l ih =>
    rw [List.findSome?_cons, List.findSome?_cons, h a (.head _), ih fun b hb => h b (.tail _ hb)]

theorem secretMatch_replace (c : Char) (cs : List Char) :
    secretMatch (c :: replaceMatches matchToken (some c) 0 cs) =
      (secretMatch (c :: cs)).map (Prod.map id (replaceMatches matchToken (some ' ') 0)) := by
  have hwords : ∀ word ∈ secretWords, unbroken true word.toList = true ∧
    word.toList.head?.any isWordChar = true := by decide
  have hword (word : String) (hmem : word ∈ secretWords) :
      ∃ q, afterWord sameLetter word.toList (c :: replaceMatches matchToken (some c) 0 cs) =
        (afterWord sameLetter word.toList (c :: cs)).map (replaceMatches matchToken q 0) := by
    obtain ⟨hbroken, hhead⟩ := hwords word hmem
    cases hchars : word.toList with
    | nil => rw [hchars] at hhead; cases hhead
    | cons w ws =>
      rw [hchars] at hbroken hhead
      have hw : isWordChar w = true := hhead
      rw [unbroken, Bool.true_or, Bool.true_and, hw] at hbroken
      rw [afterWord, afterWord]
      split
      case isTrue hwc =>
        rw [beq_iff_eq.mp hwc] at hw
        have hc := isWordChar_of_toLower hw
        exact afterWord_replace (some c) (by rw [Option.any_some, hc]; exact hbroken) cs
      case isFalse => exact ⟨none, rfl⟩
  rw [secretMatch, secretMatch, List.map_findSome?]
  refine findSome?_congr fun word hmem => ?_
  obtain ⟨q, hq⟩ := hword word hmem
  simp only [Function.comp_apply]
  rw [hq]
  cases afterWord sameLetter word.toList (c :: cs) with
  | none => rfl
  | some rest =>
    rw [Option.map_some, Option.bind_some, Option.bind_some, afterSecret_replace, Option.map_map,
      Option.map_map]
    rfl

/-- A secret is found where one was before the tokens were replaced. -/
theorem readsThrough_matchToken : ReadsThrough matchSecret matchToken := by
  intro prev c cs hmatch
  cases hprev : prev.any isWordChar with
  | true =>
    exact .inl ⟨bordered_matchSecret.eq_none_of_word hprev _,
      bordered_matchSecret.eq_none_of_word hprev _⟩
  | false =>
    have hreplaced := secretMatch_replace c cs
    cases hfound : secretMatch (c :: cs) with
    | none =>
      rw [hfound] at hreplaced
      exact .inl ⟨by rw [matchSecret_eq, hfound, Option.map_none, ite_self],
        by rw [matchSecret_eq, hreplaced, Option.map_none, Option.map_none, ite_self]⟩
    | some result =>
      obtain ⟨word, tail⟩ := result
      rw [hfound] at hreplaced
      obtain ⟨d, read, name, htext, -, -, -, hsome⟩ := matchSecret_of_secretMatch hprev hfound
      obtain ⟨d', read', name', htext', -, -, -, hsome'⟩ :=
        matchSecret_of_secretMatch hprev hreplaced
      exact .inr ⟨read, read', tail, _, _, some ' ', (List.cons_eq_cons.mp htext).2, hsome,
        (List.cons_eq_cons.mp htext').2, hsome'⟩

theorem exposed_replace_tokens (prev : Option Char) (state : PathRead) (text : List Char) :
    exposed matchSecret prev state 0 (replaceMatches matchToken prev 0 text) =
      exposed (fun prev text => (matchToken prev text).or (matchSecret prev text)) prev state 0
        text :=
  exposed_replaceMatches bordered_matchSecret bordered_matchToken readsThrough_matchToken
    exposed_token_replacement prev state text

/-! ## Paths -/

theorem not_isSpace_of_isPathChar {c : Char} (hc : isPathChar c = true) : isSpace c = false := by
  cases hspace : isSpace c with
  | false => rfl
  | true =>
    rw [isPathChar, isWordChar_of_isSpace hspace] at hc
    simp only [Bool.false_or, Bool.or_eq_true, beq_iff_eq] at hc
    obtain (rfl | rfl) | rfl := hc <;> cases hspace

/-- The rest of a path, `start` characters after its start. -/
def pathRun (start : Nat) (rest : List Char) : Option Nat :=
  let run := rest.takeWhile isPathChar
  if run.isEmpty then none else some (start + run.length)

theorem pathLength_slash (rest : List Char) : pathLength ('/' :: rest) = pathRun 1 rest := by
  unfold pathLength
  split
  · rename_i letter tail htext
    obtain ⟨rfl, rfl⟩ := List.cons_eq_cons.mp htext
    rfl
  · rfl

theorem pathLength_drive {l : Char} (hl : l.isAlpha = true) (rest : List Char) :
    pathLength (l :: ':' :: '/' :: rest) = pathRun 3 rest := by
  unfold pathLength
  simp only [hl, if_true]
  rfl

theorem pathLength_eq_none {text : List Char} (hslash : ∀ rest, text ≠ '/' :: rest)
    (hdrive : ∀ l rest, l.isAlpha = true → text ≠ l :: ':' :: '/' :: rest) :
    pathLength text = none := by
  unfold pathLength
  split
  · rename_i letter tail
    cases hl : letter.isAlpha with
    | true =>
      simp only [if_true]
      split
      · rename_i rest heq
        have htail : tail = '/' :: rest := heq
        exact absurd (by rw [htail]) (hdrive letter rest hl)
      · rfl
    | false =>
      simp only [Bool.false_eq_true, if_false]
      split
      · rename_i rest heq
        exact absurd heq (hslash rest)
      · rfl
  · simp only []
    split
    · rename_i rest heq
      exact absurd heq (hslash rest)
    · rfl

theorem exposed_path_run (p q : Option Char) (text : List Char) :
    exposed noMatch p .path 0 text = exposed noMatch q .out 0 (text.dropWhile isPathChar) := by
  induction text generalizing p with
  | nil => rfl
  | cons c cs ih =>
    rw [List.dropWhile_cons]
    split
    case isTrue hc =>
      have hnext : PathRead.path.next c = .path := by
        rw [PathRead.next, not_isSpace_of_isPathChar hc]
        exact if_pos hc
      rw [exposed_of_none rfl, hnext]
      exact ih (some c)
    case isFalse hc =>
      have hword : isWordChar c = false := by
        rw [Bool.eq_false_iff]
        intro hword
        exact hc (by rw [isPathChar, hword]; rfl)
      have hnext : PathRead.path.next c = PathRead.out.next c := by
        cases hspace : isSpace c <;> simp [PathRead.next, hspace, hc]
      rw [exposed_cons_of_not bordered_noMatch hword, exposed_cons_of_not bordered_noMatch hword,
        hnext]

/-- Outside paths, only what comes after the next character tells how far one has been read. -/
theorem exposed_congr_next {s t : PathRead} (hs : s ≠ .path) (ht : t ≠ .path) {text : List Char}
    (hnext : ∀ c cs, text = c :: cs → exposed noMatch (some c) (s.next c) 0 cs =
      exposed noMatch (some c) (t.next c) 0 cs) :
    exposed noMatch prev s 0 text = exposed noMatch prev t 0 text := by
  cases text with
  | nil => rfl
  | cons c cs =>
    rw [exposed_of_none rfl, exposed_of_none rfl, hnext c cs rfl, bne_iff_ne.mpr hs,
      bne_iff_ne.mpr ht]

theorem startsToken_letter {l c : Char} (hc : isWordChar c = false) (cs : List Char) :
    startsToken (l :: c :: cs) = false := by
  have hwords : ∀ word ∈ tokenValueWords, 1 < word.toList.length := by decide
  rw [Bool.eq_false_iff]
  intro h
  obtain ⟨word, hword, d, ds, htake⟩ := startsToken_iff.mp h
  have hlt := hwords word hword
  have hle : ((l :: c :: cs).takeWhile isWordChar).length ≤ 1 := by
    rw [List.takeWhile_cons, List.takeWhile_cons, hc]
    split <;> simp
  rw [htake, List.length_append, List.length_cons] at hle
  omega

/-- Where a path may start, the scan goes on after the path, or there is none. -/
def PathSkipped (prev : Option Char) (text : List Char) : Option Nat → Prop
  | none => exposed noMatch prev .edge 0 text = exposed noMatch prev .out 0 text
  | some n => ∃ read rest, text = read ++ rest ∧ n = read.length ∧ read ≠ [] ∧ AtBreak rest ∧
      ∀ q, exposed noMatch prev .edge 0 text = exposed noMatch q .out 0 rest

/-- After the first slash, `start` is what has been read. -/
theorem pathSkipped_of_slash (start : List Char) {rest : List Char} {p q : Option Char}
    (hne : start ≠ [])
    (hedge : exposed noMatch prev .edge 0 (start ++ rest) = exposed noMatch p .path 0 rest)
    (hout : exposed noMatch prev .out 0 (start ++ rest) = exposed noMatch q .out 0 rest) :
    PathSkipped prev (start ++ rest) (pathRun start.length rest) := by
  rw [pathRun]
  cases hrun : (rest.takeWhile isPathChar).isEmpty with
  | true =>
    have hrest : rest.dropWhile isPathChar = rest := by
      have hsplit := List.takeWhile_append_dropWhile (p := isPathChar) (l := rest)
      rwa [List.isEmpty_iff.mp hrun, List.nil_append] at hsplit
    exact hedge.trans ((exposed_path_run p q rest).trans (by rw [hrest, hout]))
  | false =>
    refine ⟨start ++ rest.takeWhile isPathChar, rest.dropWhile isPathChar, ?_, ?_, ?_, ?_, ?_⟩
    · rw [List.append_assoc, List.takeWhile_append_dropWhile]
    · rw [List.length_append]
    · exact List.append_ne_nil_of_left_ne_nil hne _
    · exact atBreak_dropWhile (fun c hc => by rw [isPathChar, hc]; rfl) rest
    · exact fun q => hedge.trans (exposed_path_run p q rest)

theorem PathRead.next_letter {l : Char} (hl : l.isAlpha = true) :
    PathRead.edge.next l = .drive ∧ PathRead.out.next l = .out := by
  have hspace : isSpace l = false := not_isSpace_of_isPathChar (by
    rw [isPathChar, isWordChar, Char.isAlphanum, hl]
    rfl)
  have hslash : (l == '/') = false := by
    rw [beq_eq_false_iff_ne]
    rintro rfl
    cases hl
  simp [PathRead.next, hspace, hslash, hl]

theorem pathSkipped (prev : Option Char) (text : List Char) :
    PathSkipped prev text (pathLength text) := by
  by_cases hslash : ∃ rest, text = '/' :: rest
  · obtain ⟨rest, rfl⟩ := hslash
    rw [pathLength_slash]
    exact pathSkipped_of_slash ['/'] (List.cons_ne_nil _ _)
      (exposed_cons_of_not bordered_noMatch rfl rest)
      (exposed_cons_of_not bordered_noMatch rfl rest)
  by_cases hdrive : ∃ l rest, l.isAlpha = true ∧ text = l :: ':' :: '/' :: rest
  · obtain ⟨l, rest, hl, rfl⟩ := hdrive
    obtain ⟨hedge, hout⟩ := PathRead.next_letter hl
    have hread (state : PathRead) : exposed noMatch prev state 0 (l :: ':' :: '/' :: rest) =
        exposed noMatch (some '/') (((state.next l).next ':').next '/') 0 rest := by
      rw [exposed_cons_quiet rfl (startsToken_letter rfl _),
        exposed_cons_of_not bordered_noMatch rfl, exposed_cons_of_not bordered_noMatch rfl]
    rw [pathLength_drive hl]
    exact pathSkipped_of_slash [l, ':', '/'] (List.cons_ne_nil _ _)
      ((hread .edge).trans (by rw [hedge]; rfl)) ((hread .out).trans (by rw [hout]; rfl))
  rw [pathLength_eq_none (fun rest h => hslash ⟨rest, h⟩)
    fun l rest hl h => hdrive ⟨l, rest, hl, h⟩]
  refine exposed_congr_next (by decide) (by decide) fun l cs htext => ?_
  by_cases hl : l.isAlpha = true
  · rw [(PathRead.next_letter hl).1, (PathRead.next_letter hl).2]
    refine exposed_congr_next (by decide) (by decide) fun c ds hcs => ?_
    by_cases hc : c = ':'
    · have hcolon : PathRead.drive.next ':' = .colon := rfl
      have hout : PathRead.out.next ':' = .out := rfl
      rw [hc, hcolon, hout]
      refine exposed_congr_next (by decide) (by decide) fun d es hds => ?_
      have hd : d ≠ '/' := by
        rintro rfl
        exact hdrive ⟨l, es, hl, by rw [htext, hcs, hc, hds]⟩
      simp [PathRead.next, hd]
    · simp [PathRead.next, hc]
  · have hne : l ≠ '/' := by
      rintro rfl
      exact hslash ⟨cs, htext⟩
    simp [PathRead.next, hl, hne]

/-! ## The replacement of paths -/

theorem matchPath_eq (prev : Option Char) (c : Char) (cs : List Char)
    (hprev : prev = none → pathLength (c :: cs) = none) :
    matchPath prev (c :: cs) = if isSpace c then
      (pathLength cs).map fun n => (c :: "[path]".toList, n + 1) else none := by
  have hstart : (if prev.isNone then pathLength (c :: cs) else none) = none := by
    cases prev with
    | none => exact hprev rfl
    | some p => rfl
  rw [matchPath, hstart]

theorem keepsWords_matchPath : KeepsWords matchPath where
  breaks := by
    intro prev text r n hmatch hprev
    have hnone : prev ≠ none := by
      rintro rfl
      cases hprev
    cases text with
    | nil =>
      cases prev with
      | none => exact absurd rfl hnone
      | some p => cases hmatch
    | cons c cs =>
      rw [matchPath_eq prev c cs fun h => absurd h hnone] at hmatch
      split at hmatch
      case isTrue hc =>
        obtain ⟨n, -, heq⟩ := Option.map_eq_some_iff.mp hmatch
        cases heq
        exact ⟨atBreak_cons (isWordChar_of_isSpace hc) cs, List.cons_ne_nil _ _,
          atBreak_cons (isWordChar_of_isSpace hc) _⟩
      case isFalse => cases hmatch

theorem atBreak_replace_paths {prev : Option Char} (hprev : prev.isSome = true) {text : List Char}
    (hbreak : AtBreak text) : AtBreak (replaceMatches matchPath prev 0 text) := by
  cases text with
  | nil => exact hbreak
  | cons c cs =>
    have hmatch := matchPath_eq prev c cs fun h => by rw [h] at hprev; cases hprev
    rw [replaceMatches, hmatch]
    cases hc : isSpace c with
    | false => exact hbreak
    | true =>
      cases pathLength cs with
      | none => exact hbreak
      | some n => exact atBreak_cons (isWordChar_of_isSpace hc) _

/-- The replacement of a path holds no token. -/
theorem found_path_replacement (p : Bool) (text : List Char) :
    found isWordChar startsToken p ("[path]".toList ++ text) =
      found isWordChar startsToken false text := by
  have hpath : found isWordChar startsToken p "[path".toList = false := by
    have hletters : ∀ c ∈ "[path".toList, c ≠ 'g' := by decide
    exact found_of_forall (fun c hc cs => startsToken_cons_of_ne (hletters c hc) cs) p
  have happend := sees_startsToken.found_append_cons (c := ']') rfl p "[path".toList text
  rw [hpath, Bool.false_or] at happend
  exact happend

/-- No token is left by the replacement of paths where the scan finds none outside them. -/
theorem found_replace_paths (prev : Option Char) (text : List Char)
    (hprev : prev = none → pathLength text = none) :
    found isWordChar startsToken (prev.any isWordChar) (replaceMatches matchPath prev 0 text) =
      exposed noMatch prev .out 0 text := by
  induction hlength : text.length using Nat.strong_induction_on generalizing prev text with
  | _ length ih =>
  cases text with
  | nil => rw [replaceMatches, found, exposed]
  | cons c cs =>
    rw [List.length_cons] at hlength
    have hmatch := matchPath_eq prev c cs hprev
    cases hc : isSpace c with
    | false =>
      rw [hc, if_neg Bool.false_ne_true] at hmatch
      have hword : startsToken (c :: replaceMatches matchPath (some c) 0 cs) =
          startsToken (c :: cs) := by
        refine sees_startsToken.congr ?_
        rw [List.takeWhile_cons, List.takeWhile_cons]
        split
        case isTrue hc => rw [keepsWords_matchPath.takeWhile_replaceMatches (some c) hc]
        case isFalse => rfl
      have hnext : PathRead.out.next c = .out := by
        rw [PathRead.next, hc, if_neg Bool.false_ne_true]
      rw [replaceMatches_of_none hmatch, found, hword, exposed_of_none rfl, hnext]
      congr 1
      exact ih cs.length (by omega) (some c) cs (fun h => by cases h) rfl
    | true =>
      have hword := isWordChar_of_isSpace hc
      have hnext : PathRead.out.next c = .edge := by rw [PathRead.next, hc, if_pos rfl]
      rw [hc, if_pos rfl] at hmatch
      rw [exposed_cons_of_not bordered_noMatch hword, hnext]
      have hskipped := pathSkipped (some c) cs
      cases hpath : pathLength cs with
      | none =>
        rw [hpath] at hmatch hskipped
        rw [replaceMatches_of_none hmatch, sees_startsToken.found_cons_of_not hword, hskipped]
        rw [← ih cs.length (by omega) (some c) cs (fun h => by cases h) rfl, Option.any_some, hword]
      | some n =>
        rw [hpath] at hmatch hskipped
        obtain ⟨read, rest, rfl, rfl, -, hbreak, hskip⟩ := hskipped
        have hsome : (lastRead (some c) read).isSome = true := isSome_lastRead rfl read
        rw [replaceMatches_of_some hmatch, hskip (lastRead (some c) read), List.cons_append,
          sees_startsToken.found_cons_of_not hword, found_path_replacement,
          sees_startsToken.found_of_head (atBreak_replace_paths hsome hbreak) _
            ((lastRead (some c) read).any isWordChar)]
        refine ih rest.length ?_ _ rest (fun h => ?_) rfl
        · rw [← hlength, List.length_append]
          omega
        · rw [h] at hsome
          cases hsome

theorem found_replace_paths_start (text : List Char) :
    found isWordChar startsToken false (replaceMatches matchPath none 0 text) =
      exposed noMatch none .edge 0 text := by
  have hskipped := pathSkipped none text
  cases hpath : pathLength text with
  | none =>
    rw [hpath] at hskipped
    exact (found_replace_paths none text fun _ => hpath).trans hskipped.symm
  | some n =>
    rw [hpath] at hskipped
    obtain ⟨read, rest, rfl, rfl, hne, hbreak, hskip⟩ := hskipped
    have hmatch : matchPath none (read ++ rest) = some ("[path]".toList, read.length) := by
      unfold matchPath
      rw [Option.isNone_none, if_pos rfl, hpath]
    have hsome : (lastRead none read).isSome = true := by
      cases read with
      | nil => exact absurd rfl hne
      | cons c cs => exact isSome_lastRead rfl cs
    rw [replaceMatches_of_append hne hmatch, hskip (lastRead none read), found_path_replacement,
      sees_startsToken.found_of_head (atBreak_replace_paths hsome hbreak) _
        ((lastRead none read).any isWordChar)]
    exact found_replace_paths _ rest fun h => by rw [h] at hsome; cases hsome

/-! ## Spaces -/

theorem any_lastRead_of_forall_not (prev : Option Char) (hprev : prev.any isWordChar = false)
    {read : List Char} (hread : ∀ c ∈ read, isWordChar c = false) :
    (lastRead prev read).any isWordChar = false := by
  induction read generalizing prev with
  | nil => exact hprev
  | cons c cs ih => exact ih (some c) (hread c (.head _)) fun d hd => hread d (.tail _ hd)

/-- To put one space in the place of a run of separators changes no word. -/
theorem found_replace_runs {K : Char → Bool} (hK : ∀ c, K c = true → isWordChar c = false)
    (hm : ∀ prev text, m prev text = if (text.takeWhile K).length = 0 then none
      else some ([' '], (text.takeWhile K).length)) (prev : Option Char) (text : List Char) :
    found isWordChar startsToken (prev.any isWordChar) (replaceMatches m prev 0 text) =
      found isWordChar startsToken (prev.any isWordChar) text := by
  have hkeeps : KeepsWords m := by
    refine ⟨fun {prev text r n} hmatch _ => ?_⟩
    rw [hm] at hmatch
    split at hmatch
    case isTrue => cases hmatch
    case isFalse hrun =>
      cases hmatch
      refine ⟨?_, List.cons_ne_nil _ _, rfl⟩
      cases text with
      | nil => exact absurd rfl hrun
      | cons c cs =>
        rw [List.takeWhile_cons] at hrun
        split at hrun
        case isTrue hc => exact atBreak_cons (hK c hc) cs
        case isFalse => exact absurd rfl hrun
  induction hlength : text.length using Nat.strong_induction_on generalizing prev text with
  | _ length ih =>
  cases text with
  | nil => rw [replaceMatches]
  | cons c cs =>
    rw [List.length_cons] at hlength
    have hmatch := hm prev (c :: cs)
    cases hc : K c with
    | false =>
      rw [List.takeWhile_cons, hc, if_neg Bool.false_ne_true, List.length_nil, if_pos rfl] at hmatch
      have hword : startsToken (c :: replaceMatches m (some c) 0 cs) = startsToken (c :: cs) := by
        refine sees_startsToken.congr ?_
        rw [List.takeWhile_cons, List.takeWhile_cons]
        split
        case isTrue hc => rw [hkeeps.takeWhile_replaceMatches (some c) hc]
        case isFalse => rfl
      rw [replaceMatches_of_none hmatch, found, found, hword]
      congr 1
      exact ih cs.length (by omega) (some c) cs rfl
    | true =>
      rw [List.takeWhile_cons, hc, if_pos rfl, List.length_cons,
        if_neg (Nat.succ_ne_zero _)] at hmatch
      have hrun : ∀ d ∈ cs.takeWhile K, isWordChar d = false :=
        fun d hd => hK d (List.mem_takeWhile_imp hd)
      have hlast := any_lastRead_of_forall_not (some c) (hK c hc) hrun
      have hlt : (cs.dropWhile K).length < length := by
        have hle := (List.dropWhile_suffix (l := cs) K).length_le
        omega
      have hrest := ih _ hlt (lastRead (some c) (cs.takeWhile K)) _ rfl
      have hcs := List.takeWhile_append_dropWhile (p := K) (l := cs)
      generalize cs.takeWhile K = run, cs.dropWhile K = rest at *
      subst hcs
      rw [hlast] at hrest
      rw [replaceMatches_of_some hmatch, sees_startsToken.found_cons_of_not (hK c hc),
        sees_startsToken.found_separators_append hrun, ← hrest]
      exact sees_startsToken.found_cons_of_not rfl _ _

/-! ## Trimming -/

section Trailing

variable {spaces : List Char} (hspaces : ∀ c ∈ spaces, isSpace c = true)
include hspaces

theorem dropWhile_isSpace_spaces : spaces.dropWhile isSpace = [] :=
  List.dropWhile_eq_nil_iff.mpr hspaces

theorem afterWord_append_spaces {same : Char → Char → Bool} {word : List Char}
    (hword : ∀ w ∈ word, ∀ c, isSpace c = true → same w c = false) (text : List Char) :
    afterWord same word (text ++ spaces) = (afterWord same word text).map (· ++ spaces) := by
  induction word generalizing text with
  | nil => rfl
  | cons w ws ih =>
    cases text with
    | nil =>
      cases spaces with
      | nil => rfl
      | cons c cs =>
        have hsame := hword w (.head _) c (hspaces c (.head _))
        rw [List.nil_append, afterWord, afterWord, hsame]
        rfl
    | cons c cs =>
      rw [List.cons_append, afterWord, afterWord]
      split
      case isTrue => exact ih (fun w hw => hword w (.tail _ hw)) cs
      case isFalse => rfl

theorem takeWhile_append_spaces {p : Char → Bool} (hp : ∀ c, isSpace c = true → p c = false)
    (text : List Char) : (text ++ spaces).takeWhile p = text.takeWhile p := by
  cases spaces with
  | nil => rw [List.append_nil]
  | cons c cs => exact takeWhile_append_cons (hp c (hspaces c (.head _))) text cs

theorem matchToken_append_spaces (prev : Option Char) (text : List Char) :
    matchToken prev (text ++ spaces) = matchToken prev text := by
  have hwords : ∀ word ∈ tokenWords, ∀ w ∈ word.toList ++ ['-'], isSpace w = false := by
    decide
  have hrun (c : Char) (hc : isSpace c = true) : (isWordChar c || c == '-') = false := by
    rw [isWordChar_of_isSpace hc, Bool.false_or, beq_eq_false_iff_ne]
    rintro rfl
    cases hc
  rw [matchToken, matchToken]
  congr 1
  refine findSome?_congr fun word hword => ?_
  have hsame : ∀ w ∈ word.toList ++ ['-'], ∀ c, isSpace c = true → (w == c) = false := by
    intro w hw c hc
    rw [beq_eq_false_iff_ne]
    rintro rfl
    rw [hwords word hword w hw] at hc
    cases hc
  rw [afterWord_append_spaces hspaces hsame]
  cases afterWord (· == ·) (word.toList ++ ['-']) text with
  | none => rfl
  | some rest =>
    rw [Option.map_some, Option.bind_some, Option.bind_some, takeWhile_append_spaces hspaces hrun]

theorem afterSecret_append_spaces (rest : List Char) :
    afterSecret (rest ++ spaces) = (afterSecret rest).map (· ++ spaces) := by
  have hdrop (text : List Char) : (text ++ spaces).dropWhile isSpace =
      if (text.dropWhile isSpace).isEmpty then [] else text.dropWhile isSpace ++ spaces := by
    rw [List.dropWhile_append, dropWhile_isSpace_spaces hspaces]
  have hvalue (text : List Char) : (text ++ spaces).dropWhile (fun c => !isSpace c) =
      text.dropWhile (fun c => !isSpace c) ++ spaces := by
    rw [List.dropWhile_append]
    split
    case isTrue hempty =>
      rw [List.isEmpty_iff.mp hempty, List.nil_append]
      cases spaces with
      | nil => rfl
      | cons c cs => rw [List.dropWhile_cons, hspaces c (.head _), if_neg (by decide)]
    case isFalse => rfl
  rw [afterSecret, afterSecret, hdrop]
  cases rest.dropWhile isSpace with
  | nil => rfl
  | cons sep rest' =>
    simp only [List.isEmpty_cons, Bool.false_eq_true, if_false, List.cons_append, hdrop]
    split
    · cases rest'.dropWhile isSpace with
      | nil => rfl
      | cons c cs =>
        simp only [List.isEmpty_cons, Bool.false_eq_true, if_false, List.cons_append]
        exact congrArg some (hvalue (c :: cs))
    · rfl

theorem secretMatch_append_spaces (text : List Char) :
    secretMatch (text ++ spaces) = (secretMatch text).map (Prod.map id (· ++ spaces)) := by
  have hwords : ∀ word ∈ secretWords, ∀ w ∈ word.toList, isSpace w = false := by decide
  rw [secretMatch, secretMatch, List.map_findSome?]
  refine findSome?_congr fun word hword => ?_
  have hsame : ∀ w ∈ word.toList, ∀ c, isSpace c = true → sameLetter w c = false := by
    intro w hw c hc
    rw [sameLetter, toLower_of_not_isWordChar (isWordChar_of_isSpace hc), beq_eq_false_iff_ne]
    rintro rfl
    rw [hwords word hword w hw] at hc
    cases hc
  rw [Function.comp_apply, afterWord_append_spaces hspaces hsame]
  cases afterWord sameLetter word.toList text with
  | none => rfl
  | some rest =>
    rw [Option.map_some, Option.bind_some, Option.bind_some,
      afterSecret_append_spaces hspaces, Option.map_map, Option.map_map]
    rfl

/-- Spaces at the end change the text after a match and not the match. -/
theorem matchSecret_append_spaces (prev : Option Char) (text : List Char) :
    (matchSecret prev (text ++ spaces)).map Prod.snd = (matchSecret prev text).map Prod.snd := by
  rw [matchSecret_eq, matchSecret_eq, secretMatch_append_spaces hspaces]
  split
  · rfl
  · cases secretMatch text with
    | none => rfl
    | some result =>
      simp only [Option.map_some, Prod.map, List.length_append, Nat.add_sub_add_right]

end Trailing

/-- The patterns of a token and of a secret, tried in this order. -/
def hides : Matcher := fun prev text => (matchToken prev text).or (matchSecret prev text)

/-- Read from left to right, a token starts outside the matches of `hides` and outside paths. -/
def tokenExposed (text : List Char) : Bool := exposed hides none .edge 0 text

theorem bordered_hides : Bordered hides := by
  intro prev text r n hmatch
  rcases Option.or_eq_some_iff.mp hmatch with h | ⟨-, h⟩
  · exact bordered_matchToken h
  · exact bordered_matchSecret h

theorem hides_append_spaces {spaces : List Char} (hspaces : ∀ c ∈ spaces, isSpace c = true)
    (prev : Option Char) (text : List Char) :
    (hides prev (text ++ spaces)).map Prod.snd = (hides prev text).map Prod.snd := by
  rw [hides, hides, matchToken_append_spaces hspaces, Option.map_or, Option.map_or,
    matchSecret_append_spaces hspaces]

theorem exposed_spaces {spaces : List Char} (hspaces : ∀ c ∈ spaces, isSpace c = true)
    (prev : Option Char) (state : PathRead) : exposed hides prev state 0 spaces = false := by
  induction spaces generalizing prev state with
  | nil => rw [exposed]
  | cons c cs ih =>
    rw [exposed_cons_of_not bordered_hides (isWordChar_of_isSpace (hspaces c (.head _)))]
    exact ih (fun d hd => hspaces d (.tail _ hd)) _ _

theorem exposed_append_spaces {spaces : List Char} (hspaces : ∀ c ∈ spaces, isSpace c = true)
    (prev : Option Char) (state : PathRead) (text : List Char) :
    exposed hides prev state 0 (text ++ spaces) = exposed hides prev state 0 text := by
  induction hlength : text.length using Nat.strong_induction_on generalizing prev state text with
  | _ length ih =>
  cases text with
  | nil => rw [List.nil_append, exposed_spaces hspaces, exposed]
  | cons c cs =>
    rw [List.length_cons] at hlength
    have hsame := hides_append_spaces hspaces prev (c :: cs)
    cases hmatch : hides prev (c :: cs) with
    | none =>
      rw [hmatch, Option.map_none, Option.map_eq_none_iff, List.cons_append] at hsame
      have hword : startsToken (c :: (cs ++ spaces)) = startsToken (c :: cs) :=
        sees_startsToken.congr (takeWhile_append_spaces hspaces
          (fun c hc => isWordChar_of_isSpace hc) (c :: cs))
      rw [List.cons_append, exposed_of_none hsame, exposed_of_none hmatch, hword]
      congr 1
      exact ih cs.length (by omega) _ _ cs rfl
    | some result =>
      obtain ⟨r, n⟩ := result
      obtain ⟨-, d, read, rest, htext, -, rfl, -⟩ := bordered_hides hmatch
      obtain ⟨rfl, rfl⟩ := List.cons_eq_cons.mp htext
      rw [hmatch, Option.map_some, Option.map_eq_some_iff] at hsame
      obtain ⟨⟨r', n⟩, hsome, rfl⟩ := hsame
      rw [List.cons_append, List.append_assoc] at hsome ⊢
      rw [exposed_of_some hsome, exposed_of_some hmatch]
      exact ih rest.length (by rw [← hlength, List.length_append]; omega) _ _ rest rfl

theorem exposed_prev {p q : Option Char} (hpq : p.any isWordChar = q.any isWordChar)
    (state : PathRead) (text : List Char) :
    exposed hides p state 0 text = exposed hides q state 0 text := by
  cases text with
  | nil => rw [exposed, exposed]
  | cons c cs =>
    have hmatch : hides p (c :: cs) = hides q (c :: cs) := by
      rw [hides, hides, matchSecret_eq, matchSecret_eq, matchToken, matchToken, hpq]
    rw [exposed, exposed, hmatch, hpq]

/-- To trim the text first changes nothing. -/
theorem tokenExposed_trim (s : String) : tokenExposed (trim s).toList = tokenExposed s.toList := by
  have hstart (spaces text : List Char) (hspaces : ∀ c ∈ spaces, isSpace c = true) :
      tokenExposed (spaces ++ text) = tokenExposed text := by
    induction spaces with
    | nil => rfl
    | cons c cs ih =>
      have hc := hspaces c (.head _)
      have hnext : PathRead.edge.next c = .edge := by rw [PathRead.next, hc, if_pos rfl]
      rw [tokenExposed, List.cons_append,
        exposed_cons_of_not bordered_hides (isWordChar_of_isSpace hc), hnext,
        exposed_prev (p := some c) (q := none) (isWordChar_of_isSpace hc)]
      exact ih fun d hd => hspaces d (.tail _ hd)
  have hfront := hstart (s.toList.takeWhile isSpace) (s.toList.dropWhile isSpace)
    fun c hc => List.mem_takeWhile_imp hc
  have hspaces : ∀ c ∈ (s.toList.dropWhile isSpace).rtakeWhile isSpace, isSpace c = true :=
    fun c hc => List.mem_rtakeWhile_imp hc
  have hend := exposed_append_spaces hspaces none .edge
    ((s.toList.dropWhile isSpace).rdropWhile isSpace)
  rw [List.takeWhile_append_dropWhile] at hfront
  rw [List.rdropWhile_append_rtakeWhile] at hend
  rw [hfront, trim, String.toList_ofList]
  exact hend.symm

theorem found_trim (s : String) : found isWordChar startsToken false (trim s).toList =
    found isWordChar startsToken false s.toList := by
  have hseparator (c : Char) (hc : isSpace c = true) := isWordChar_of_isSpace hc
  rw [← List.takeWhile_append_dropWhile (p := isSpace) (l := s.toList),
    sees_startsToken.found_separators_append fun c hc => hseparator c (List.mem_takeWhile_imp hc)]
  rw [← List.rdropWhile_append_rtakeWhile (p := isSpace) (l := s.toList.dropWhile isSpace),
    sees_startsToken.found_append_separators fun c hc => hseparator c (List.mem_rtakeWhile_imp hc)]
  rw [trim, String.toList_ofList]
  rfl

/-! ## The sanitizers -/

/-- The redactions before white space is put together. -/
def redactPatterns (text : List Char) : List Char :=
  replaceMatches matchPath none 0 <| replaceMatches matchSecret none 0 <|
    replaceMatches matchToken none 0 text

theorem found_redactPatterns (text : List Char) :
    found isWordChar startsToken false (redactPatterns text) = tokenExposed text := by
  rw [redactPatterns, found_replace_paths_start, exposed_replace_secrets, exposed_replace_tokens]
  rfl

theorem found_matchSpaces (text : List Char) :
    found isWordChar startsToken false (replaceMatches matchSpaces none 0 text) =
      found isWordChar startsToken false text :=
  found_replace_runs (fun _ hc => isWordChar_of_isSpace hc) (fun _ _ => rfl) none text

theorem found_matchNewlines (text : List Char) :
    found isWordChar startsToken false (replaceMatches TaskEventStream.matchNewlines none 0 text) =
      found isWordChar startsToken false text := by
  refine found_replace_runs (K := fun c => c == '\r' || c == '\n') (fun c hc => ?_)
    (fun _ _ => rfl) none text
  rw [Bool.or_eq_true, beq_iff_eq, beq_iff_eq] at hc
  obtain rfl | rfl := hc <;> rfl

theorem carriesToken_sanitizeOperatorText (s : String) :
    carriesToken (TaskEventStream.sanitizeOperatorText s) = tokenExposed s.toList := by
  rw [carriesToken_eq, TaskEventStream.sanitizeOperatorText, found_trim, String.toList_ofList,
    found_matchSpaces, found_matchNewlines]
  exact found_redactPatterns s.toList

theorem takeUnits_prefix (n : Nat) (text : List Char) : takeUnits n text <+: text := by
  induction text generalizing n with
  | nil => exact List.nil_prefix
  | cons c cs ih =>
    rw [takeUnits]
    split
    · exact List.cons_prefix_cons.mpr ⟨rfl, ih _⟩
    · exact List.nil_prefix

/-- A cut may cut a token off, and makes none. -/
theorem found_takeUnits {n : Nat} {text : List Char}
    (h : found isWordChar startsToken false text = false) :
    found isWordChar startsToken false (takeUnits n text) = false := by
  obtain ⟨rest, hrest⟩ := takeUnits_prefix n text
  rw [Bool.eq_false_iff] at h ⊢
  intro hfound
  apply h
  rw [← hrest]
  exact sees_startsToken.found_append rest hfound

theorem carriesToken_redact (n : Nat) {s : String} (h : tokenExposed s.toList = false) :
    carriesToken (redact n s) = false := by
  rw [carriesToken_eq, redact, String.toList_ofList]
  exact found_takeUnits ((found_matchSpaces _).trans ((found_redactPatterns _).trans h))

/-- The outputs of the three sanitizers, for a text of any kind. -/
structure Sanitized (s : String) : Prop where
  summary : ∀ out, sanitizeSummary (some s) = some out → carriesToken out = false
  operatorText : carriesToken (TaskEventStream.sanitizeOperatorText s) = false
  text : ∀ maxChars out, sanitizeText (some s) maxChars = some out → carriesToken out = false

theorem trimmed_eq_some {s text : String} (h : trimmed (some s) = some text) : text = trim s := by
  rw [trimmed, Option.bind_some] at h
  split at h
  · cases h
  · exact (Option.some.inj h).symm

theorem sanitized_iff (s : String) : Sanitized s ↔ tokenExposed s.toList = false := by
  constructor
  · intro h
    rw [← carriesToken_sanitizeOperatorText]
    exact h.operatorText
  · intro h
    have hredact (n : Nat) {text : String} (htext : trimmed (some s) = some text) :
        carriesToken (redact n text) = false := by
      rw [trimmed_eq_some htext]
      exact carriesToken_redact n ((tokenExposed_trim s).trans h)
    refine ⟨fun out hout => ?_, (carriesToken_sanitizeOperatorText s).trans h,
      fun maxChars out hout => ?_⟩
    · obtain ⟨text, htext, rfl⟩ := Option.map_eq_some_iff.mp hout
      exact hredact _ htext
    · obtain ⟨text, htext, hsome⟩ := Option.bind_eq_some_iff.mp hout
      simp only [] at hsome
      split at hsome
      · cases hsome
      · cases hsome
        exact hredact _ htext

end A2ABroker
