import A2ABroker.Verify.CommentMarkers
import A2ABroker.Verify.EvidenceKey

/-! # Evidence comments written again

A comment is found again by the key in its first line, and that line is redacted and cut with the
rest of the body. Where the key stays (`KeyKept`) a comment is written once, and a comment that was
written for another manifest is taken for it only where it quotes the key
(`evidence_replay_iff`). -/

namespace A2ABroker

open GitHubProjection GitHubEvidence

/-! ## What is cut -/

section

variable {w before text : List Char} {body : String}

theorem units_takeUnits_le (n : Nat) (text : List Char) : units (takeUnits n text) ≤ n :=
  (prefix_takeUnits_iff.mp List.prefix_rfl).2

theorem length_le_units (text : List Char) : text.length ≤ units text := by
  induction text with
  | nil => exact Nat.le_refl 0
  | cons c cs ih =>
    rw [units_cons, List.length_cons, utf16Units]
    split <;> omega

theorem units_append (a b : List Char) : units (a ++ b) = units a + units b := by
  rw [units, List.map_append, List.sum_append]
  rfl

theorem toList_boundCommentLength (body : String) : (boundCommentLength body).toList =
    if units body.toList ≤ maxGitHubCommentLength then body.toList
    else takeUnits keptUnits body.toList ++ truncationMarker.toList := by
  rw [boundCommentLength, boundLength]
  split
  case isTrue h => exact (if_pos h).symm
  case isFalse h =>
    rw [String.toList_append, cut, String.toList_ofList]
    exact (if_neg h).symm

/-- A beginning of one line is kept if it ends before the cut. -/
theorem prefix_boundCommentLength (hline : '\n' ∉ before) :
    before <+: (boundCommentLength body).toList ↔ before <+: body.toList ∧
      (units body.toList ≤ maxGitHubCommentLength ∨ units before ≤ keptUnits) := by
  rw [toList_boundCommentLength]
  split
  case isTrue h => exact ⟨fun hbegins => ⟨hbegins, .inl h⟩, fun hbegins => hbegins.1⟩
  case isFalse h =>
    have hcut : before <+: takeUnits keptUnits body.toList ++ truncationMarker.toList ↔
        before <+: takeUnits keptUnits body.toList := by
      refine ⟨fun ⟨rest, hrest⟩ => ?_, fun hbegins => hbegins.trans (List.prefix_append _ _)⟩
      obtain ⟨e, hkept, -⟩ | ⟨e, rfl, hmarker⟩ := List.append_eq_append_iff.mp hrest
      · exact ⟨e, hkept.symm⟩
      · cases e with
        | nil => rw [List.append_nil]
        | cons c cs =>
          obtain ⟨rfl, -⟩ := List.cons_eq_cons.mp
            (show '\n' :: "\n…(truncated)".toList = c :: (cs ++ rest) from hmarker)
          exact absurd (List.mem_append_right _ (.head _)) hline
    rw [hcut, prefix_takeUnits_iff, or_iff_right h]

/-- A long text of one line that is found in a comment was not put there by the cut. -/
theorem infix_of_boundCommentLength (hline : '\n' ∉ w) (hlong : 14 < w.length)
    (h : w <:+: (boundCommentLength body).toList) : w <:+: body.toList ∧
      (units body.toList ≤ maxGitHubCommentLength ∨ w <:+: takeUnits keptUnits body.toList) := by
  rw [toList_boundCommentLength] at h
  split at h
  case isTrue hfits => exact ⟨h, .inl hfits⟩
  case isFalse =>
    have hkept : w <:+: takeUnits keptUnits body.toList := by
      rcases List.infix_append_iff.mp h with hin | hin | ⟨a, b, rfl, hbefore, hmarker⟩
      · exact hin
      · have hmarker : truncationMarker.toList.length = 14 := by decide
        exact absurd hin.length_le (by omega)
      · cases b with
        | nil =>
          rw [List.append_nil]
          exact hbefore.isInfix
        | cons c cs =>
          obtain ⟨rfl, -⟩ := List.cons_prefix_cons.mp
            (show c :: cs <+: '\n' :: "\n…(truncated)".toList from hmarker)
          exact absurd (List.mem_append_right _ (.head _)) hline
    exact ⟨hkept.trans ( takeUnits_prefix _ _).isInfix, .inr hkept⟩

end

/-! ## Keys that stay -/

/-- No redaction matches in the key, and the cut comes after it. -/
def KeyKept (key : String) : Prop :=
  (∀ m ∈ commentPatterns, hasMatch m none key.toList = false) ∧ key.length ≤ 59938

instance (key : String) : Decidable (KeyKept key) := inferInstanceAs (Decidable (_ ∧ _))

theorem utf16Units_of_isKeyChar {c : Char} (hc : isKeyChar c = true) : utf16Units c = 1 := by
  refine if_pos ?_
  rw [isKeyChar, isUriUnreserved, Bool.or_eq_true, Bool.or_eq_true, Bool.or_eq_true] at hc
  rcases hc with ((halnum | hmark) | hpercent) | hcolon
  · simp only [isAlphanum_eq, Char.isDigit, Bool.or_eq_true, Bool.and_eq_true, decide_eq_true_eq,
      UInt32.le_iff_toNat_le, ge_iff_le] at halnum
    have hval : c.toNat = c.val.toNat := rfl
    have hZ : 'Z'.val.toNat = 90 := rfl
    have hz : 'z'.val.toNat = 122 := rfl
    have h9 : '9'.val.toNat = 57 := rfl
    omega
  · have hmarks : ∀ d ∈ "-_.!~*'()".toList, d.toNat < 0x10000 := by decide
    exact hmarks c (List.contains_iff_mem.mp hmark)
  · rw [beq_iff_eq.mp hpercent]
    decide
  · rw [beq_iff_eq.mp hcolon]
    decide

section

variable {key : String} {hash rest : List Char}

theorem units_of_isKeyChar {text : List Char} (h : ∀ c ∈ text, isKeyChar c = true) :
    units text = text.length := by
  induction text with
  | nil => rfl
  | cons c cs ih =>
    rw [units_cons, utf16Units_of_isKeyChar (h c (.head _)), ih fun d hd => h d (.tail _ hd),
      List.length_cons, Nat.add_comm]

/-- The comment whose first line names the key. -/
def commentOf (key : String) (rest : List Char) : String :=
  boundCommentLength (String.ofList (redactComment
    (keyPlace.toList ++ (key.toList ++ (keyEnd ++ rest)))))

theorem toList_commentOf (key : String) (rest : List Char) :
    (String.ofList (redactComment (keyPlace.toList ++ (key.toList ++ (keyEnd ++ rest))))).toList =
      keyPlace.toList ++ redactAfter (key.toList ++ (keyEnd ++ rest)) := by
  rw [String.toList_ofList, redactComment_keyPlace]

theorem units_place (hkey : KeyText key.toList hash) :
    units (keyPlace.toList ++ key.toList) = 48 + key.length := by
  have hplace : units keyPlace.toList = 48 := by
    rw [keyPlace_toList]
    decide
  rw [units_append, hplace, units_of_isKeyChar hkey.chars, String.length_toList]

/-- No beginning of `keyPlace` looks like the place of a key. -/
theorem eq_keyPlace_of_suffix {before : List Char} (hbegins : before <+: keyPlace.toList)
    (hend : "key=".toList <:+ before) : before = keyPlace.toList := by
  have hall : ∀ p ∈ keyPlace.toList.inits, "key=".toList <:+ p → p = keyPlace.toList := by
    rw [keyPlace_toList]
    decide
  exact hall before ((List.mem_inits _ _).mpr hbegins) hend

/-- A cut through the key leaves no other place of it. -/
theorem le_of_infix_takeUnits {n : Nat} {text : List Char}
    (htext : keyPlace.toList ++ key.toList <+: text)
    (h : (lookedFor key).toList <:+: takeUnits n text) : 48 + key.length ≤ n := by
  by_contra hcut
  obtain ⟨before, after, hkept⟩ := h
  rw [lookedFor_toList] at hkept
  have hshort : (takeUnits n text).length < (keyPlace.toList ++ key.toList).length := by
    have hlength := length_le_units (takeUnits n text)
    have hunits := units_takeUnits_le n text
    have hplace : keyPlace.toList.length = 48 := by rw [keyPlace_toList]; rfl
    rw [List.length_append, hplace, String.length_toList]
    omega
  have hpart : takeUnits n text <+: keyPlace.toList ++ key.toList :=
    List.prefix_of_prefix_length_le ( takeUnits_prefix n text) htext hshort.le
  have hbefore : before ++ "key=".toList <+: keyPlace.toList ++ key.toList := by
    refine List.IsPrefix.trans ⟨key.toList ++ after, ?_⟩ hpart
    rw [← hkept]
    simp only [List.append_assoc]
  have hlength : (before ++ "key=".toList).length < keyPlace.toList.length := by
    rw [← hkept] at hshort
    simp only [List.length_append] at hshort ⊢
    omega
  have hplace : before ++ "key=".toList <+: keyPlace.toList :=
    List.prefix_of_prefix_length_le hbefore (List.prefix_append _ _) hlength.le
  rw [eq_keyPlace_of_suffix hplace (List.suffix_append _ _)] at hlength
  exact absurd hlength (Nat.lt_irrefl _)

theorem lineless_place (hkey : KeyText key.toList hash) :
    '\n' ∉ keyPlace.toList ++ key.toList := by
  rw [keyPlace_toList, List.mem_append]
  exact not_or.mpr ⟨by decide, hkey.notMem (by decide)⟩

/-- A key that stays stays in its place. -/
theorem prefix_commentOf (hkey : KeyText key.toList hash) (hkept : KeyKept key)
    (rest : List Char) : keyPlace.toList ++ key.toList <+: (commentOf key rest).toList := by
  obtain ⟨rest', hstays⟩ := hkey.stays hkept.1 rest
  refine (prefix_boundCommentLength (lineless_place hkey)).mpr ⟨?_, .inr ?_⟩
  · rw [toList_commentOf, hstays]
    exact ⟨keyEnd ++ rest', List.append_assoc _ _ _⟩
  · rw [units_place hkey]
    have hkeptUnits : keptUnits = 59986 := by decide
    have hlength := hkept.2
    omega

/-- A comment can be looked up by its key exactly when the key stays. -/
theorem lookedFor_infix_iff (hkey : KeyText key.toList hash) (rest : List Char) :
    (lookedFor key).toList <:+: (commentOf key rest).toList ↔ KeyKept key := by
  have hline : '\n' ∉ (lookedFor key).toList := by
    rw [lookedFor_toList, List.mem_append]
    exact not_or.mpr ⟨by decide, hkey.notMem (by decide)⟩
  have hlike := hkey.keyLike
  rw [← lookedFor_toList] at hlike
  constructor
  · intro hfound
    obtain ⟨hin, hkept⟩ := infix_of_boundCommentLength hline (by have := hlike.long; omega) hfound
    obtain ⟨before, after, hbody⟩ := hin
    rw [String.toList_ofList, List.append_assoc] at hbody
    have hnone : ∀ m ∈ commentPatterns, hasMatch m none key.toList = false := by
      intro m hm
      obtain ⟨prev, hunmatched⟩ := (occurs_of_redactComment hlike hbody.symm).2 m hm
      rw [lookedFor_toList, unmatched_append] at hunmatched
      exact unmatched_iff_hasMatch.mp
        (Unmatched.congr_prev (p := some '=') (q := none) hm rfl hunmatched.2)
    obtain ⟨rest', hstays⟩ := hkey.stays hnone rest
    rw [toList_commentOf, hstays] at hkept
    have hbegins : keyPlace.toList ++ key.toList <+:
        keyPlace.toList ++ (key.toList ++ (keyEnd ++ rest')) :=
      ⟨keyEnd ++ rest', List.append_assoc _ _ _⟩
    refine ⟨hnone, ?_⟩
    rcases hkept with hfits | hcut
    · rw [← List.append_assoc, units_append, units_place hkey, units_append] at hfits
      have hend : units keyEnd = 17 := by decide
      have hmax : maxGitHubCommentLength = 60000 := rfl
      omega
    · have hle := le_of_infix_takeUnits hbegins hcut
      have hkeptUnits : keptUnits = 59986 := by decide
      omega
  · intro hkept
    have hsuffix : (lookedFor key).toList <:+ keyPlace.toList ++ key.toList := by
      refine ⟨(markerPrefix ++ " v=1 ").toList, ?_⟩
      rw [lookedFor_toList, ← List.append_assoc]
      refine congrArg (· ++ key.toList) ?_
      rw [keyPlace_toList]
      decide
    exact hsuffix.isInfix.trans (prefix_commentOf hkey hkept rest).isInfix

end

/-! ## Plans -/

theorem includesText_iff {text needle : String} :
    includesText text needle = true ↔ needle.toList <:+: text.toList := by
  rw [includesText, List.any_eq_true, List.infix_iff_prefix_suffix]
  refine exists_congr fun t => ?_
  rw [List.mem_tails, List.isPrefixOf_iff_prefix, and_comm]

/-- The comment that a plan is about, or that it makes. -/
def GitHubEvidence.CommentWritePlan.commentId (created : Nat × Option String) :
    CommentWritePlan → Nat
  | create _ => created.1
  | update id .. => id
  | noop id .. => id

/-- The comments after the projection was written again and again; each time GitHub may make
another comment. -/
def replays (p : EvidenceProjection) (created : List (Nat × Option String))
    (comments : List IssueComment) : List IssueComment :=
  created.foldl (fun comments made =>
    (planTerminalBriefGitHubCommentWrite p comments).execute made comments) comments

/-- What the writes of a projection keep to, beside the comment of another one. -/
structure EvidenceLaw (p q : EvidenceProjection) : Prop where
  noop : ∀ comments created, ∃ url,
    let plan := planTerminalBriefGitHubCommentWrite p comments
    planTerminalBriefGitHubCommentWrite p (plan.execute created comments) =
      .noop (plan.commentId created) url p
  once : ∀ comments created, (replays p created comments).length ≤ comments.length + 1
  apart : ∀ comments, (comments.map (·.id)).Nodup → ∀ c ∈ comments, c.body = q.body →
    ∀ url, planTerminalBriefGitHubCommentWrite p comments ≠ .update c.id url p

section

variable {p q : EvidenceProjection} {comments : List IssueComment}

theorem plan_of_find {c : IssueComment} (hfind : comments.find? p.finds = some c)
    (hbody : c.body = p.body) :
    planTerminalBriefGitHubCommentWrite p comments = .noop c.id c.htmlUrl p := by
  rw [planTerminalBriefGitHubCommentWrite, findExistingProjectionComment, hfind]
  exact if_pos hbody

/-- After an update the lookup finds the comment that was updated. -/
theorem find?_updated {existing : IssueComment} (hown : ∀ c, c.body = p.body → p.finds c = true)
    (hfind : comments.find? p.finds = some existing) :
    ∃ c, (comments.map fun c => if c.id = existing.id then { c with body := p.body } else c).find?
      p.finds = some c ∧ c.id = existing.id ∧ c.body = p.body := by
  induction comments with
  | nil => cases hfind
  | cons c cs ih =>
    rw [List.map_cons]
    by_cases hid : c.id = existing.id
    · rw [if_pos hid, List.find?_cons_of_pos (hown _ rfl)]
      exact ⟨_, rfl, hid, rfl⟩
    · have hc : ¬p.finds c = true := by
        intro hc
        rw [List.find?_cons_of_pos hc] at hfind
        exact hid (congrArg (·.id) (Option.some.inj hfind))
      rw [List.find?_cons_of_neg hc] at hfind
      rw [if_neg hid, List.find?_cons_of_neg hc]
      exact ih hfind

/-- Where a comment of the projection is found, writing it again changes nothing. -/
theorem noop_of_finds (hown : ∀ c, c.body = p.body → p.finds c = true)
    (comments : List IssueComment) (created : Nat × Option String) : ∃ url,
      let plan := planTerminalBriefGitHubCommentWrite p comments
      planTerminalBriefGitHubCommentWrite p (plan.execute created comments) =
        .noop (plan.commentId created) url p := by
  cases hfind : comments.find? p.finds with
  | none =>
    have hplan : planTerminalBriefGitHubCommentWrite p comments = .create p := by
      rw [planTerminalBriefGitHubCommentWrite, findExistingProjectionComment, hfind]
    let made : IssueComment := { id := created.1, body := p.body, htmlUrl := created.2 }
    have hmade : (comments ++ [made]).find? p.finds = some made := by
      rw [List.find?_append, hfind, Option.none_or, List.find?_cons_of_pos (hown made rfl)]
    rw [hplan]
    exact ⟨created.2, plan_of_find hmade rfl⟩
  | some existing =>
    by_cases hbody : existing.body = p.body
    · have hplan := plan_of_find hfind hbody
      rw [hplan]
      exact ⟨existing.htmlUrl, hplan⟩
    · have hplan : planTerminalBriefGitHubCommentWrite p comments =
          .update existing.id existing.htmlUrl p := by
        rw [planTerminalBriefGitHubCommentWrite, findExistingProjectionComment, hfind]
        exact if_neg hbody
      obtain ⟨c, hc, hid, hsame⟩ := find?_updated hown hfind
      rw [hplan]
      refine ⟨c.htmlUrl, (plan_of_find hc hsame).trans ?_⟩
      rw [hid]
      rfl

theorem length_execute (plan : CommentWritePlan) (created : Nat × Option String) :
    (plan.execute created comments).length ≤ comments.length + 1 := by
  cases plan with
  | create => simp [CommentWritePlan.execute]
  | update => simp [CommentWritePlan.execute]
  | noop => simp [CommentWritePlan.execute]

theorem replays_of_noop {id : Nat} {url : Option String}
    (hnoop : planTerminalBriefGitHubCommentWrite p comments = .noop id url p)
    (created : List (Nat × Option String)) : replays p created comments = comments := by
  induction created with
  | nil => rfl
  | cons made created ih =>
    rw [replays, List.foldl_cons, hnoop]
    exact ih

theorem length_replays (hown : ∀ c, c.body = p.body → p.finds c = true)
    (comments : List IssueComment) (created : List (Nat × Option String)) :
    (replays p created comments).length ≤ comments.length + 1 := by
  cases created with
  | nil => exact Nat.le_succ _
  | cons made created =>
    obtain ⟨url, hnoop⟩ := noop_of_finds hown comments made
    have hrest := replays_of_noop hnoop created
    rw [replays] at hrest ⊢
    rw [List.foldl_cons, hrest]
    exact length_execute _ made

theorem not_update_iff (hdiff : p.body ≠ q.body) :
    (∀ comments : List IssueComment, (comments.map (·.id)).Nodup → ∀ c ∈ comments,
        c.body = q.body → ∀ url, planTerminalBriefGitHubCommentWrite p comments ≠
          .update c.id url p) ↔
      p.finds { id := 0, body := q.body } = false := by
  constructor
  · intro hapart
    rw [Bool.eq_false_iff]
    intro hfinds
    refine hapart [{ id := 0, body := q.body }] (List.nodup_singleton 0) _ (.head _) rfl none ?_
    rw [planTerminalBriefGitHubCommentWrite, findExistingProjectionComment,
      List.find?_cons_of_pos hfinds]
    exact if_neg hdiff.symm
  · intro hfinds comments hnodup c hc hbody url hplan
    rw [planTerminalBriefGitHubCommentWrite, findExistingProjectionComment] at hplan
    cases hfind : comments.find? p.finds with
    | none =>
      rw [hfind] at hplan
      cases hplan
    | some existing =>
      rw [hfind] at hplan
      simp only [] at hplan
      split at hplan
      · cases hplan
      · obtain ⟨hid, -⟩ := CommentWritePlan.update.inj hplan
        have hsame : existing = c := List.inj_on_of_nodup_map hnodup
          (List.mem_of_find?_eq_some hfind) hc hid
        have hexisting : p.finds c = true := hsame ▸ List.find?_some hfind
        rw [EvidenceProjection.finds, hbody] at hexisting
        exact Bool.false_ne_true (hfinds.symm.trans hexisting)

end

/-! ## Whose comment a comment is -/

/-- The comment names the key at a place that is not that of the comment's own key. -/
def QuotesKey (key body : String) : Prop := ∃ before after,
  body.toList = before ++ ((lookedFor key).toList ++ after) ∧
    before ++ "key=".toList ≠ keyPlace.toList

/-- The projection has a key, and its comment names the key first. -/
structure Rendered (p : EvidenceProjection) : Prop where
  key : KeyText p.idempotencyKey.toList (p.manifestSha256.toList.take 16)
  body : ∃ rest, p.body = commentOf p.idempotencyKey rest

section

variable {p q : EvidenceProjection}

theorem Rendered.prefix_body (hp : Rendered p) {before : List Char} (hline : '\n' ∉ before)
    (hplace : before <+: keyPlace.toList) : before <+: p.body.toList := by
  obtain ⟨rest, hbody⟩ := hp.body
  rw [hbody]
  refine (prefix_boundCommentLength hline).mpr ⟨?_, .inr ?_⟩
  · rw [toList_commentOf]
    exact hplace.trans (List.prefix_append _ _)
  · obtain ⟨after, hafter⟩ := hplace
    have hunits : units (before ++ after) ≤ keptUnits := by
      rw [hafter, keyPlace_toList]
      decide
    rw [units_append] at hunits
    omega

theorem Rendered.markerPrefix_body (hp : Rendered p) :
    includesText p.body markerPrefix = true := by
  have hplace : markerPrefix.toList <+: keyPlace.toList := by
    rw [keyPlace, String.toList_append]
    exact List.prefix_append _ _
  exact includesText_iff.mpr (hp.prefix_body (by decide) hplace).isInfix

theorem Rendered.finds_iff (hq : Rendered q) (id : Nat) (url : Option String) :
    p.finds { id, body := q.body, htmlUrl := url } = true ↔
      (lookedFor p.idempotencyKey).toList <:+: q.body.toList := by
  rw [EvidenceProjection.finds, hq.markerPrefix_body, Bool.true_and, includesText_iff]
  rfl

theorem Rendered.finds_own (hp : Rendered p) (hkept : KeyKept p.idempotencyKey)
    (c : IssueComment) (hbody : c.body = p.body) : p.finds c = true := by
  obtain ⟨rest, hrest⟩ := hp.body
  have hin := (lookedFor_infix_iff hp.key rest).mpr hkept
  rw [← hrest, ← hbody] at hin
  rw [EvidenceProjection.finds, hbody, hp.markerPrefix_body, ← hbody, Bool.true_and,
    includesText_iff]
  exact hin

/-- A comment without its key is not found, and the next write makes another one. -/
theorem Rendered.create_again (hp : Rendered p) (hlost : ¬KeyKept p.idempotencyKey)
    (created : Nat × Option String) : planTerminalBriefGitHubCommentWrite p
      ((planTerminalBriefGitHubCommentWrite p []).execute created []) = .create p := by
  obtain ⟨rest, hrest⟩ := hp.body
  have hfinds : ¬p.finds { id := created.1, body := p.body, htmlUrl := created.2 } = true := by
    rw [hp.finds_iff, hrest, lookedFor_infix_iff hp.key]
    exact hlost
  have hfirst : planTerminalBriefGitHubCommentWrite p [] = .create p := rfl
  rw [hfirst, CommentWritePlan.execute, List.nil_append, planTerminalBriefGitHubCommentWrite,
    findExistingProjectionComment, List.find?_cons_of_neg hfinds]
  rfl

theorem Rendered.kept_of_noop (hp : Rendered p) {id : Nat} (hnoop : ∃ url,
    planTerminalBriefGitHubCommentWrite p
      ((planTerminalBriefGitHubCommentWrite p []).execute (0, none) []) = .noop id url p) :
    KeyKept p.idempotencyKey := by
  by_contra hlost
  obtain ⟨url, hnoop⟩ := hnoop
  rw [hp.create_again hlost (0, none)] at hnoop
  cases hnoop

/-- The first place of a comment names the key of its own digest. -/
theorem Rendered.not_own_place (hp : Rendered p) (hq : Rendered q)
    (hhash : p.manifestSha256.toList.take 16 ≠ q.manifestSha256.toList.take 16) :
    ¬keyPlace.toList ++ p.idempotencyKey.toList <+: q.body.toList := by
  intro hbegins
  obtain ⟨rest, hrest⟩ := hq.body
  rw [hrest] at hbegins
  obtain ⟨⟨after, hafter⟩, -⟩ := (prefix_boundCommentLength (lineless_place hp.key)).mp hbegins
  rw [toList_commentOf, List.append_assoc] at hafter
  exact hhash (hp.key.eq_of_redactAfter hq.key (List.append_cancel_left hafter).symm)

/-- Another comment is found by the key exactly where it quotes the key. -/
theorem Rendered.finds_iff_quotesKey (hp : Rendered p) (hq : Rendered q)
    (hhash : p.manifestSha256.toList.take 16 ≠ q.manifestSha256.toList.take 16) (id : Nat)
    (url : Option String) : p.finds { id, body := q.body, htmlUrl := url } = true ↔
      QuotesKey p.idempotencyKey q.body := by
  rw [hq.finds_iff]
  constructor
  · rintro ⟨before, after, hbody⟩
    refine ⟨before, after, by rw [← hbody, List.append_assoc], fun hplace => ?_⟩
    refine hp.not_own_place hq hhash ⟨after, ?_⟩
    rw [← hbody, ← hplace, lookedFor_toList]
    simp only [List.append_assoc]
  · rintro ⟨before, after, hbody, -⟩
    exact ⟨before, after, by rw [hbody, List.append_assoc]⟩

/-- The law for two projections of different digests. -/
theorem evidenceLaw_iff (hp : Rendered p) (hq : Rendered q)
    (hhash : p.manifestSha256.toList.take 16 ≠ q.manifestSha256.toList.take 16) :
    EvidenceLaw p q ↔ KeyKept p.idempotencyKey ∧ ¬QuotesKey p.idempotencyKey q.body := by
  constructor
  · intro hlaw
    have hkept : KeyKept p.idempotencyKey := hp.kept_of_noop (hlaw.noop [] (0, none))
    have hdiff : p.body ≠ q.body := by
      intro hsame
      obtain ⟨rest, hrest⟩ := hp.body
      refine hp.not_own_place hq hhash ?_
      rw [← hsame, hrest]
      exact prefix_commentOf hp.key hkept rest
    have hfinds := (not_update_iff hdiff).mp hlaw.apart
    refine ⟨hkept, fun hquotes => ?_⟩
    rw [(hp.finds_iff_quotesKey hq hhash 0 none).mpr hquotes] at hfinds
    cases hfinds
  · rintro ⟨hkept, hquotes⟩
    have hown := hp.finds_own hkept
    have hfinds : p.finds { id := 0, body := q.body } = false :=
      Bool.eq_false_iff.mpr fun h => hquotes ((hp.finds_iff_quotesKey hq hhash 0 none).mp h)
    have hdiff : p.body ≠ q.body := by
      intro hsame
      rw [hown { id := 0, body := q.body } hsame.symm] at hfinds
      cases hfinds
    exact ⟨noop_of_finds hown, length_replays hown, (not_update_iff hdiff).mpr hfinds⟩

end

/-! ## The comments of inputs -/

/-- The canonical manifest, of which the digest is made. -/
def GitHubEvidence.EvidenceManifest.canonical (host : Host) (m : EvidenceManifest) : String :=
  GitHubEvidence.stableStringify host m.json

section

variable {host : Host} {i j : EvidenceInput} {o o' : EvidenceOptions} {p q : EvidenceProjection}

theorem project_eq_ok_iff : projectTerminalBriefGitHubEvidenceComment host i o = .ok (some p) ↔
    ∃ m, buildManifest i = some m ∧ assertNoOpenClawRuntimePaths m.json = .ok () ∧
      m.projection host o = p := by
  unfold projectTerminalBriefGitHubEvidenceComment
  cases buildManifest i with
  | none =>
    constructor
    · intro h
      cases Except.ok.inj h
    · rintro ⟨m, h, -⟩
      cases h
  | some m =>
    constructor
    · intro h
      simp only [] at h
      cases hpaths : assertNoOpenClawRuntimePaths m.json with
      | error message =>
        rw [hpaths] at h
        cases h
      | ok u =>
        rw [hpaths] at h
        exact ⟨m, rfl, hpaths, Option.some.inj (Except.ok.inj h)⟩
    · rintro ⟨n, hn, hpaths, rfl⟩
      obtain rfl := Option.some.inj hn
      simp only [hpaths]
      rfl

theorem exists_renderCommentBody (m : EvidenceManifest) (manifestSha256 key : String)
    (renderedAt : Option String) : ∃ rest, renderCommentBody host m manifestSha256 key renderedAt =
      String.ofList (redactComment (keyPlace.toList ++ (key.toList ++ (keyEnd ++ rest)))) := by
  have hfirst : (markerLine manifestSha256 key).toList =
      keyPlace.toList ++ (key.toList ++ (keyEnd ++ (manifestSha256 ++ " -->").toList)) := by
    have hline : markerLine manifestSha256 key =
        keyPlace ++ (key ++ (" manifest=sha256:" ++ (manifestSha256 ++ " -->"))) := by
      unfold markerLine keyPlace
      simp only [String.append_assoc]
    rw [hline]
    unfold keyEnd
    simp only [String.toList_append]
  obtain ⟨rest, hrest⟩ : ∃ rest, ("\n".intercalate (markerLine manifestSha256 key ::
      detailLines host m manifestSha256 renderedAt)).toList =
        (markerLine manifestSha256 key).toList ++ rest := by
    rw [String.toList_intercalate, List.map_cons]
    cases detailLines host m manifestSha256 renderedAt with
    | nil => exact ⟨[], by rw [List.map_nil, List.intercalate_singleton, List.append_nil]⟩
    | cons line lines => exact ⟨_, by rw [List.map_cons, List.intercalate_cons_cons,
        List.append_assoc]⟩
  refine ⟨(manifestSha256 ++ " -->").toList ++ rest, ?_⟩
  unfold renderCommentBody redactCommentText
  simp only [hrest, hfirst, List.append_assoc]

theorem rendered_projection (hhex : HexDigests host) (m : EvidenceManifest)
    (o : EvidenceOptions) : Rendered (m.projection host o) := by
  generalize hp : m.projection host o = p
  have hkey : p.idempotencyKey = buildIdempotencyKey host m (host.sha256 (m.canonical host)) := by
    rw [← hp]
    rfl
  have hsha : p.manifestSha256 = host.sha256 (m.canonical host) := by
    rw [← hp]
    rfl
  have hbody : p.body = boundCommentLength
      (renderCommentBody host m p.manifestSha256 p.idempotencyKey o.renderedAt) := by
    simp only [← hp, EvidenceManifest.projection]
  obtain ⟨rest, hrest⟩ :=
    exists_renderCommentBody m p.manifestSha256 p.idempotencyKey o.renderedAt
  refine ⟨?_, rest, ?_⟩
  · rw [hkey, hsha]
    exact keyText_buildIdempotencyKey hhex m _
  · rw [hbody, hrest, commentOf]

/-- Where two inputs have manifests with digests that begin differently, the comment of the first
one is written once, and never over the comment of the second one, exactly when no redaction matches
in its key and the cut comes after it, and the other comment does not quote its key. -/
theorem evidence_replay_iff (hhex : HexDigests host)
    (hp : projectTerminalBriefGitHubEvidenceComment host i o = .ok (some p))
    (hq : projectTerminalBriefGitHubEvidenceComment host j o' = .ok (some q))
    (hdiff : p.manifest.canonical host ≠ q.manifest.canonical host)
    (hfree : (host.sha256 (p.manifest.canonical host)).toList.take 16 =
        (host.sha256 (q.manifest.canonical host)).toList.take 16 →
      p.manifest.canonical host = q.manifest.canonical host) :
    EvidenceLaw p q ↔ KeyKept p.idempotencyKey ∧ ¬QuotesKey p.idempotencyKey q.body := by
  obtain ⟨m, -, -, rfl⟩ := project_eq_ok_iff.mp hp
  obtain ⟨n, -, -, rfl⟩ := project_eq_ok_iff.mp hq
  exact evidenceLaw_iff (rendered_projection hhex m o) (rendered_projection hhex n o')
    fun hhash => hdiff (hfree hhash)

end

section Examples

def startOf (taskId : String) : EvidenceManifest :=
  buildStartManifest { repo := "o/r", number := 7, taskId }

def rotateTokenManifest : String :=
  "\x7b\"evidenceUrls\":\x7b\x7d,\"issueOrPrNumber\":7," ++
  "\"kind\":\"a2a-broker.terminal-brief.github-evidence\",\"marker\":\"Start\"," ++
  "\"repo\":\"o/r\",\"semantics\":\x7b\"githubCommentIsEvidenceLedgerEntry\":true," ++
  "\"githubCommentIsOperatorApproval\":false,\"githubCommentIsReadReceipt\":false," ++
  "\"githubCommentIsTerminalAck\":false,\"githubCommentIsVisibilityProof\":false\x7d," ++
  "\"source\":\"task-start\",\"taskId\":\"rotate-token\",\"version\":1\x7d"

/-- A host that knows the digests of two manifests. -/
def evidenceHost : Host where
  sha256 text := if text = rotateTokenManifest
    then "ea023d5607eb6505069cc18bb3e0e13280a7dedb7c8d21a4d87e2f98b6f871d7"
    else "dbbd9215da8f2a1923d0378efbc807edf7ce4823adb4a8277edb26318a963547"

theorem hexDigests_evidenceHost : HexDigests evidenceHost := by
  intro text
  rw [evidenceHost]
  dsimp only
  split
  · exact ⟨by decide, by decide⟩
  · exact ⟨by decide, by decide⟩

theorem canonical_rotateToken :
    (startOf "rotate-token").canonical evidenceHost = rotateTokenManifest := by
  decide +kernel

theorem canonical_task : (startOf "task-1").canonical evidenceHost ≠ rotateTokenManifest := by
  decide +kernel

theorem digest_rotateToken {text : String} (h : text = rotateTokenManifest) :
    evidenceHost.sha256 text =
      "ea023d5607eb6505069cc18bb3e0e13280a7dedb7c8d21a4d87e2f98b6f871d7" :=
  if_pos h

theorem digest_task {text : String} (h : text ≠ rotateTokenManifest) :
    evidenceHost.sha256 text =
      "dbbd9215da8f2a1923d0378efbc807edf7ce4823adb4a8277edb26318a963547" :=
  if_neg h

theorem project_task : projectTerminalBriefGitHubEvidenceComment evidenceHost
    (.start { repo := "o/r", number := 7, taskId := "task-1" }) {} =
      .ok (some ((startOf "task-1").projection evidenceHost {})) :=
  project_eq_ok_iff.mpr ⟨startOf "task-1", rfl, by decide +kernel, rfl⟩

theorem project_rotateToken : projectTerminalBriefGitHubEvidenceComment evidenceHost
    (.start { repo := "o/r", number := 7, taskId := "rotate-token" }) {} =
      .ok (some ((startOf "rotate-token").projection evidenceHost {})) :=
  project_eq_ok_iff.mpr ⟨startOf "rotate-token", rfl, by decide +kernel, rfl⟩

theorem evidence_replay_task :
    EvidenceLaw ((startOf "task-1").projection evidenceHost {})
        ((startOf "rotate-token").projection evidenceHost {}) ↔
      KeyKept ((startOf "task-1").projection evidenceHost {}).idempotencyKey ∧
        ¬QuotesKey ((startOf "task-1").projection evidenceHost {}).idempotencyKey
          ((startOf "rotate-token").projection evidenceHost {}).body := by
  refine evidence_replay_iff hexDigests_evidenceHost project_task project_rotateToken ?_ ?_
  · exact fun hsame => canonical_task (hsame.trans canonical_rotateToken)
  · intro hsame
    have htask := congrArg (·.toList.take 16) (digest_task canonical_task)
    have hrotate := congrArg (·.toList.take 16) (digest_rotateToken canonical_rotateToken)
    exact absurd (htask.symm.trans (hsame.trans hrotate)) (by decide)

/-- The `:` after `rotate-token` is taken for that before a secret, and each replay makes another
comment. -/
theorem evidence_created_again :
    let p := (startOf "rotate-token").projection evidenceHost {}
    projectTerminalBriefGitHubEvidenceComment evidenceHost
        (.start { repo := "o/r", number := 7, taskId := "rotate-token" }) {} = .ok (some p) ∧
      planTerminalBriefGitHubCommentWrite p
        ((planTerminalBriefGitHubCommentWrite p []).execute (1, none) []) = .create p := by
  have hlost : ¬KeyKept (buildIdempotencyKey evidenceHost (startOf "rotate-token")
      (evidenceHost.sha256 ((startOf "rotate-token").canonical evidenceHost))) := by
    rw [digest_rotateToken canonical_rotateToken]
    decide +kernel
  exact ⟨project_rotateToken,
    (rendered_projection hexDigests_evidenceHost _ {}).create_again hlost (1, none)⟩

end Examples

end A2ABroker
