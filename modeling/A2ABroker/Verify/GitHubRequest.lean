import A2ABroker.Core.GitHubTask
import A2ABroker.Lib.Text
import A2ABroker.Verify.TaskStream

/-! # Normalised GitHub requests

A request that is dispatched as GitHub work gets a canonical payload: the repository, the number of
the issue in two forms and its URL, each taken from the first place that gives it
(`normalizeGitHubPatchTaskRequest_cases`). A second pass finds all of them in the canonical fields,
and changes nothing, unless the number is zero (`CanonicalFields.again`). The URL is taken as it is
given, so that it names another issue when the given fields disagree. -/

namespace A2ABroker

/-! ## Trimmed texts -/

theorem trim_of_forall {s : String} (h : ∀ c ∈ s.toList, isSpace c = false) : trim s = s := by
  have hkeep : ∀ l : List Char, (∀ c ∈ l, isSpace c = false) → l.dropWhile isSpace = l := by
    intro l hl
    cases l with
    | nil => rfl
    | cons c cs => exact List.dropWhile_cons_of_neg (by simp [hl c (.head _)])
  unfold trim
  rw [hkeep _ h, hkeep _ (fun c hc => h c (List.mem_reverse.mp hc)), List.reverse_reverse,
    String.ofList_toList]

theorem trim_trim (s : String) : trim (trim s) = trim s := by
  have hrdrop : ∀ l : List Char, (l.reverse.dropWhile isSpace).reverse = l.rdropWhile isSpace :=
    fun _ => rfl
  unfold trim
  rw [String.toList_ofList, hrdrop, hrdrop]
  have hfront : ((s.toList.dropWhile isSpace).rdropWhile isSpace).dropWhile isSpace =
      (s.toList.dropWhile isSpace).rdropWhile isSpace := by
    cases hl : (s.toList.dropWhile isSpace).rdropWhile isSpace with
    | nil => rfl
    | cons c cs =>
      refine List.dropWhile_cons_of_neg ?_
      -- what is left starts with the first character that is no space
      have hbegins := List.rdropWhile_prefix isSpace (l := s.toList.dropWhile isSpace)
      rw [hl] at hbegins
      obtain ⟨rest, hrest⟩ := hbegins
      have hne : s.toList.dropWhile isSpace ≠ [] := by rw [← hrest]; simp
      have hhead := List.head_dropWhile_not isSpace hne
      simp only [← hrest, List.cons_append, List.head_cons] at hhead
      simp [hhead]
  rw [hfront, List.rdropWhile_idempotent]

theorem trimmed_trimmed {o : Option String} {text : String} (h : trimmed o = some text) :
    trimmed (some text) = some text := by
  obtain ⟨given, -, hgiven⟩ := Option.bind_eq_some_iff.mp h
  split at hgiven
  · cases hgiven
  · rename_i hne
    cases hgiven
    rw [trimmed, Option.bind_some, trim_trim, if_neg hne]

theorem trimmed_of_forall {s : String} (h : ∀ c ∈ s.toList, isSpace c = false) (hne : s ≠ "") :
    trimmed (some s) = some s := by
  rw [trimmed, Option.bind_some, trim_of_forall h, if_neg hne]

/-! ## The generated URL -/

theorem dropLiteral_append {literal : List Char} (h : ∀ c ∈ literal, c.toLower = c)
    (text : List Char) : dropLiteral literal (literal ++ text) = some text := by
  induction literal with
  | nil => cases text <;> rfl
  | cons c cs ih =>
    rw [List.cons_append, dropLiteral, if_pos (h c (.head _))]
    exact ih fun d hd => h d (.tail _ hd)

/-- The two segments of a repository's name. -/
theorem segments_of_isOwnerName {repo : String} (h : isOwnerName repo = true) :
    ∃ owner name, repo.toList = owner ++ '/' :: name ∧ owner ≠ [] ∧ name ≠ [] ∧
      (∀ c ∈ owner, isSegmentChar c = true) ∧ ∀ c ∈ name, isSegmentChar c = true := by
  unfold isOwnerName at h
  dsimp only at h
  split at h
  · rename_i name hrest
    simp only [Bool.and_eq_true, Bool.not_eq_true', List.isEmpty_eq_false_iff,
      List.all_eq_true] at h
    obtain ⟨⟨howner, hname⟩, hchars⟩ := h
    refine ⟨_, name, ?_, howner, hname, fun c hc => List.mem_takeWhile_imp hc, hchars⟩
    rw [← hrest, List.takeWhile_append_dropWhile]
  · cases h

theorem takeWhile_segment {segment : List Char} (h : ∀ c ∈ segment, isSegmentChar c = true)
    (rest : List Char) : (segment ++ '/' :: rest).takeWhile isSegmentChar = segment ∧
      (segment ++ '/' :: rest).dropWhile isSegmentChar = '/' :: rest := by
  have hslash : isSegmentChar '/' = false := by decide
  constructor
  · rw [List.takeWhile_append_of_pos h, List.takeWhile_cons_of_neg (by simp [hslash]),
      List.append_nil]
  · rw [List.dropWhile_append_of_pos h, List.dropWhile_cons_of_neg (by simp [hslash])]

/-- The URL that the normaliser makes names the repository and the number that it was made of. -/
theorem readGitHubIssueUrl_generated {repo : String} (h : isOwnerName repo = true) (n : Nat) :
    readGitHubIssueUrl (some ("https://github.com/" ++ repo ++ "/issues/" ++ toString n)) =
      some ⟨repo, n⟩ := by
  obtain ⟨owner, name, hrepo, howner, hname, hownerChars, hnameChars⟩ := segments_of_isOwnerName h
  have hdigits : (toString n).toList = Nat.toDigits 10 n := Text.toString_toList n
  have htext : ("https://github.com/" ++ repo ++ "/issues/" ++ toString n).toList =
      "http".toList ++ ("s".toList ++ ("://github.com/".toList ++ (owner ++ '/' :: (name ++
        '/' :: ("issues/".toList ++ Nat.toDigits 10 n))))) := by
    simp only [String.toList_append, hrepo, hdigits, List.append_assoc, List.cons_append]
    rfl
  have hwhole : issueUrlAt ("http".toList ++ ("s".toList ++ ("://github.com/".toList ++ (owner ++
      '/' :: (name ++ '/' :: ("issues/".toList ++ Nat.toDigits 10 n)))))) = some ⟨repo, n⟩ := by
    have hslash (text : List Char) : dropLiteral "/".toList ('/' :: text) = some text :=
      @dropLiteral_append "/".toList (by decide) text
    have hissues (text : List Char) :
        dropLiteral "/issues/".toList ('/' :: ("issues/".toList ++ text)) = some text :=
      @dropLiteral_append "/issues/".toList (by decide) text
    have hvalue : digitsValue (Nat.toDigits 10 n) = n :=
      Nat.ofDigitChars_toDigits (by decide) (by decide)
    have hname' : String.ofList (owner ++ '/' :: name) = repo := by
      rw [← hrepo, String.ofList_toList]
    have hempty : (owner.isEmpty || name.isEmpty || (Nat.toDigits 10 n).isEmpty) = false := by
      simp [howner, hname, Nat.toDigits_ne_nil]
    unfold issueUrlAt
    rw [dropLiteral_append (by decide), Option.bind_eq_bind, Option.bind_some,
      dropLiteral_append (by decide), Option.getD_some]
    dsimp only
    rw [dropLiteral_append (by decide), Option.bind_some, (takeWhile_segment hownerChars _).1,
      (takeWhile_segment hownerChars _).2, hslash, Option.bind_some,
      (takeWhile_segment hnameChars _).1, (takeWhile_segment hnameChars _).2, hissues,
      Option.bind_some, (isDecimal_toDigits n).takeWhile_isDigit, hempty,
      if_neg Bool.false_ne_true, hname', hvalue]
  have hhead : "http".toList = 'h' :: "ttp".toList := rfl
  rw [hhead, List.cons_append] at hwhole
  rw [readGitHubIssueUrl, Option.bind_some, htext, hhead, List.cons_append, findIssueUrl, hwhole,
    Option.some_or]

/-! ## What a request gives -/

section
variable (request : CreateTaskRequest)

def givenPayload : JsonObject := request.payload.getD []

def givenMode : Option String := readString ((givenPayload request).get "mode")

def givenUrl : Option String :=
  readString ((givenPayload request).get "issueUrl") <|>
    readString ((givenPayload request).get "githubIssueUrl")

/-- The repository: the canonical field, the legacy one, the URL's, or the message's. -/
def givenRepo : Option String :=
  readString ((givenPayload request).get "repo") <|>
    readString ((givenPayload request).get "githubRepo") <|>
    (readGitHubIssueUrl (givenUrl request)).map (·.repo) <|>
    (readGitHubIssueUrl request.message).map (·.repo)

/-- The number of the issue, from the same places. -/
def givenNumber : Option Nat :=
  readIssueNumber (Json.coalesce ((givenPayload request).get "issueNumber")
      ((givenPayload request).get "issue")) <|>
    readIssueNumber ((givenPayload request).get "githubIssueNumber") <|>
    (readGitHubIssueUrl (givenUrl request)).map (·.issueNumber) <|>
    (readGitHubIssueUrl request.message).map (·.issueNumber)

/-- Whether something says that the request is GitHub work. -/
def looksLikeGitHub : Bool :=
  let payload := givenPayload request
  let legacy := (readString (payload.get "githubRepo")).isSome ||
    (readIssueNumber (payload.get "githubIssueNumber")).isSome ||
    (readString (payload.get "githubIssueUrl")).isSome
  let pair := ((readString (payload.get "repo")).isSome ||
      (readString (payload.get "githubRepo")).isSome) &&
    ((readIssueNumber (Json.coalesce (payload.get "issueNumber") (payload.get "issue"))).isSome ||
      (readIssueNumber (payload.get "githubIssueNumber")).isSome ||
      (readString (payload.get "issueUrl")).isSome ||
      (readString (payload.get "githubIssueUrl")).isSome)
  let messageIssue := (readGitHubIssueUrl request.message).isSome
  let payloadIssue := (readGitHubIssueUrl (givenUrl request)).isSome
  givenMode request == some "github-propose-patch" ||
    (isGithubReadOnlyTaskRequest request (givenMode request) &&
      (pair || messageIssue || payloadIssue || legacy)) ||
    ((givenMode request).isSome && legacy) || messageIssue || payloadIssue ||
    (readString (payload.get "workMode") == some "github" ||
      readString (payload.get "githubWorkMode") == some "github") ||
    (request.intent == .proposePatch &&
      ((givenMode request).isNone || givenMode request == some "github-propose-patch") && pair)

/-- A request that is dispatched as GitHub work, to patch or to look only. -/
def dispatchesGitHub : Bool :=
  looksLikeGitHub request &&
    (isGithubReadOnlyTaskRequest request (givenMode request) ||
      (request.intent == .proposePatch && givenMode request != some "github-issue-instruction"))

end

/-! ## The property -/

/-- A canonical GitHub task: a patch task in the mode for patches, or a task that only looks and has
a repository and an issue. -/
def isCanonicalGitHub (request : CreateTaskRequest) : Bool :=
  request.taskOrigin == some .github &&
    ((request.intent == .proposePatch && givenMode request == some "github-propose-patch") ||
      (isGithubReadOnlyTaskRequest request (givenMode request) &&
        (readString ((givenPayload request).get "repo")).isSome &&
        (readString ((givenPayload request).get "issueUrl")).isSome))

/-- The canonical fields speak of one issue. -/
def OneIssue (payload : JsonObject) : Prop :=
  ∃ (repo : String) (number : Nat) (url : String), payload.get "repo" = some (.str repo) ∧
    payload.get "issueNumber" = some (.num number) ∧ 0 < number ∧
    payload.get "issue" = some (.str ("#" ++ toString number)) ∧
    payload.get "issueUrl" = some (.str url) ∧
    ∀ issue, readGitHubIssueUrl (some url) = some issue →
      issue.repo = repo ∧ issue.issueNumber = number

structure NormalForm (request : CreateTaskRequest) : Prop where
  again : normalizeGitHubPatchTaskRequest request = .ok request
  oneIssue : isCanonicalGitHub request = true → OneIssue (givenPayload request)

/-- What the request gives speaks of one issue: the number is not zero, and a given URL of an issue
names the given repository and the given number. -/
def GivesOneIssue (request : CreateTaskRequest) : Prop :=
  givenNumber request ≠ some 0 ∧
    ∀ issue, readGitHubIssueUrl (givenUrl request) = some issue →
      givenRepo request = some issue.repo ∧ givenNumber request = some issue.issueNumber

/-! ## One pass -/

section
variable (request : CreateTaskRequest) (repo : String) (number : Nat)

/-- The URL of the issue, as it is given or made. -/
def issueUrlOf : String :=
  (givenUrl request).getD ("https://github.com/" ++ repo ++ "/issues/" ++ toString number)

/-- The payload of a task that only looks. -/
def readOnlyPayload : JsonObject :=
  githubPayload (givenPayload request) (givenMode request) repo number
    (issueUrlOf request repo number)

/-- The payload of a patch task, with a mark if it was made from other fields. -/
def patchPayload : JsonObject :=
  let payload := givenPayload request
  let normalized := githubPayload payload (some "github-propose-patch") repo number
    (issueUrlOf request repo number)
  if (givenMode request).isNone || (readString (payload.get "repo")).isNone ||
      (readIssueNumber (Json.coalesce (payload.get "issueNumber") (payload.get "issue"))).isNone ||
      (readString (payload.get "issueUrl")).isNone then
    JsonObject.set "githubDispatchCompatibility" (.obj
      [("normalizedFromLegacyPayload", .bool true),
        ("legacyFields", .arr (githubLegacyFields payload))]) normalized
  else normalized

/-- The request with a canonical payload. -/
def withPayload (payload : JsonObject) : CreateTaskRequest :=
  { request with taskOrigin := some .github, payload := some payload }

end

/-- The last step of both branches: the repository and the number have to be there. -/
def acceptIssue (repoMessage numberMessage : String) (repo : Option String) (number : Option Nat)
    (accept : String → Nat → CreateTaskRequest) : Except BrokerError CreateTaskRequest :=
  match repo.filter isOwnerName, number with
  | none, _ => .error (badRequest repoMessage)
  | _, none => .error (badRequest numberMessage)
  | some repo, some number => .ok (accept repo number)

theorem acceptIssue_ok {repoMessage numberMessage : String} {repo : Option String}
    {number : Option Nat} {accept : String → Nat → CreateTaskRequest}
    {request' : CreateTaskRequest}
    (h : acceptIssue repoMessage numberMessage repo number accept = .ok request') :
    ∃ x n, repo = some x ∧ isOwnerName x = true ∧ number = some n ∧ request' = accept x n := by
  unfold acceptIssue at h
  split at h
  · cases h
  · cases h
  · rename_i x n hrepo
    obtain ⟨hx, howner⟩ := Option.filter_eq_some_iff.mp hrepo
    exact ⟨x, n, hx, howner, rfl, (Except.ok.inj h).symm⟩

theorem acceptIssue_of {repoMessage numberMessage repo : String} {number : Nat}
    {accept : String → Nat → CreateTaskRequest} (howner : isOwnerName repo = true) :
    acceptIssue repoMessage numberMessage (some repo) (some number) accept =
      .ok (accept repo number) := by
  unfold acceptIssue
  rw [Option.filter_some, if_pos howner]

section
variable {request request' : CreateTaskRequest} {mode : Option String}

theorem readOnly_intent (h : isGithubReadOnlyTaskRequest request mode = true) :
    (request.intent == .proposePatch) = false := by
  unfold isGithubReadOnlyTaskRequest at h
  cases hintent : request.intent <;> first | rfl | simp [hintent] at h

/-- What a pass makes of a request that it takes. -/
theorem normalizeGitHubPatchTaskRequest_cases
    (h : normalizeGitHubPatchTaskRequest request = .ok request') :
    (dispatchesGitHub request = false ∧ request' = request) ∨
    ∃ repo number, dispatchesGitHub request = true ∧ givenRepo request = some repo ∧
      isOwnerName repo = true ∧ givenNumber request = some number ∧
      ((isGithubReadOnlyTaskRequest request (givenMode request) = true ∧
          request' = withPayload request (readOnlyPayload request repo number)) ∨
        (request.intent = .proposePatch ∧
          request' = withPayload request (patchPayload request repo number))) := by
  unfold normalizeGitHubPatchTaskRequest at h
  by_cases hinstruction : request.intent = .proposePatch ∧
      givenMode request = some "github-issue-instruction"
  · refine .inl ⟨?_, (Except.ok.inj ((if_pos hinstruction).symm.trans h)).symm⟩
    have hread : isGithubReadOnlyTaskRequest request (givenMode request) = false := by
      rw [Bool.eq_false_iff]
      intro hread
      have hintent := readOnly_intent hread
      rw [hinstruction.1] at hintent
      cases hintent
    rw [dispatchesGitHub, hread, hinstruction.2]
    simp
  have h := (if_neg hinstruction).symm.trans h
  cases hlooks : looksLikeGitHub request with
  | false =>
    have hnot : (!looksLikeGitHub request) = true := by rw [hlooks]; rfl
    refine .inl ⟨?_, (Except.ok.inj ((if_pos hnot).symm.trans h)).symm⟩
    rw [dispatchesGitHub, hlooks, Bool.false_and]
  | true =>
    have hnot : ¬(!looksLikeGitHub request) = true := by rw [hlooks]; decide
    have h := (if_neg hnot).symm.trans h
    cases hread : isGithubReadOnlyTaskRequest request (givenMode request) with
    | true =>
      have h := (if_pos hread).symm.trans h
      by_cases hforeign : request.taskOrigin.any (· != .github) = true
      · cases (if_pos hforeign).symm.trans h
      have h := (if_neg hforeign).symm.trans h
      obtain ⟨repo, number, hrepo, howner, hnumber, heq⟩ :=
        @acceptIssue_ok _ _ (givenRepo request) (givenNumber request)
          (fun repo number => withPayload request (readOnlyPayload request repo number)) _ h
      refine .inr ⟨repo, number, ?_, hrepo, howner, hnumber, .inl ⟨rfl, heq⟩⟩
      rw [dispatchesGitHub, hlooks, hread]
      rfl
    | false =>
      have hnot : ¬isGithubReadOnlyTaskRequest request (givenMode request) = true := by simp [hread]
      have h := (if_neg hnot).symm.trans h
      by_cases hintent : request.intent = .proposePatch
      · have h := (if_neg (not_not.mpr hintent)).symm.trans h
        by_cases hforeign : request.taskOrigin.any (· != .github) = true
        · cases (if_pos hforeign).symm.trans h
        have h := (if_neg hforeign).symm.trans h
        split at h
        · cases h
        split at h
        · cases h
        obtain ⟨repo, number, hrepo, howner, hnumber, heq⟩ :=
          @acceptIssue_ok _ _ (givenRepo request) (givenNumber request)
            (fun repo number => withPayload request (patchPayload request repo number)) _ h
        refine .inr ⟨repo, number, ?_, hrepo, howner, hnumber, .inr ⟨hintent, heq⟩⟩
        have hother : (givenMode request != some "github-issue-instruction") = true :=
          bne_iff_ne.mpr fun hmode => hinstruction ⟨hintent, hmode⟩
        rw [dispatchesGitHub, hlooks, hread, hintent, hother]
        rfl
      · have h := (if_pos hintent).symm.trans h
        split at h
        · refine .inl ⟨?_, (Except.ok.inj h).symm⟩
          have hpatch : (request.intent == .proposePatch) = false := beq_eq_false_iff_ne.mpr hintent
          rw [dispatchesGitHub, hread, hpatch, Bool.false_and, Bool.false_or, Bool.and_false]
        · cases h

end

/-! ## Canonical fields -/

theorem JsonObject.get_set (name name' : String) (v : Json) (o : JsonObject) :
    (JsonObject.set name v o).get name' = if name = name' then some v else o.get name' := by
  unfold JsonObject.get
  induction o with
  | nil =>
    rw [JsonObject.set, List.find?_cons]
    by_cases hname : name = name' <;> simp [hname]
  | cons p ps ih =>
    rw [JsonObject.set]
    split
    · rename_i hp
      by_cases hname : name = name'
      · simp [hname]
      · have hp' : p.1 ≠ name' := fun heq => hname (hp.symm.trans heq)
        simp [hname, hp']
    · rename_i hp
      by_cases hp' : p.1 = name'
      · have hname : name ≠ name' := fun heq => hp (hp'.trans heq.symm)
        simp [hp', hname]
      · simpa [hp'] using ih

theorem JsonObject.set_of_get {name : String} {v : Json} {o : JsonObject}
    (h : o.get name = some v) : JsonObject.set name v o = o := by
  unfold JsonObject.get at h
  induction o with
  | nil => cases h
  | cons p ps ih =>
    rw [JsonObject.set]
    split
    · rename_i hp
      rw [List.find?_cons_of_pos (by simpa using hp)] at h
      obtain rfl := Option.some.inj h
      rw [← hp]
    · rename_i hp
      rw [List.find?_cons_of_neg (by simpa using hp)] at h
      rw [ih h]

/-- What a pass leaves. -/
structure CanonicalFields (request : CreateTaskRequest) (mode repo url : String) (number : Nat) :
    Prop where
  origin : request.taskOrigin = some .github
  given : ∃ payload, request.payload = some payload
  hasMode : (givenPayload request).get "mode" = some (.str mode)
  hasRepo : (givenPayload request).get "repo" = some (.str repo)
  hasIssue : (givenPayload request).get "issue" = some (.str ("#" ++ toString number))
  hasNumber : (givenPayload request).get "issueNumber" = some (.num number)
  hasUrl : (givenPayload request).get "issueUrl" = some (.str url)
  readMode : trimmed (some mode) = some mode
  ownerName : isOwnerName repo = true
  readUrl : trimmed (some url) = some url
  kind : isGithubReadOnlyTaskRequest request (some mode) = true ∨
    request.intent = .proposePatch ∧ mode = "github-propose-patch"

theorem nonspace_of_isOwnerName {repo : String} (h : isOwnerName repo = true) :
    ∀ c ∈ repo.toList, isSpace c = false := by
  obtain ⟨owner, name, hrepo, -, -, howner, hname⟩ := segments_of_isOwnerName h
  have hsegment : ∀ c, isSegmentChar c = true → isSpace c = false := by
    intro c hc
    rw [isSegmentChar, Bool.and_eq_true] at hc
    simpa using hc.2
  rw [hrepo]
  intro c hc
  rcases List.mem_append.mp hc with hc | hc
  · exact hsegment c (howner c hc)
  · rcases List.mem_cons.mp hc with rfl | hc
    · decide
    · exact hsegment c (hname c hc)

theorem trimmed_of_isOwnerName {repo : String} (h : isOwnerName repo = true) :
    trimmed (some repo) = some repo := by
  refine trimmed_of_forall (nonspace_of_isOwnerName h) ?_
  rintro rfl
  cases h

namespace CanonicalFields

variable {request : CreateTaskRequest} {mode repo url : String} {number : Nat}
  (h : CanonicalFields request mode repo url number)
include h

theorem givenMode_eq : givenMode request = some mode := by
  rw [givenMode, h.hasMode]
  exact h.readMode

theorem readRepo : readString ((givenPayload request).get "repo") = some repo := by
  rw [h.hasRepo]
  exact trimmed_of_isOwnerName h.ownerName

theorem readIssueUrl : readString ((givenPayload request).get "issueUrl") = some url := by
  rw [h.hasUrl]
  exact h.readUrl

theorem givenRepo_eq : givenRepo request = some repo := by
  rw [givenRepo, h.readRepo]
  rfl

theorem givenUrl_eq : givenUrl request = some url := by
  rw [givenUrl, h.readIssueUrl]
  rfl

/-- A number is read back unless it is zero. -/
theorem readNumber (hpos : 0 < number) :
    readIssueNumber (Json.coalesce ((givenPayload request).get "issueNumber")
      ((givenPayload request).get "issue")) = some number := by
  rw [h.hasNumber]
  have hden : ((number : Nat) : Rat).den = 1 := Rat.den_natCast number
  have hnum : ((number : Nat) : Rat).num = number := Rat.num_natCast number
  show readIssueNumber (some (.num number)) = some number
  rw [readIssueNumber, hden, hnum, if_pos ⟨rfl, Int.natCast_pos.mpr hpos⟩, Int.toNat_natCast]

theorem isCanonical : isCanonicalGitHub request = true := by
  rw [isCanonicalGitHub, h.origin, h.givenMode_eq, h.readRepo, h.readIssueUrl]
  rcases h.kind with hread | ⟨hintent, hmode⟩
  · rw [hread]
    simp
  · rw [hintent, hmode]
    rfl

theorem oneIssue_iff : OneIssue (givenPayload request) ↔ 0 < number ∧
    ∀ issue, readGitHubIssueUrl (some url) = some issue →
      issue.repo = repo ∧ issue.issueNumber = number := by
  constructor
  · rintro ⟨repo', number', url', hrepo, hnumber, hpos, -, hurl, hissue⟩
    rw [h.hasRepo, Option.some.injEq, Json.str.injEq] at hrepo
    rw [h.hasNumber, Option.some.injEq, Json.num.injEq, Nat.cast_inj] at hnumber
    rw [h.hasUrl, Option.some.injEq, Json.str.injEq] at hurl
    subst hrepo hnumber hurl
    exact ⟨hpos, hissue⟩
  · rintro ⟨hpos, hissue⟩
    exact ⟨repo, number, url, h.hasRepo, h.hasNumber, hpos, h.hasIssue, h.hasUrl, hissue⟩

/-- The canonical properties are there already. -/
theorem githubPayload_eq :
    githubPayload (givenPayload request) (some mode) repo number url = givenPayload request := by
  unfold githubPayload
  dsimp only
  rw [JsonObject.set_of_get h.hasMode, JsonObject.set_of_get h.hasRepo,
    JsonObject.set_of_get h.hasIssue, JsonObject.set_of_get h.hasNumber,
    JsonObject.set_of_get h.hasUrl]

theorem withPayload_eq : withPayload request (givenPayload request) = request := by
  obtain ⟨payload, hpayload⟩ := h.given
  have hgiven : some (givenPayload request) = request.payload := by
    rw [givenPayload, hpayload, Option.getD_some]
  rw [withPayload, hgiven, ← h.origin]

/-- Another pass changes nothing. -/
theorem again (hpos : 0 < number) :
    normalizeGitHubPatchTaskRequest request = .ok request := by
  have hforeign : ¬request.taskOrigin.any (· != .github) = true := by
    rw [h.origin]
    decide
  have hlooks : ¬(!looksLikeGitHub request) = true := by
    rw [looksLikeGitHub, h.givenMode_eq, h.readRepo, h.readNumber hpos]
    rcases h.kind with hread | ⟨-, rfl⟩
    · simp [hread]
    · simp
  have hinstruction : ¬(request.intent = .proposePatch ∧
      givenMode request = some "github-issue-instruction") := by
    rintro ⟨hintent, hmode⟩
    rw [h.givenMode_eq, Option.some.injEq] at hmode
    rcases h.kind with hread | ⟨-, hpatch⟩
    · have hnot := readOnly_intent hread
      rw [hintent] at hnot
      cases hnot
    · exact absurd (hmode.symm.trans hpatch) (by decide)
  have hurl : issueUrlOf request repo number = url := by
    rw [issueUrlOf, h.givenUrl_eq, Option.getD_some]
  have haccept : ∀ (repoMessage numberMessage : String) accept,
      accept repo number = request →
      acceptIssue repoMessage numberMessage (givenRepo request) (givenNumber request) accept =
        .ok request := by
    intro repoMessage numberMessage accept haccept
    have hnumber : givenNumber request = some number := by
      rw [givenNumber, h.readNumber hpos]
      rfl
    rw [h.givenRepo_eq, hnumber, acceptIssue_of h.ownerName, haccept]
  unfold normalizeGitHubPatchTaskRequest
  refine (if_neg hinstruction).trans ((if_neg hlooks).trans ?_)
  rcases h.kind with hread | ⟨hintent, hmode⟩
  · have hread' : isGithubReadOnlyTaskRequest request (givenMode request) = true := by
      rw [h.givenMode_eq]
      exact hread
    refine (if_pos hread').trans ((if_neg hforeign).trans (haccept _ _
      (fun repo number => withPayload request (readOnlyPayload request repo number)) ?_))
    rw [readOnlyPayload, hurl, h.givenMode_eq, h.githubPayload_eq, h.withPayload_eq]
  · have hread' : ¬isGithubReadOnlyTaskRequest request (givenMode request) = true := by
      intro hread
      have hnot := readOnly_intent hread
      rw [hintent] at hnot
      cases hnot
    have hpayload : patchPayload request repo number = givenPayload request := by
      rw [patchPayload, hurl, h.givenMode_eq, h.readRepo, h.readNumber hpos, h.readIssueUrl,
        ← hmode, h.githubPayload_eq]
      rfl
    have hsome : (givenMode request).isNone = false := by
      rw [h.givenMode_eq]
      rfl
    have hcanonical : (givenMode request).getD "github-propose-patch" = "github-propose-patch" := by
      rw [h.givenMode_eq]
      exact hmode
    refine (if_neg hread').trans ((if_neg (not_not.mpr hintent)).trans
      ((if_neg hforeign).trans ((if_neg fun hnone => ?_).trans
        ((if_neg (not_not.mpr hcanonical)).trans (haccept _ _
          (fun repo number => withPayload request (patchPayload request repo number)) ?_)))))
    · exact absurd (hsome.symm.trans (Bool.and_eq_true_iff.mp hnone).1) (by decide)
    · rw [hpayload, h.withPayload_eq]

end CanonicalFields

/-! ## What a pass leaves -/

section
variable {request : CreateTaskRequest} {repo : String}

theorem trimmed_issueUrlOf (howner : isOwnerName repo = true) (number : Nat) :
    trimmed (some (issueUrlOf request repo number)) = some (issueUrlOf request repo number) := by
  rw [issueUrlOf]
  cases hgiven : givenUrl request with
  | some url =>
    rw [givenUrl, Option.orElse_eq_some] at hgiven
    rcases hgiven with hurl | ⟨-, hurl⟩ <;> exact trimmed_trimmed hurl
  | none =>
    rw [Option.getD_none]
    refine trimmed_of_forall ?_ ?_
    · intro c hc
      have hhost : ∀ c ∈ "https://github.com/".toList, isSpace c = false := by decide
      have hissues : ∀ c ∈ "/issues/".toList, isSpace c = false := by decide
      simp only [String.toList_append, List.mem_append] at hc
      rcases hc with ((hc | hc) | hc) | hc
      · exact hhost c hc
      · exact nonspace_of_isOwnerName howner c hc
      · exact hissues c hc
      · rw [Text.toString_toList] at hc
        exact IsDecimal.isSpace_of_mem (isDecimal_toDigits number) hc
    · intro hempty
      have hchars := congrArg String.toList hempty
      simp only [String.toList_append] at hchars
      cases hchars

theorem get_githubPayload (payload : JsonObject) (mode repo url : String) (number : Nat) :
    let made := githubPayload payload (some mode) repo number url
    made.get "mode" = some (.str mode) ∧ made.get "repo" = some (.str repo) ∧
      made.get "issue" = some (.str ("#" ++ toString number)) ∧
      made.get "issueNumber" = some (.num number) ∧ made.get "issueUrl" = some (.str url) := by
  simp [githubPayload, JsonObject.get_set]

theorem canonicalFields_readOnly
    (hread : isGithubReadOnlyTaskRequest request (givenMode request) = true)
    (howner : isOwnerName repo = true) (number : Nat) : ∃ mode,
      CanonicalFields (withPayload request (readOnlyPayload request repo number)) mode repo
        (issueUrlOf request repo number) number := by
  cases hmode : givenMode request with
  | none =>
    rw [hmode] at hread
    cases hread
  | some mode =>
    obtain ⟨hasMode, hasRepo, hasIssue, hasNumber, hasUrl⟩ := get_githubPayload
      (givenPayload request) mode repo (issueUrlOf request repo number) number
    rw [← hmode] at hasMode hasRepo hasIssue hasNumber hasUrl
    exact ⟨mode, {
      origin := rfl
      given := ⟨_, rfl⟩
      hasMode, hasRepo, hasIssue, hasNumber, hasUrl
      readMode := trimmed_trimmed hmode
      ownerName := howner
      readUrl := trimmed_issueUrlOf howner number
      kind := .inl (hmode ▸ hread) }⟩

theorem canonicalFields_patch (hintent : request.intent = .proposePatch)
    (howner : isOwnerName repo = true) (number : Nat) :
    CanonicalFields (withPayload request (patchPayload request repo number)) "github-propose-patch"
      repo (issueUrlOf request repo number) number := by
  have hget : ∀ name, "githubDispatchCompatibility" ≠ name →
      (patchPayload request repo number).get name =
        JsonObject.get (githubPayload (givenPayload request) (some "github-propose-patch") repo
          number (issueUrlOf request repo number)) name := by
    intro name hname
    unfold patchPayload
    dsimp only
    split
    · rw [JsonObject.get_set, if_neg hname]
    · rfl
  obtain ⟨hasMode, hasRepo, hasIssue, hasNumber, hasUrl⟩ := get_githubPayload (givenPayload request)
    "github-propose-patch" repo (issueUrlOf request repo number) number
  exact {
    origin := rfl
    given := ⟨_, rfl⟩
    hasMode := (hget _ (by decide)).trans hasMode
    hasRepo := (hget _ (by decide)).trans hasRepo
    hasIssue := (hget _ (by decide)).trans hasIssue
    hasNumber := (hget _ (by decide)).trans hasNumber
    hasUrl := (hget _ (by decide)).trans hasUrl
    readMode := by decide
    ownerName := howner
    readUrl := trimmed_issueUrlOf howner number
    kind := .inr ⟨hintent, rfl⟩ }

/-- The URL of the canonical payload names the issue exactly when a given URL does. -/
theorem issueUrlOf_names_iff (howner : isOwnerName repo = true) (number : Nat) :
    (∀ issue, readGitHubIssueUrl (some (issueUrlOf request repo number)) = some issue →
      issue.repo = repo ∧ issue.issueNumber = number) ↔
    ∀ issue, readGitHubIssueUrl (givenUrl request) = some issue →
      issue.repo = repo ∧ issue.issueNumber = number := by
  rw [issueUrlOf]
  cases givenUrl request with
  | some url => rfl
  | none =>
    rw [Option.getD_none, readGitHubIssueUrl_generated howner]
    refine iff_of_true ?_ nofun
    rintro issue ⟨⟩
    exact ⟨rfl, rfl⟩

end

/-! ## Normal forms -/

variable {request request' : CreateTaskRequest}

theorem isCanonicalGitHub_of_other (h : dispatchesGitHub request = false) :
    isCanonicalGitHub request = false := by
  rw [Bool.eq_false_iff]
  intro hcanonical
  rw [isCanonicalGitHub, Bool.and_eq_true, Bool.or_eq_true, Bool.and_eq_true, beq_iff_eq,
    beq_iff_eq, Bool.and_eq_true, Bool.and_eq_true] at hcanonical
  obtain ⟨-, ⟨hintent, hmode⟩ | ⟨⟨hread, hrepo⟩, hurl⟩⟩ := hcanonical
  · rw [beq_iff_eq] at hmode
    simp [dispatchesGitHub, looksLikeGitHub, hintent, hmode] at h
  · simp [dispatchesGitHub, looksLikeGitHub, hread, hrepo, hurl] at h

section Examples

/-- A patch task for `acme/app`. -/
def patchRequest (fields : JsonObject) : CreateTaskRequest where
  intent := .proposePatch
  requester := { id := "hub" }
  target := { id := "worker" }
  payload := some (("mode", .str "github-propose-patch") :: ("repo", .str "acme/app") :: fields)

def numberedRequest : CreateTaskRequest :=
  patchRequest [("issueNumber", .num 7), ("issueUrl", .str "https://github.com/acme/app/issues/7")]

def zeroRequest : CreateTaskRequest := patchRequest [("issue", .str "#0")]

def twoIssuesRequest : CreateTaskRequest :=
  patchRequest [("issueNumber", .num 7), ("issueUrl", .str "https://github.com/acme/lib/issues/9")]

end Examples

end A2ABroker
