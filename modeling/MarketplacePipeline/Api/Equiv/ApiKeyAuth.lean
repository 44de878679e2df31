import MarketplacePipeline.Api.ApiKeyAuth

/-!
# Who reaches the jobs

A routed path is not public, so the middleware lets a request for it through without the key only
when the public path comes from the `Host` header: `hostPath` is what the URL parser takes from
there (`isPublicPath_parsedPath`).  Every credential is judged by the key as long as the URL parser
accepts the netloc and finds no public path behind it, and the comparison does not raise
(`answersByKey_iff`).
-/

namespace MarketplacePipeline

open UrlSplit

/-! ### Public paths -/

/-- Every public prefix is one segment. -/
theorem exists_segment {pre : Str} (h : pre ∈ publicPathPrefixes) :
    ∃ segment, pre = '/' :: segment ∧ '/' ∉ segment := by
  simp only [publicPathPrefixes, List.mem_cons, List.not_mem_nil, or_false] at h
  rcases h with rfl | rfl | rfl | rfl | rfl | rfl <;> exact ⟨_, rfl, by decide⟩

theorem isPublicPath_iff {path : Str} : isPublicPath path = true ↔
    ∃ pre ∈ publicPathPrefixes, path = pre ∨ pre ++ ['/'] <+: path := by
  simp [isPublicPath]

/-- A path under another one is public exactly if the other one is. -/
theorem isPublicPath_append {t s : Str} (ht : t.head? = some '/') (hs : s.head? = some '/') :
    isPublicPath (t ++ s) = isPublicPath t := by
  obtain ⟨c, t, rfl⟩ := List.exists_cons_of_ne_nil (l := t) (by rintro rfl; cases ht)
  obtain rfl : c = '/' := Option.some.inj ht
  obtain ⟨c, s, rfl⟩ := List.exists_cons_of_ne_nil (l := s) (by rintro rfl; cases hs)
  obtain rfl : c = '/' := Option.some.inj hs
  rw [Bool.eq_iff_iff, isPublicPath_iff, isPublicPath_iff]
  refine exists_congr fun pre => and_congr_right fun hpre => ?_
  obtain ⟨segment, rfl, hsegment⟩ := exists_segment hpre
  rw [List.cons_append, List.cons_append, List.cons.injEq, List.cons.injEq,
    List.cons_prefix_cons, List.cons_prefix_cons]
  simp only [true_and]
  constructor
  · rintro (heq | hpre)
    · exact absurd (by rw [← heq]; simp) hsegment
    · obtain ⟨r, hr⟩ := hpre
      rw [List.append_assoc, List.singleton_append] at hr
      -- the segment ends where the path under it begins, or before
      rcases List.append_eq_append_iff.mp hr with ⟨a, rfl, ha⟩ | ⟨c, rfl, hc⟩
      · cases a with
        | nil => exact Or.inl (List.append_nil _)
        | cons _ a =>
          obtain ⟨rfl, -⟩ := List.cons.inj ha
          exact Or.inr ⟨a, by simp⟩
      · cases c with
        | nil => exact Or.inl (List.append_nil _).symm
        | cons _ c =>
          obtain ⟨rfl, -⟩ := List.cons.inj hc
          exact absurd (by simp) hsegment
  · rintro (rfl | hpre)
    · exact Or.inr ⟨s, by simp⟩
    · exact Or.inr (hpre.trans (List.prefix_append _ _))

/-! ### The path of the URL -/

namespace ApiRequest

/-- What follows `://` in the URL, as far as the URL parser sees it. -/
def cleanTarget (req : ApiRequest) : Str := (req.host ++ req.path).filter fun c => !isUnsafe c

/-- The netloc of the URL. -/
def netloc (req : ApiRequest) : Str := req.cleanTarget.takeWhile fun c => !isDelimiter c

/-- The path of the URL. -/
def parsedPath (req : ApiRequest) : Str :=
  (req.cleanTarget.dropWhile fun c => !isDelimiter c).takeWhile isPathChar

/-- The `Host` header, as far as the URL parser sees it. -/
def cleanHost (req : ApiRequest) : Str := req.host.filter fun c => !isUnsafe c

/-- The part of the `Host` header that is the netloc of the URL. -/
def hostNetloc (req : ApiRequest) : Str := req.cleanHost.takeWhile fun c => !isDelimiter c

/-- The part of the `Host` header that is in the path of the URL. -/
def hostPath (req : ApiRequest) : Str :=
  (req.cleanHost.dropWhile fun c => !isDelimiter c).takeWhile isPathChar

variable {req : ApiRequest}

/-- The routed path of a request for a handler under `/api/v1`. -/
theorem jobsPath_prefix {handler : JobHandler} (h : jobHandler req = some handler) :
    jobsPath <+: req.path := by
  unfold jobHandler at h
  split_ifs at h with hpath _ _ hunder
  · rcases hpath with heq | heq
    · rw [heq]
    · rw [heq]
      exact List.prefix_append _ _
  · rcases hpath with heq | heq
    · rw [heq]
    · rw [heq]
      exact List.prefix_append _ _
  · exact (List.prefix_append _ _).trans (List.isPrefixOf_iff_prefix.mp hunder)

/-- What the URL parser reads. -/
theorem urlPath_eq (accepts : Str → Bool) (req : ApiRequest) :
    req.urlPath accepts =
      if accepts req.netloc then .ok req.parsedPath
      else .error ⟨.value, "netloc contains invalid characters".toList⟩ := by
  have hclean : ∀ rest : Str, (((req.scheme.text ++ "://".toList ++ rest).dropWhile
      fun c => c.toNat ≤ 32).filter fun c => !isUnsafe c) =
      req.scheme.text ++ "://".toList ++ rest.filter fun c => !isUnsafe c := by
    intro rest
    cases req.scheme <;> rfl
  have hscheme : ∀ rest : Str, dropScheme (req.scheme.text ++ "://".toList ++ rest) =
      '/' :: '/' :: rest := by
    intro rest
    cases req.scheme <;> rfl
  rw [urlPath, UrlSplit.path, List.append_assoc (_ ++ _), hclean, hscheme, splitNetloc]
  rfl

/-- The netloc comes from the `Host` header if the routed path begins with a slash. -/
theorem netloc_eq (hpath : req.path.head? = some '/') : req.netloc = req.hostNetloc := by
  obtain ⟨path, hcons⟩ : ∃ path, req.path = '/' :: path := by
    obtain ⟨c, path, hcons⟩ := List.exists_cons_of_ne_nil (l := req.path)
      (by rintro hnil; rw [hnil] at hpath; cases hpath)
    rw [hcons] at hpath
    exact ⟨path, by rw [hcons, Option.some.inj hpath]⟩
  rw [netloc, cleanTarget, List.filter_append, hcons, hostNetloc, cleanHost, List.takeWhile_append]
  split_ifs with hfull
  · -- the routed path begins with a delimiter
    have hslash : (('/' :: path).filter fun c => !isUnsafe c).takeWhile
        (fun c => !isDelimiter c) = [] := rfl
    rw [hslash, List.append_nil]
    exact ((List.takeWhile_prefix _).eq_of_length hfull).symm
  · rfl

/-- For a handler under `/api/v1`, the path of the URL is public exactly if the part of it that
comes from the `Host` header is. -/
theorem isPublicPath_parsedPath {handler : JobHandler} (h : jobHandler req = some handler) :
    isPublicPath req.parsedPath = isPublicPath req.hostPath := by
  have hsplit : req.parsedPath = ((req.cleanHost ++ req.path.filter fun c => !isUnsafe c).dropWhile
      fun c => !isDelimiter c).takeWhile isPathChar := by
    rw [parsedPath, cleanTarget, List.filter_append, cleanHost]
  obtain ⟨rest, hrest⟩ := jobsPath_prefix h
  have hpath : ((req.path.filter fun c => !isUnsafe c).takeWhile isPathChar) =
      jobsPath ++ (rest.filter fun c => !isUnsafe c).takeWhile isPathChar := by
    rw [← hrest]
    rfl
  rw [hsplit, List.dropWhile_append, hostPath]
  split_ifs with hnone
  · -- the host has no delimiter, and the path of the URL is the routed path
    have hdrop : ((req.path.filter fun c => !isUnsafe c).dropWhile fun c => !isDelimiter c) =
        req.path.filter fun c => !isUnsafe c := by
      rw [← hrest]
      rfl
    rw [hdrop, hpath, List.isEmpty_iff.mp hnone]
    rfl
  · rw [List.takeWhile_append]
    split_ifs with hfull
    · have heq := (List.takeWhile_prefix isPathChar).eq_of_length hfull
      rw [heq, hpath]
      refine isPublicPath_append ?_ rfl
      obtain ⟨c, cs, hcons⟩ : ∃ c cs, (req.cleanHost.dropWhile fun c => !isDelimiter c) =
          c :: cs := List.exists_cons_of_ne_nil fun h => hnone (by rw [h]; rfl)
      have hdelimiter : isDelimiter c = true := by
        have hfind := req.cleanHost.find?_eq_head?_dropWhile_not isDelimiter
        rw [hcons, List.head?_cons] at hfind
        exact List.find?_some hfind
      have hchar : isPathChar c = true := by
        refine List.mem_takeWhile_imp (l := c :: cs) ?_
        rw [← hcons, heq, hcons]
        exact List.mem_cons_self
      -- the only delimiter that may stand in a path
      rw [hcons, List.head?_cons]
      simp only [isDelimiter, isPathChar, Bool.or_eq_true, Bool.and_eq_true, beq_iff_eq,
        bne_iff_ne] at hdelimiter hchar
      tauto
    · rfl

end ApiRequest

/-! ### The middleware -/

namespace ApiKeyAuthMiddleware

variable {accepts : Str → Bool} {apiKey : Str} {req : ApiRequest}

theorem dispatch_of_error {exc : PyError} (hkey : apiKey ≠ [])
    (hpath : req.urlPath accepts = .error exc) : dispatch accepts apiKey req = .error exc := by
  rw [dispatch, if_neg hkey, hpath]
  rfl

theorem dispatch_of_public {path : Str} (hpath : req.urlPath accepts = .ok path)
    (hpublic : isPublicPath path = true) : dispatch accepts apiKey req = .ok .callNext := by
  unfold dispatch
  by_cases hkey : apiKey = []
  · rw [if_pos hkey]
    rfl
  · rw [if_neg hkey, hpath]
    show (if isPublicPath path then _ else _) = _
    rw [if_pos hpublic]
    rfl

/-- `{"detail": "Invalid or missing API key"}`. -/
def invalidKey : Result := .unauthorized "Invalid or missing API key".toList

/-- On a path that is not public, the credential is compared with the key. -/
theorem dispatch_of_not_public (hkey : apiKey ≠ []) {path : Str}
    (hpath : req.urlPath accepts = .ok path) (hpublic : isPublicPath path = false) :
    dispatch accepts apiKey req =
      if provided req = [] then .ok invalidKey
      else
        match compareDigest (provided req) apiKey with
        | .ok same => .ok (if same then .callNext else invalidKey)
        | .error exc => .error exc := by
  unfold dispatch
  rw [if_neg hkey, hpath]
  show (if isPublicPath path then _ else _) = _
  rw [hpublic, if_neg Bool.false_ne_true]
  by_cases hnone : provided req = []
  · rw [if_pos hnone, if_pos hnone]
    rfl
  · rw [if_neg hnone, if_neg hnone]
    cases compareDigest (provided req) apiKey with
    | error exc => rfl
    | ok same => cases same <;> rfl

/-- A path that is not public needs the key. -/
theorem provided_of_callNext (hkey : apiKey ≠ []) {path : Str}
    (hpath : req.urlPath accepts = .ok path) (hpublic : isPublicPath path = false)
    (hcall : dispatch accepts apiKey req = .ok .callNext) : provided req = apiKey := by
  rw [dispatch_of_not_public hkey hpath hpublic] at hcall
  split_ifs at hcall with hnone
  · cases hcall
  · cases hcompare : compareDigest (provided req) apiKey with
    | error exc =>
      rw [hcompare] at hcall
      cases hcall
    | ok same =>
      rw [hcompare] at hcall
      cases same with
      | false => cases hcall
      | true =>
        unfold compareDigest at hcompare
        split_ifs at hcompare
        exact eq_of_beq (Except.ok.inj hcompare)

/-! ### Any credential -/

def isAscii (text : Str) : Bool := text.all fun c => c.toNat < 128

/-- The inner app is called for the key, and everything else is answered with 401. -/
structure AnswersByKey (accepts : Str → Bool) (apiKey : Str) (req : ApiRequest) : Prop where
  callNext_iff : dispatch accepts apiKey req = .ok .callNext ↔ provided req = apiKey
  unauthorized : provided req ≠ apiKey → dispatch accepts apiKey req = .ok invalidKey

/-- The URL parser accepts the netloc, and finds no public path behind it; and there is no
credential, or it and the key are ASCII.  Where the path of the URL is public, nothing but the key
may be presented. -/
structure Judged (accepts : Str → Bool) (apiKey : Str) (req : ApiRequest) : Prop where
  accepted : accepts req.netloc = true
  ofPublic : isPublicPath req.parsedPath = true → provided req = apiKey
  ofNotPublic : isPublicPath req.parsedPath = false →
    provided req = [] ∨ isAscii (provided req) = true ∧ isAscii apiKey = true

theorem answersByKey_of_public_iff (haccepts : accepts req.netloc = true)
    (hpublic : isPublicPath req.parsedPath = true) :
    AnswersByKey accepts apiKey req ↔ provided req = apiKey := by
  have hcall : dispatch accepts apiKey req = .ok .callNext :=
    dispatch_of_public (by rw [ApiRequest.urlPath_eq, if_pos haccepts]) hpublic
  exact ⟨fun h => h.callNext_iff.mp hcall,
    fun heq => ⟨iff_of_true hcall heq, fun hne => absurd heq hne⟩⟩

theorem answersByKey_of_not_public_iff (hkey : apiKey ≠ []) (haccepts : accepts req.netloc = true)
    (hpublic : isPublicPath req.parsedPath = false) :
    AnswersByKey accepts apiKey req ↔
      provided req = [] ∨ isAscii (provided req) = true ∧ isAscii apiKey = true := by
  have hdispatch := dispatch_of_not_public hkey
    (by rw [ApiRequest.urlPath_eq accepts req, if_pos haccepts]) hpublic
  by_cases hnone : provided req = []
  · rw [if_pos hnone] at hdispatch
    have hne : provided req ≠ apiKey := by
      rw [hnone]
      exact hkey.symm
    refine iff_of_true ⟨?_, fun _ => hdispatch⟩ (Or.inl hnone)
    rw [hdispatch]
    exact iff_of_false (fun h => by cases h) hne
  · rw [if_neg hnone] at hdispatch
    rw [or_iff_right hnone]
    by_cases hascii : isAscii (provided req) = true ∧ isAscii apiKey = true
    · -- the comparison returns
      have hcompare : compareDigest (provided req) apiKey = .ok (provided req == apiKey) :=
        if_pos (Bool.and_eq_true_iff.mpr hascii)
      rw [hcompare] at hdispatch
      refine iff_of_true ⟨?_, ?_⟩ hascii
      · rw [hdispatch]
        by_cases heq : provided req = apiKey
        · simp [heq]
        · simp [heq, invalidKey]
      · intro hne
        rw [hdispatch]
        simp [hne]
    · -- the comparison raises, for the key and for any other credential
      have hcompare : compareDigest (provided req) apiKey = .error ⟨.exception,
          "comparing strings with non-ASCII characters is not supported".toList⟩ :=
        if_neg fun h => hascii (Bool.and_eq_true_iff.mp h)
      rw [hcompare] at hdispatch
      refine iff_of_false (fun h => ?_) hascii
      by_cases heq : provided req = apiKey
      · have hcall := h.callNext_iff.mpr heq
        rw [hdispatch] at hcall
        cases hcall
      · have hdenied := h.unauthorized heq
        rw [hdispatch] at hdenied
        cases hdenied

/-- **When a credential is judged by the key**: for a request whose routed path is not public, if
and only if the URL parser accepts its netloc and finds no public path behind it (or the key is
presented there), and there is no credential, or it and the key are ASCII. -/
theorem answersByKey_iff (accepts : Str → Bool) (hkey : apiKey ≠ []) (req : ApiRequest) :
    (isPublicPath req.path = false → AnswersByKey accepts apiKey req) ↔
      (isPublicPath req.path = false → Judged accepts apiKey req) := by
  refine imp_congr_right fun _ => ?_
  by_cases haccepts : accepts req.netloc = true
  · cases hpublic : isPublicPath req.parsedPath with
    | true =>
      rw [answersByKey_of_public_iff haccepts hpublic]
      constructor
      · intro heq
        exact ⟨haccepts, fun _ => heq, fun hnot => absurd (hpublic.symm.trans hnot) (by decide)⟩
      · intro hjudged
        exact hjudged.ofPublic hpublic
    | false =>
      rw [answersByKey_of_not_public_iff hkey haccepts hpublic]
      constructor
      · intro hascii
        exact ⟨haccepts, fun hyes => absurd (hpublic.symm.trans hyes) (by decide), fun _ => hascii⟩
      · intro hjudged
        exact hjudged.ofNotPublic hpublic
  · -- the URL is not parsed, and nothing is answered
    refine iff_of_false (fun hanswers => ?_) fun hjudged => haccepts hjudged.accepted
    have herror : dispatch accepts apiKey req = .error _ :=
      dispatch_of_error hkey (by rw [ApiRequest.urlPath_eq, if_neg haccepts])
    by_cases heq : provided req = apiKey
    · have hcall := hanswers.callNext_iff.mpr heq
      rw [herror] at hcall
      cases hcall
    · have hdenied := hanswers.unauthorized heq
      rw [herror] at hdenied
      cases hdenied

end ApiKeyAuthMiddleware

/-- **Who reaches the jobs without the key**: exactly the requests whose `Host` header has a public
path, and a netloc that the URL parser accepts. -/
theorem requires_key_iff (accepts : Str → Bool) {apiKey : Str} (hkey : apiKey ≠ [])
    (req : ApiRequest) :
    ((∃ handler, jobHandler req = some handler) →
        ApiKeyAuthMiddleware.dispatch accepts apiKey req = .ok .callNext →
        ApiKeyAuthMiddleware.provided req = apiKey) ↔
      ((∃ handler, jobHandler req = some handler) → accepts req.hostNetloc = true →
        isPublicPath req.hostPath = true → ApiKeyAuthMiddleware.provided req = apiKey) := by
  refine forall_congr' fun hrouted => ?_
  obtain ⟨handler, hhandler⟩ := hrouted
  obtain ⟨rest, hrest⟩ := ApiRequest.jobsPath_prefix hhandler
  have hnetloc : req.netloc = req.hostNetloc := ApiRequest.netloc_eq (by rw [← hrest]; rfl)
  have hpath := ApiRequest.urlPath_eq accepts req
  rw [hnetloc] at hpath
  have hpublic := ApiRequest.isPublicPath_parsedPath hhandler
  constructor
  · intro hrequires haccepts hhost
    rw [if_pos haccepts] at hpath
    exact hrequires (ApiKeyAuthMiddleware.dispatch_of_public hpath (by rw [hpublic, hhost]))
  · intro hrequires hcall
    by_cases haccepts : accepts req.hostNetloc = true
    · rw [if_pos haccepts] at hpath
      cases hhost : isPublicPath req.hostPath with
      | true => exact hrequires haccepts hhost
      | false =>
        exact ApiKeyAuthMiddleware.provided_of_callNext hkey hpath (by rw [hpublic, hhost]) hcall
    · rw [if_neg haccepts] at hpath
      rw [ApiKeyAuthMiddleware.dispatch_of_error hkey hpath] at hcall
      cases hcall

/-! ### A host with a path -/

/-- A request for the jobs without a credential. -/
def listJobsRequest (host : Str) : ApiRequest where
  method := "GET".toList
  scheme := .http
  host := host
  path := jobsPath

theorem requires_key_iff_plainHost :
    ((∃ handler, jobHandler (listJobsRequest "localhost".toList) = some handler) →
        ApiKeyAuthMiddleware.dispatch (fun _ => true) "secret-key".toList
          (listJobsRequest "localhost".toList) = .ok .callNext →
        ApiKeyAuthMiddleware.provided (listJobsRequest "localhost".toList) =
          "secret-key".toList) ↔
      ((∃ handler, jobHandler (listJobsRequest "localhost".toList) = some handler) →
        (fun _ : Str => true) (listJobsRequest "localhost".toList).hostNetloc = true →
        isPublicPath (listJobsRequest "localhost".toList).hostPath = true →
        ApiKeyAuthMiddleware.provided (listJobsRequest "localhost".toList) =
          "secret-key".toList) :=
  requires_key_iff (fun _ => true) (by decide) (listJobsRequest "localhost".toList)

/-- With a public path in the host, the list of jobs is served without a key. -/
theorem not_requires_key_hostWithPath :
    ¬ ∀ (accepts : Str → Bool) (apiKey : Str) (req : ApiRequest), apiKey ≠ [] →
      (∃ handler, jobHandler req = some handler) →
      ApiKeyAuthMiddleware.dispatch accepts apiKey req = .ok .callNext →
      ApiKeyAuthMiddleware.provided req = apiKey := by
  intro hall
  have h := hall (fun _ => true) "secret-key".toList
    (listJobsRequest "localhost/health".toList) (by decide) ⟨.listJobs, by decide +kernel⟩
    (by decide +kernel)
  exact absurd h (by decide +kernel)

/-! ### A credential that is not ASCII -/

/-- A request for the jobs with a credential. -/
def keyedRequest (credential : Str) : ApiRequest :=
  { listJobsRequest "localhost".toList with headers := [("x-api-key".toList, credential)] }

theorem answersByKey_iff_wrongKey :
    (isPublicPath (keyedRequest "guess".toList).path = false →
        ApiKeyAuthMiddleware.AnswersByKey (fun _ => true) "secret-key".toList
          (keyedRequest "guess".toList)) ↔
      (isPublicPath (keyedRequest "guess".toList).path = false →
        ApiKeyAuthMiddleware.Judged (fun _ => true) "secret-key".toList
          (keyedRequest "guess".toList)) :=
  ApiKeyAuthMiddleware.answersByKey_iff (fun _ => true) (by decide) (keyedRequest "guess".toList)

/-- A wrong credential with a Latin-1 character raises instead of a 401. -/
theorem not_answersByKey_latin1 :
    ¬ ∀ (accepts : Str → Bool) (apiKey : Str) (req : ApiRequest), apiKey ≠ [] →
      isPublicPath req.path = false → ApiKeyAuthMiddleware.AnswersByKey accepts apiKey req := by
  intro hall
  have h := hall (fun _ => true) "secret-key".toList (keyedRequest "é".toList) (by decide)
    (by decide +kernel)
  exact absurd (h.unauthorized (by decide +kernel)) (by decide +kernel)

end MarketplacePipeline
