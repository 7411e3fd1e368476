/-
  What a chain of redirects keeps of the caller's request.

  `Descends` relates a request to one that a chain of redirects leads to.
-/
import KernelHttp.Engine.Redirect

namespace KernelHttp.Engine

open Incremental KhRequest

/-! ## Headers -/

theorem removeStoredHeaders_eq (drops : HttpHeader → Bool) (headers : List HttpHeader) :
    removeStoredHeaders drops headers = headers.filter (!drops ·) := by
  induction headers with
  | nil => rfl
  | cons h headers ih =>
    rw [removeStoredHeaders, List.filter_cons]
    cases hd : drops h with
    | true => simpa using ih
    | false => simpa using ih

/-- The stored headers that are no credentials. -/
def ordinaryHeaders (r : KhRequest) : List HttpHeader := r.headers.filter (!isSensitive ·)

/-- The headers that are left of `headers` once a redirect was rewritten to GET. -/
def withoutContentType (rewritten : Bool) (headers : List HttpHeader) : List HttpHeader :=
  headers.filter fun h => !(rewritten && isContentType h)

theorem withoutContentType_false (headers : List HttpHeader) :
    withoutContentType false headers = headers := by
  simp [withoutContentType]

theorem withoutContentType_or (w w' : Bool) (headers : List HttpHeader) :
    withoutContentType w' (withoutContentType w headers) = withoutContentType (w || w') headers := by
  unfold withoutContentType
  rw [List.filter_filter]
  congr 1
  funext h
  cases w <;> cases w' <;> cases isContentType h <;> rfl

/-! ## URLs -/

theorem copyLowerText_ok {source result : Bytes} {capacity : ℕ}
    (h : copyLowerText source capacity = .ok result) : result = source.map toLowerAscii := by
  unfold copyLowerText at h
  split at h
  · cases h
  · exact (Except.ok.inj h).symm

variable {parts : UrlParts}

/-- An accepted URL begins with the scheme that is kept of it, and `://`. -/
theorem parseUrl_scheme {url : Bytes} (h : parseUrlIntoRequest url = .ok parts) :
    ∃ scheme rest, url = scheme ++ text "://" ++ rest ∧ parts.scheme = scheme.map toLowerAscii ∧
      (parts.scheme = text "http" ∨ parts.scheme = text "https") := by
  unfold parseUrlIntoRequest at h
  split at h
  case _ rest hrest =>
    have hurl : url = url.takeWhile (· ≠ colon) ++ text "://" ++ rest := by
      conv_lhs => rw [← List.takeWhile_append_dropWhile (p := (· ≠ colon)) (l := url), hrest]
      rw [List.append_assoc]
      rfl
    dsimp only at h
    split_ifs at h with hnil hscheme
    have hknown : (url.takeWhile (· ≠ colon)).map toLowerAscii = text "http" ∨
        (url.takeWhile (· ≠ colon)).map toLowerAscii = text "https" := by
      rw [not_and_or, not_not, not_not, textEqualsIgnoreCase_iff, textEqualsIgnoreCase_iff] at hscheme
      exact hscheme
    unfold parseHierarchy at h
    dsimp only at h
    split_ifs at h with hauthority hat
    obtain ⟨⟨host, ipv6Literal, portText⟩, -, h⟩ := bind_eq_ok h
    dsimp only at h
    split_ifs at h
    obtain ⟨port, -, h⟩ := bind_eq_ok h
    obtain ⟨path, -, h⟩ := bind_eq_ok h
    obtain ⟨scheme, hs, h⟩ := bind_eq_ok h
    obtain ⟨host', -, h⟩ := bind_eq_ok h
    obtain rfl := Except.ok.inj h
    obtain rfl := copyLowerText_ok hs
    exact ⟨_, rest, hurl, rfl, hknown⟩
  · cases h

theorem parseUrl_http {url : Bytes} (h : parseUrlIntoRequest url = .ok parts)
    (hs : textEqualsIgnoreCase parts.scheme (text "https") = false) :
    startsWithLiteralIgnoreCase url (text "http://") = true := by
  obtain ⟨scheme, rest, hurl, hparts, hhttp | hhttps⟩ := parseUrl_scheme h
  · have hmap : scheme.map toLowerAscii = text "http" := by rw [← hparts, hhttp]
    have hlen : scheme.length = 4 := by
      have := congrArg List.length hmap
      rwa [List.length_map] at this
    have htake : url.take (text "http://").length = scheme ++ text "://" := by
      rw [hurl]
      have : (text "http://").length = (scheme ++ text "://").length := by
        rw [List.length_append, hlen]
        rfl
      rw [this, List.take_left]
    unfold startsWithLiteralIgnoreCase
    rw [htake, Bool.and_eq_true, decide_eq_true_eq, textEqualsIgnoreCase_iff, List.map_append, hmap]
    refine ⟨?_, rfl⟩
    rw [hurl, List.length_append, List.length_append, hlen]
    exact Nat.le_add_right 7 _
  · rw [hhttps] at hs
    cases hs

/-! ## Requests without TLS override -/

/-- A request without TLS override keeps the parts of its URL, and the name it verifies is
    its host. -/
structure KhRequest.Addressed (r : KhRequest) : Prop where
  noOverride : r.hasTlsOverride = false
  parsed : r.url ≠ [] → parseUrlIntoRequest r.url = .ok r.urlParts
  verifies : r.isHttps = true → r.serverName = .host r.host.length
  trailers : ∀ t ∈ r.trailers, isForbiddenRequestTrailerField t.name = false

namespace KhRequest

variable {r r' : KhRequest}

theorem Addressed.tlsServerName (h : r.Addressed) (hs : r.isHttps = true) :
    r.tlsServerName = r.host := by
  unfold KhRequest.tlsServerName
  rw [h.verifies hs]
  exact List.take_left

theorem Addressed.isSensitive_trailers (h : r.Addressed) :
    ∀ t ∈ r.trailers, isSensitive t = false := by
  intro t ht
  have := h.trailers t ht
  simp only [isForbiddenRequestTrailerField, Bool.or_eq_false_iff] at this
  simp only [isSensitive, Bool.or_eq_false_iff]
  exact ⟨⟨this.1.1.1.2, this.1.2⟩, this.1.1.2⟩

/-- Fields that `Addressed` does not read may change. -/
theorem Addressed.of_eq (h : r.Addressed) (hu : r'.url = r.url) (hp : r'.urlParts = r.urlParts)
    (hs : r'.serverName = r.serverName) (ht : r'.trailers = r.trailers)
    (ho : r'.hasTlsOverride = r.hasTlsOverride) : r'.Addressed := by
  have hscheme : r'.scheme = r.scheme := congrArg UrlParts.scheme hp
  have hhost : r'.host = r.host := congrArg UrlParts.host hp
  refine ⟨ho.trans h.noOverride, ?_, ?_, ?_⟩
  · rw [hu, hp]
    exact h.parsed
  · unfold KhRequest.isHttps
    rw [hscheme, hs, hhost]
    exact h.verifies
  · rw [ht]
    exact h.trailers

/-- What `KhHttpRequestSetUrl` does to a request without TLS override. -/
theorem setUrl_ok {url : Bytes} (ho : r.hasTlsOverride = false) (h : r.setUrl url = .ok r') :
    parseUrlIntoRequest url = .ok r'.urlParts ∧ r'.url = url ∧
      (r'.isHttps = true → r'.serverName = .host r'.host.length) ∧ r'.headers = r.headers ∧
      r'.trailers = r.trailers ∧ r'.method = r.method ∧ r'.hasTlsOverride = false := by
  unfold setUrl at h
  split at h
  · cases h
  obtain ⟨parts, hparts, h⟩ := bind_eq_ok h
  obtain rfl := Except.ok.inj h
  rw [ho]
  split
  · exact ⟨hparts, rfl, fun _ => rfl, rfl, rfl, rfl, rfl⟩
  · next hs =>
    refine ⟨hparts, rfl, fun hs' => absurd ⟨Bool.false_ne_true, hs'⟩ hs, rfl, rfl, rfl, rfl⟩

theorem Addressed.setUrl {url : Bytes} (hr : r.Addressed) (h : r.setUrl url = .ok r') :
    r'.Addressed := by
  obtain ⟨hparsed, hurl, hverifies, -, htrailers, -, ho⟩ := setUrl_ok hr.noOverride h
  refine ⟨ho, fun _ => ?_, hverifies, ?_⟩
  · rw [hurl, hparsed]
  · rw [htrailers]
    exact hr.trailers

variable {name value : Bytes} {a b c : KhRequest}

theorem addStoredHeader_ok (h : r.addStoredHeader name value = .ok r') :
    r' = { r with headers := r.headers ++ [⟨name, value⟩] } := by
  obtain ⟨-, -, h⟩ := bind_eq_ok h
  split_ifs at h
  exact (Except.ok.inj h).symm

theorem addStoredTrailer_ok (h : r.addStoredTrailer name value = .ok r') :
    isForbiddenRequestTrailerField name = false ∧
      r' = { r with trailers := r.trailers ++ [⟨name, value⟩] } := by
  obtain ⟨-, -, h⟩ := bind_eq_ok h
  split_ifs at h with hname
  exact ⟨Bool.eq_false_iff.2 hname, (Except.ok.inj h).symm⟩

theorem Addressed.addStoredTrailer (hr : r.Addressed)
    (h : r.addStoredTrailer name value = .ok r') : r'.Addressed := by
  obtain ⟨hname, rfl⟩ := addStoredTrailer_ok h
  refine ⟨hr.noOverride, hr.parsed, hr.verifies, fun t ht => ?_⟩
  rcases List.mem_append.1 ht with ht | ht
  · exact hr.trailers t ht
  · rw [List.mem_singleton.1 ht]
    exact hname

theorem Addressed.replaceContentType {contentType : Bytes} (hr : r.Addressed) :
    (r.replaceContentType contentType).Addressed := by
  unfold KhRequest.replaceContentType
  split
  · exact hr
  dsimp only
  split
  · next h =>
    rw [addStoredHeader_ok h]
    exact hr.of_eq rfl rfl rfl rfl rfl
  · exact hr.of_eq rfl rfl rfl rfl rfl

theorem Addressed.call (hr : r.Addressed) (call : RequestCall) : (call.apply r).Addressed := by
  unfold RequestCall.apply
  cases call with
  | setUrl url =>
    dsimp only
    split
    · next h => exact hr.setUrl h
    · exact hr
  | setMethod method => exact hr.of_eq rfl rfl rfl rfl rfl
  | setHeader name value =>
    dsimp only
    split
    · next h =>
      rw [addStoredHeader_ok h]
      exact hr.of_eq rfl rfl rfl rfl rfl
    · exact hr
  | addTrailer name value =>
    dsimp only
    split
    · next h => exact hr.addStoredTrailer h
    · exact hr
  | setBody body => exact hr.of_eq rfl rfl rfl rfl rfl
  | setTypedBody body contentType =>
    have hb : { r with hasBody := true, body }.Addressed := hr.of_eq rfl rfl rfl rfl rfl
    exact hb.replaceContentType
  | clearBody => exact hr.of_eq rfl rfl rfl rfl rfl

theorem addressed_create (sessionServerName : Option Bytes) :
    (khHttpRequestCreate sessionServerName).Addressed where
  noOverride := rfl
  parsed := fun h => absurd rfl h
  verifies := fun h => by cases h
  trailers := fun _ h => by cases h

theorem addressed_calls (sessionServerName : Option Bytes) (calls : List RequestCall) :
    (calls.foldl RequestCall.apply (khHttpRequestCreate sessionServerName)).Addressed := by
  suffices h : ∀ r : KhRequest, r.Addressed → (calls.foldl RequestCall.apply r).Addressed from
    h _ (addressed_create sessionServerName)
  induction calls with
  | nil => exact fun r hr => hr
  | cons call calls ih => exact fun r hr => ih _ (hr.call call)

/-! ## Origins -/

def SameOrigin (r r' : KhRequest) : Prop :=
  textEqualsIgnoreCase r.scheme r'.scheme = true ∧ textEqualsIgnoreCase r.host r'.host = true ∧
    r.port = r'.port

theorem SameOrigin.refl (r : KhRequest) : SameOrigin r r :=
  ⟨textEqualsIgnoreCase_iff.2 rfl, textEqualsIgnoreCase_iff.2 rfl, rfl⟩

theorem SameOrigin.trans (hab : SameOrigin a b) (hbc : SameOrigin b c) :
    SameOrigin a c := by
  obtain ⟨hs, hh, hp⟩ := hab
  obtain ⟨hs', hh', hp'⟩ := hbc
  rw [textEqualsIgnoreCase_iff] at hs hh hs' hh'
  exact ⟨textEqualsIgnoreCase_iff.2 (hs.trans hs'), textEqualsIgnoreCase_iff.2 (hh.trans hh'),
    hp.trans hp'⟩

theorem isCrossOriginRedirect_iff (r redirected : KhRequest) :
    isCrossOriginRedirect r.scheme r.host r.port redirected = true ↔ ¬ SameOrigin r redirected := by
  unfold isCrossOriginRedirect SameOrigin
  cases textEqualsIgnoreCase r.scheme redirected.scheme <;>
    cases textEqualsIgnoreCase r.host redirected.host <;> simp

/-! ## Chains -/

/-- What a chain of redirects from `r` to `r'` keeps; `rewritten` says that one of them was
    rewritten to GET. -/
structure Descends (rewritten : Bool) (r r' : KhRequest) : Prop where
  addressed : r'.Addressed
  noCredentials : ¬ SameOrigin r r' → ∀ h ∈ r'.headers, isSensitive h = false
  sublist : r'.headers.Sublist r.headers
  ordinary : ordinaryHeaders r' = withoutContentType rewritten (ordinaryHeaders r)
  secure : r.isHttps = true → r'.isHttps = true
  hasUrl : r.url ≠ [] → r'.url ≠ []

theorem Descends.refl (h : r.Addressed) : Descends false r r where
  addressed := h
  noCredentials := fun hne => absurd (SameOrigin.refl r) hne
  sublist := List.Sublist.refl _
  ordinary := (withoutContentType_false _).symm
  secure := id
  hasUrl := id

theorem Descends.trans {w w' : Bool} (hab : Descends w a b)
    (hbc : Descends w' b c) : Descends (w || w') a c where
  addressed := hbc.addressed
  noCredentials := by
    intro hne h hh
    by_cases hb : SameOrigin b c
    · have hab' : ¬ SameOrigin a b := fun hs => hne (hs.trans hb)
      exact hab.noCredentials hab' h (hbc.sublist.subset hh)
    · exact hbc.noCredentials hb h hh
  sublist := hbc.sublist.trans hab.sublist
  ordinary := by rw [hbc.ordinary, hab.ordinary, withoutContentType_or]
  secure := hbc.secure ∘ hab.secure
  hasUrl := hbc.hasUrl ∘ hab.hasUrl

theorem Descends.of_headers (hr : r'.Addressed) (hu : r'.url = r.url)
    (hp : r'.urlParts = r.urlParts) (hh : r'.headers = r.headers) : Descends false r r' where
  addressed := hr
  noCredentials := by
    refine fun hne => absurd ?_ hne
    have hscheme : r'.scheme = r.scheme := congrArg UrlParts.scheme hp
    have hhost : r'.host = r.host := congrArg UrlParts.host hp
    have hport : r'.port = r.port := congrArg UrlParts.port hp
    unfold SameOrigin
    rw [hscheme, hhost, hport]
    exact SameOrigin.refl r
  sublist := by rw [hh]
  ordinary := by rw [withoutContentType_false, ordinaryHeaders, ordinaryHeaders, hh]
  secure := by
    unfold KhRequest.isHttps
    rw [show r'.scheme = r.scheme from congrArg UrlParts.scheme hp]
    exact id
  hasUrl := by
    rw [hu]
    exact id

theorem foldlM_addStoredHeader {headers : List HttpHeader} :
    ∀ {r r' : KhRequest}, headers.foldlM (fun r h => r.addStoredHeader h.name h.value) r = .ok r' →
      r' = { r with headers := r.headers ++ headers } := by
  induction headers with
  | nil =>
    intro r r' h
    obtain rfl := Except.ok.inj h
    rw [List.append_nil]
  | cons field headers ih =>
    intro r r' h
    obtain ⟨r₁, h₁, h⟩ := bind_eq_ok h
    rw [ih h, addStoredHeader_ok h₁]
    simp

theorem foldlM_addStoredTrailer {trailers : List HttpHeader} :
    ∀ {r r' : KhRequest},
      trailers.foldlM (fun r h => r.addStoredTrailer h.name h.value) r = .ok r' →
      r' = { r with trailers := r.trailers ++ trailers } := by
  induction trailers with
  | nil =>
    intro r r' h
    obtain rfl := Except.ok.inj h
    rw [List.append_nil]
  | cons field trailers ih =>
    intro r r' h
    obtain ⟨r₁, h₁, h⟩ := bind_eq_ok h
    rw [ih h, (addStoredTrailer_ok h₁).2]
    simp

theorem cloneRequest_descends (hr : r.Addressed) (h : r.cloneRequest = .ok r') :
    Descends false r r' ∧ r'.method = r.method ∧ r'.trailers = r.trailers := by
  obtain ⟨r₁, h₁, h⟩ := bind_eq_ok h
  obtain rfl := foldlM_addStoredHeader h₁
  obtain rfl := foldlM_addStoredTrailer h
  refine ⟨Descends.of_headers ?_ rfl rfl rfl, rfl, rfl⟩
  refine ⟨hr.noOverride, hr.parsed, fun hs => ?_, hr.trailers⟩
  rw [show r.serverName = .host r.host.length from hr.verifies hs]

theorem leaveOrigin_spec (hr : r.Addressed) :
    (leaveOrigin r).Addressed ∧ (leaveOrigin r).urlParts = r.urlParts ∧
      (leaveOrigin r).url = r.url ∧ (leaveOrigin r).headers = ordinaryHeaders r ∧ (leaveOrigin r).trailers = r.trailers ∧
      (leaveOrigin r).method = r.method := by
  unfold leaveOrigin removeRedirectSensitiveHeaders
  split
  · next hs =>
    refine ⟨?_, rfl, rfl, removeStoredHeaders_eq _ _, rfl, rfl⟩
    exact ⟨hr.noOverride, hr.parsed, fun _ => rfl, hr.trailers⟩
  · exact ⟨hr.of_eq rfl rfl rfl rfl rfl, rfl, rfl, removeStoredHeaders_eq _ _, rfl, rfl⟩

theorem rewriteToGet_descends (hr : r.Addressed) (statusCode : ℕ) :
    Descends (shouldRewriteRedirectToGet statusCode r.method) r (rewriteToGet statusCode r) := by
  unfold rewriteToGet
  split
  · next hw =>
    rw [hw]
    refine ⟨hr.of_eq rfl rfl rfl rfl rfl, fun hne => absurd (SameOrigin.refl r) hne, ?_, ?_, id, id⟩
    · rw [clearBody, setMethod, removeStoredHeaders_eq]
      exact List.filter_sublist
    · unfold ordinaryHeaders withoutContentType clearBody setMethod
      rw [removeStoredHeaders_eq, List.filter_filter, List.filter_filter]
      congr 1
      funext h
      rw [Bool.true_and, Bool.and_comm]
  · next hw =>
    rw [Bool.eq_false_iff.2 hw]
    exact Descends.refl hr

theorem applyRedirect_descends {capacity statusCode : ℕ} {location : Bytes} (hr : r.Addressed)
    (h : applyRedirectToRequest capacity r statusCode location = .ok r') :
    Descends (shouldRewriteRedirectToGet statusCode r.method) r r' := by
  obtain ⟨redirectUrl, -, h⟩ := bind_eq_ok h
  split at h
  · cases h
  next hdowngrade =>
  obtain ⟨redirected, hset, h⟩ := bind_eq_ok h
  obtain ⟨hparsed, hurl, -, hheaders, -, hmethod, -⟩ := setUrl_ok hr.noOverride hset
  have hredirected := hr.setUrl hset
  -- A request that used TLS goes on with TLS: the downgrade check saw the URL that was parsed.
  have hsecure : r.isHttps = true → redirected.isHttps = true := by
    intro hs
    by_contra hhttp
    refine hdowngrade ?_
    rw [isHttpsDowngradeRedirect, hs, parseUrl_http hparsed (Bool.eq_false_iff.2 hhttp)]
    rfl
  have hasUrl : redirected.url ≠ [] := by
    rw [hurl]
    rintro rfl
    cases hparsed
  rw [← hmethod]
  split at h
  · next hcross =>
    rw [hr.noOverride] at h
    simp only [Bool.false_eq_true, false_and, if_false] at h
    obtain rfl := Except.ok.inj h
    obtain ⟨hleft, hparts, hleftUrl, hleftHeaders, -, hleftMethod⟩ := leaveOrigin_spec hredirected
    have hordinary : ordinaryHeaders redirected = ordinaryHeaders r := by
      rw [ordinaryHeaders, ordinaryHeaders, hheaders]
    have hleave : Descends false r (leaveOrigin redirected) := by
      refine ⟨hleft, fun _ h hh => ?_, ?_, ?_, fun hs => ?_, fun _ => by rwa [hleftUrl]⟩
      · rw [hleftHeaders] at hh
        simpa using (List.mem_filter.1 hh).2
      · rw [hleftHeaders, hordinary]
        exact List.filter_sublist
      · rw [withoutContentType_false, ← hordinary]
        unfold ordinaryHeaders at hleftHeaders ⊢
        rw [hleftHeaders, List.filter_filter]
        simp only [Bool.and_self]
      · have := hsecure hs
        unfold KhRequest.isHttps at this ⊢
        rwa [show (leaveOrigin redirected).scheme = redirected.scheme from
          congrArg UrlParts.scheme hparts]
    rw [← hleftMethod]
    exact hleave.trans (rewriteToGet_descends hleft statusCode)
  · next hcross =>
    obtain rfl := Except.ok.inj h
    rw [isCrossOriginRedirect_iff, not_not] at hcross
    have hstay : Descends false r redirected := by
      refine ⟨hredirected, fun hne => absurd hcross hne, by rw [hheaders], ?_, hsecure,
        fun _ => hasUrl⟩
      rw [withoutContentType_false, ordinaryHeaders, ordinaryHeaders, hheaders]
    exact hstay.trans (rewriteToGet_descends hredirected statusCode)

end KhRequest

/-! ## The requests that are sent -/

/-- The redirect of one of the requests was rewritten to GET; the first of them is the `n`-th
    of the chain. -/
def rewritten (hops : ℕ → Hop) (n : ℕ) : List KhRequest → Bool
  | [] => false
  | r :: sent =>
    shouldRewriteRedirectToGet (hops n).statusCode r.method || rewritten hops (n + 1) sent

/-- A request that a caller may send, without TLS options of its own. -/
structure CallerRequest where
  request : KhRequest
  addressed : request.Addressed

def CallerRequest.ofCalls (sessionServerName : Option Bytes) (calls : List RequestCall) :
    CallerRequest :=
  ⟨_, addressed_calls sessionServerName calls⟩

/-- A turn of the loop either ends it, or follows a redirect. -/
theorem sendLoop_cases (options : KhHttpSendOptions) (capacity : ℕ) (hops : ℕ → Hop) (n : ℕ)
    (copied : Bool) (request : KhRequest) (hr : request.Addressed) :
    (sendLoop options capacity hops n copied request).2 <+: [request] ∨
      ∃ redirected,
        Descends (shouldRewriteRedirectToGet (hops n).statusCode request.method) request redirected ∧
        n < effectiveMaxRedirects options ∧
        (sendLoop options capacity hops n copied request).2 =
          request :: (sendLoop options capacity hops (n + 1) true redirected).2 := by
  rw [sendLoop]
  dsimp only
  split
  · exact .inl List.nil_prefix
  split
  · exact .inl (List.prefix_refl _)
  next hstop =>
  split
  · exact .inl (List.prefix_refl _)
  have hbound : n < effectiveMaxRedirects options := by
    simp only [stopsAt, Bool.or_eq_true, decide_eq_true_eq, not_or, not_le] at hstop
    exact hstop.1.2
  rcases hc : (if copied then .ok request else request.cloneRequest : Except NTSTATUS KhRequest)
    with status | current
  · exact .inl (List.prefix_refl _)
  have hcurrent : Descends false request current ∧ current.method = request.method := by
    cases copied with
    | true =>
      obtain rfl := Except.ok.inj hc
      exact ⟨Descends.refl hr, rfl⟩
    | false =>
      obtain ⟨hd, hm, -⟩ := cloneRequest_descends hr hc
      exact ⟨hd, hm⟩
  dsimp only
  rcases ha : applyRedirectToRequest capacity current (hops n).statusCode (hops n).location
    with status | redirected
  · exact .inl (List.prefix_refl _)
  refine .inr ⟨redirected, ?_, hbound, rfl⟩
  rw [← hcurrent.2]
  exact hcurrent.1.trans (applyRedirect_descends hcurrent.1.addressed ha)

/-- All that the loop sends descends from the request it begins with. -/
theorem sendLoop_descends (options : KhHttpSendOptions) (capacity : ℕ) (hops : ℕ → Hop) (n : ℕ)
    (copied : Bool) (request : KhRequest) (hr : request.Addressed) (i : ℕ) (r : KhRequest)
    (hi : (sendLoop options capacity hops n copied request).2[i]? = some r) :
    Descends
      (rewritten hops n ((sendLoop options capacity hops n copied request).2.take i)) request r := by
  induction i generalizing n copied request with
  | zero =>
    rcases sendLoop_cases options capacity hops n copied request hr with h | ⟨redirected, -, -, h⟩
    · have hmem := h.subset (List.mem_of_getElem? hi)
      rw [List.mem_singleton.1 hmem]
      exact Descends.refl hr
    · rw [h] at hi
      obtain rfl := Option.some.inj hi
      exact Descends.refl hr
  | succ i ih =>
    rcases sendLoop_cases options capacity hops n copied request hr with h | ⟨redirected, hd, -, h⟩
    · have hle := h.length_le
      rw [List.getElem?_eq_none (hle.trans (Nat.succ_le_succ (Nat.zero_le i)))] at hi
      cases hi
    · rw [h] at hi ⊢
      rw [List.take_succ_cons, rewritten]
      exact hd.trans (ih (n + 1) true redirected hd.addressed hi)

theorem sendLoop_secure (options : KhHttpSendOptions) (capacity : ℕ) (hops : ℕ → Hop) (n : ℕ)
    (copied : Bool) (request : KhRequest) (hr : request.Addressed) :
    (sendLoop options capacity hops n copied request).2.Pairwise
      fun earlier later => earlier.isHttps = true → later.isHttps = true := by
  induction hk : effectiveMaxRedirects options - n generalizing n copied request with
  | zero =>
    rcases sendLoop_cases options capacity hops n copied request hr with h | ⟨_, -, hlt, -⟩
    · exact (List.pairwise_singleton _ _).sublist h.sublist
    · omega
  | succ k ih =>
    rcases sendLoop_cases options capacity hops n copied request hr with h | ⟨redirected, hd, -, h⟩
    · exact (List.pairwise_singleton _ _).sublist h.sublist
    · rw [h]
      refine List.pairwise_cons.2
        ⟨fun later hlater => ?_, ih (n + 1) true redirected hd.addressed (by omega)⟩
      obtain ⟨i, hi⟩ := List.getElem?_of_mem hlater
      have hlaterDescends :=
        sendLoop_descends options capacity hops (n + 1) true redirected hd.addressed i later hi
      exact hlaterDescends.secure ∘ hd.secure

/-- What is sent to another origin than the caller's carries no credentials; the other
    headers stay, but for the type of a body that a redirect dropped; TLS is not left; and
    the name that is verified is the host of the URL. -/
theorem redirects_confineCredentials (options : KhHttpSendOptions) (capacity : ℕ) (hops : ℕ → Hop)
    (caller : CallerRequest) :
    let sent := (khHttpSendSyncImpl options capacity hops caller.request).2
    (∀ r ∈ sent, ¬ SameOrigin caller.request r →
      ∀ h ∈ r.headers ++ r.trailers, isSensitive h = false) ∧
    (∀ i r, sent[i]? = some r → r.headers.Sublist caller.request.headers ∧
      ordinaryHeaders r = withoutContentType (rewritten hops 0 (sent.take i))
        (ordinaryHeaders caller.request)) ∧
    (sent.Pairwise fun earlier later => earlier.isHttps = true → later.isHttps = true) ∧
    ∀ r ∈ sent, parseUrlIntoRequest r.url = .ok r.urlParts ∧
      (r.isHttps = true → r.tlsServerName = r.host) := by
  unfold khHttpSendSyncImpl
  split
  · simp
  next hurl =>
  have hdescends := sendLoop_descends options capacity hops 0 false caller.request caller.addressed
  refine ⟨fun r hr hne h hh => ?_, fun i r hi => ?_, ?_, fun r hr => ?_⟩
  · obtain ⟨i, hi⟩ := List.getElem?_of_mem hr
    rcases List.mem_append.1 hh with hh | hh
    · exact (hdescends i r hi).noCredentials hne h hh
    · exact (hdescends i r hi).addressed.isSensitive_trailers h hh
  · exact ⟨(hdescends i r hi).sublist, (hdescends i r hi).ordinary⟩
  · exact sendLoop_secure options capacity hops 0 false caller.request caller.addressed
  · obtain ⟨i, hi⟩ := List.getElem?_of_mem hr
    have haddressed := (hdescends i r hi).addressed
    exact ⟨haddressed.parsed ((hdescends i r hi).hasUrl hurl), haddressed.tlsServerName⟩

/-- A POST with a typed body. -/
def postCaller : CallerRequest :=
  .ofCalls none [.setUrl (text "http://a.example/form"), .setMethod .post,
    .setTypedBody (text "x=1") (text "application/x-www-form-urlencoded")]

/-- A 303 to another path of the origin, and a final response. -/
def seeOther (n : ℕ) : Hop :=
  if n = 0 then ⟨false, statusSuccess, 303, text "/done", true⟩
  else ⟨false, statusSuccess, 200, [], true⟩

/-- Not all headers stay: a POST that becomes a GET loses its body, and the type of it. -/
theorem redirect_drops_contentType :
    ¬ ∀ (options : KhHttpSendOptions) (capacity : ℕ) (hops : ℕ → Hop) (caller : CallerRequest),
      ∀ r ∈ (khHttpSendSyncImpl options capacity hops caller.request).2,
        ordinaryHeaders r = ordinaryHeaders caller.request := by
  intro h
  have hsent : ¬ ∀ r ∈ (khHttpSendSyncImpl ⟨false, 0⟩ 16384 seeOther postCaller.request).2,
      ordinaryHeaders r = ordinaryHeaders postCaller.request := by decide +kernel
  exact hsent (h _ _ _ _)

end KernelHttp.Engine
