/-
  The forms of a `Location` (`BuildRedirectUrl`).

  Each form has its own branch: only a path alone is rid of its dot segments.
-/
import KernelHttp.Engine.RelativeReference

namespace KernelHttp.Engine

open Incremental DotSegments RelativeReference KhRequest

/-! ## The forms -/

/-- The authority of a request, as `BuildHostHeaderValue` writes it. -/
def KhRequest.authority (r : KhRequest) : Bytes :=
  authorityHost r.host ++ portSuffix (portText false r.urlParts)

def networkForm (r : KhRequest) (path : Bytes) : Bytes := text "//" ++ r.authority ++ path

def absoluteForm (r : KhRequest) (path : Bytes) : Bytes := r.origin ++ path

/-- `BuildRedirectUrl` and `KhHttpRequestSetUrl`. -/
def nextRequest (capacity : ℕ) (r : KhRequest) (location : Bytes) : Except NTSTATUS KhRequest := do
  let url ← buildRedirectUrl capacity r location
  r.setUrl url

/-- The next request has this scheme, host, port and request target, and this fragment. -/
def Leads (capacity : ℕ) (r : KhRequest) (location : Bytes) (parts : UrlParts)
    (fragment : Bytes) : Prop :=
  ∃ r', nextRequest capacity r location = .ok r' ∧ r'.urlParts = parts ∧
    baseRequestFragment r' = fragment

def FormsAgree (capacity : ℕ) (r : KhRequest) (path : Bytes) : Prop :=
  ∃ parts fragment, Leads capacity r path parts fragment ∧
    Leads capacity r (networkForm r path) parts fragment ∧
    Leads capacity r (absoluteForm r path) parts fragment

/-- An absolute path with its query and fragment, without white space around it. -/
structure AbsolutePath (path : Bytes) : Prop where
  rooted : path.head? = some slash
  noAuthority : ¬ [slash, slash] <+: path
  trimmed : Http1.trimOptionalWhitespace path = path

variable {capacity : ℕ} {r r' : KhRequest} {path : Bytes}

/-! ## The URL of a request -/

variable {t front location fragment' : Bytes} {c : UInt8} {parts parts' : UrlParts}

theorem mem_origin (h : UrlText r.urlParts) (hc : c ∈ r.origin) : c ≠ hash := by
  rw [KhRequest.origin, List.mem_append, List.mem_append] at hc
  rcases hc with (hc | hc) | hc
  · have hscheme : ∀ c ∈ text "http" ++ text "https", c ≠ hash := by decide +kernel
    rcases h.scheme with hs | hs
    · exact hscheme c (List.mem_append_left _ (hs ▸ hc))
    · exact hscheme c (List.mem_append_right _ (hs ▸ hc))
  · have hslashes : ∀ c ∈ text "://", c ≠ hash := by decide +kernel
    exact hslashes c hc
  · rintro rfl
    exact authority_delimiter h false _ hc (by decide)

theorem parseTarget_eq_ok {target : Bytes} (ht : t.head? = some slash)
    (h : parseTarget t = .ok target) : target = t.takeWhile (· ≠ hash) := by
  obtain ⟨rest, rfl⟩ := List.head?_eq_some_iff.1 ht
  have htake : (slash :: rest).takeWhile (· ≠ hash) = slash :: rest.takeWhile (· ≠ hash) :=
    List.takeWhile_cons_of_pos (by decide)
  have hquery : ¬ (slash :: rest.takeWhile (· ≠ hash)).head? = some question := by
    rw [List.head?_cons]
    decide
  rw [parseTarget, htake] at h
  simp only [if_neg (List.cons_ne_nil _ _), if_neg hquery] at h
  split_ifs at h
  rw [htake, ← Except.ok.inj h]

theorem parseUrl_origin (h : UrlText r.urlParts) (ht : t.head? = some slash) :
    parseUrlIntoRequest (r.origin ++ t) =
      parseTarget t >>= fun path => .ok { r.urlParts with path } := by
  have hurl : r.origin ++ t = r.urlParts.scheme ++ text "://" ++
      (authorityHost r.urlParts.host ++ portSuffix (portText false r.urlParts) ++ t) :=
    List.append_assoc _ _ _
  rw [hurl, parseUrl_authority h false (List.head?_eq_some_iff.1 ht)]

theorem setUrl_origin (h : UrlText r.urlParts) (ht : t.head? = some slash)
    (parts : UrlParts) (fragment : Bytes) :
    (∃ r', r.setUrl (r.origin ++ t) = .ok r' ∧ r'.urlParts = parts ∧
        baseRequestFragment r' = fragment) ↔
      (∃ target, parseTarget t = .ok target) ∧
        parts = { r.urlParts with path := t.takeWhile (· ≠ hash) } ∧
        fragment = t.dropWhile (· ≠ hash) := by
  have hne : r.origin ++ t ≠ [] := by
    refine List.append_ne_nil_of_right_ne_nil _ fun hnil => ?_
    rw [hnil] at ht
    cases ht
  have hfragment : ∀ r' : KhRequest, r'.url = r.origin ++ t →
      baseRequestFragment r' = t.dropWhile (· ≠ hash) := by
    intro r' hurl
    rw [baseRequestFragment, hurl,
      List.dropWhile_append_of_pos fun c hc => decide_eq_true (mem_origin h hc)]
  rw [setUrl, if_neg hne, parseUrl_origin h ht]
  cases htarget : parseTarget t with
  | error status =>
    constructor
    · rintro ⟨r', hr', -⟩
      cases hr'
    · rintro ⟨⟨target, hok⟩, -⟩
      cases hok
  | ok target =>
    obtain rfl := parseTarget_eq_ok ht htarget
    refine Iff.trans ?_ (and_iff_right ⟨_, rfl⟩).symm
    constructor
    · rintro ⟨r', hr', rfl, rfl⟩
      have hr' := Except.ok.inj hr'
      dsimp only at hr'
      split_ifs at hr'
      all_goals
        subst hr'
        exact ⟨rfl, hfragment _ rfl⟩
    · rintro ⟨rfl, rfl⟩
      refine ⟨_, rfl, ?_⟩
      dsimp only
      split_ifs
      all_goals exact ⟨rfl, hfragment _ rfl⟩

/-! ## The form of a path -/

/-- White space is trimmed at the end as it is without the octets in front. -/
theorem trim_append (hfront : front.head? = some c)
    (hc : Http1.isOptionalWhitespace c = false) (ht : t.head? = some slash)
    (h : Http1.trimOptionalWhitespace t = t) :
    Http1.trimOptionalWhitespace (front ++ t) = front ++ t := by
  rw [Http1.trimOptionalWhitespace_eq_self_iff] at h ⊢
  · rw [List.getLast?_append]
    cases hlast : t.getLast? with
    | none =>
      rw [List.getLast?_eq_none_iff.1 hlast] at ht
      cases ht
    | some d =>
      rw [hlast] at h
      exact h
  · rw [List.head?_append, hfront]
    exact hc
  · rw [ht]
    rfl

theorem not_hasScheme (ht : t.head? = some slash) : ¬ HasScheme t := by
  rintro ⟨first, scheme, rest, rfl, hfirst, -⟩
  obtain rfl : first = slash := by simpa using ht
  exact absurd hfirst (by decide)

theorem hash_not_mem_origin (h : UrlText r.urlParts) : hash ∉ r.origin :=
  fun hmem => mem_origin h hmem rfl

theorem HostText.ne_nil (h : HostText t) : t ≠ [] := by
  cases h with
  | name hne => exact hne
  | literal ht =>
    rintro rfl
    exact absurd ht.colon List.not_mem_nil

theorem AbsolutePath.parse_path (hp : AbsolutePath path) :
    (parse path).path.head? = some slash := by
  obtain ⟨rest, rfl⟩ := List.head?_eq_some_iff.1 hp.rooted
  rw [parse, List.takeWhile_cons_of_pos (by decide), List.takeWhile_cons_of_pos (by decide)]
  rfl

theorem AbsolutePath.takeWhile_head? (hp : AbsolutePath path) :
    (path.takeWhile (· ≠ hash)).head? = some slash := by
  obtain ⟨rest, rfl⟩ := List.head?_eq_some_iff.1 hp.rooted
  rw [List.takeWhile_cons_of_pos (by decide)]
  rfl

theorem AbsolutePath.ne_nil (hp : AbsolutePath path) : path ≠ [] := by
  rintro rfl
  cases hp.rooted

theorem buildRedirectUrl_path (h : UrlText r.urlParts) (hp : AbsolutePath path) {url : Bytes} :
    buildRedirectUrl capacity r path = .ok url ↔
      url = r.origin ++ (resolve r.base (parse path)).recompose ∧
        (r.origin ++ (parse path).path).length ≤ capacity ∧ url.length ≤ capacity := by
  have htarget : target r.base (parse path) = (parse path).path := by
    have hne : (parse path).path ≠ [] := by
      intro hnil
      have hhead := hp.parse_path
      rw [hnil] at hhead
      cases hhead
    rw [target, if_neg hne, if_pos hp.parse_path]
  rw [buildRedirectUrl_eq_ok (scheme_spec h.scheme).1 h.host.ne_nil
    (List.head?_eq_some_iff.2 h.path.slash), hp.trimmed, htarget]
  · rw [hp.trimmed]
    exact hp.ne_nil
  · rw [hp.trimmed]
    exact not_hasScheme hp.rooted
  · rw [hp.trimmed]
    exact hp.noAuthority

theorem buildRedirectUrl_network (h : UrlText r.urlParts) (hp : AbsolutePath path) {url : Bytes} :
    buildRedirectUrl capacity r (networkForm r path) = .ok url ↔
      url = r.origin ++ path ∧ url.length ≤ capacity := by
  have hslashes : text "//" = [slash, slash] := by decide +kernel
  have hnetwork : networkForm r path = slash :: slash :: (r.authority ++ path) := by
    rw [networkForm, hslashes, List.append_assoc]
    rfl
  have hscheme : ¬ HasScheme (networkForm r path) := not_hasScheme (hnetwork ▸ rfl)
  have htrim : Http1.trimOptionalWhitespace (networkForm r path) = networkForm r path :=
    trim_append (c := slash) (by rw [hslashes]; rfl) (by decide) hp.rooted hp.trimmed
  have horigin : r.origin ++ path = r.scheme ++ text ":" ++ networkForm r path := by
    have hcolon : text "://" = text ":" ++ text "//" := by decide +kernel
    rw [KhRequest.origin, networkForm, KhRequest.authority, hcolon]
    simp only [List.append_assoc]
  have hne : networkForm r path ≠ [] := hnetwork ▸ List.cons_ne_nil _ _
  have hnone : r.scheme ≠ [] := (scheme_spec h.scheme).1
  rw [buildRedirectUrl, htrim, if_neg (not_or.2 ⟨hne, hnone⟩),
    if_neg fun habs => hscheme (hasScheme_of_isAbsolute habs),
    if_neg fun hhas => hscheme (hasScheme_of_hasUriScheme hhas), if_pos (hnetwork ▸ rfl),
    horigin]
  simp only [bind_eq_ok_iff]
  constructor
  · rintro ⟨_, hscheme, _, hcolon, hbehind⟩
    obtain ⟨rfl, hle⟩ := (appendRedirectText_eq_ok (Nat.zero_le _)).1 hscheme
    obtain ⟨rfl, hle⟩ := (appendRedirectText_eq_ok hle).1 hcolon
    obtain ⟨rfl, hle⟩ := (appendRedirectText_eq_ok hle).1 hbehind
    exact ⟨rfl, hle⟩
  · rintro ⟨rfl, hle⟩
    have hfirst : (r.scheme ++ text ":").length ≤ capacity :=
      (List.prefix_append _ _).length_le.trans hle
    have hbare : r.scheme.length ≤ capacity := (List.prefix_append _ _).length_le.trans hfirst
    exact ⟨r.scheme, (appendRedirectText_eq_ok (Nat.zero_le _)).2 ⟨rfl, hbare⟩, _,
      (appendRedirectText_eq_ok hbare).2 ⟨rfl, hfirst⟩,
      (appendRedirectText_eq_ok hfirst).2 ⟨rfl, hle⟩⟩

theorem isAbsoluteHttpLocation_origin (h : UrlText r.urlParts) (t : Bytes) :
    isAbsoluteHttpLocation (r.origin ++ t) = true := by
  have hstarts : ∀ scheme behind : Bytes,
      startsWithLiteralIgnoreCase (scheme ++ text "://" ++ behind) (scheme ++ text "://") = true := by
    intro scheme behind
    rw [startsWithLiteralIgnoreCase, List.take_left, Bool.and_eq_true, decide_eq_true_eq,
      textEqualsIgnoreCase_iff]
    exact ⟨(List.prefix_append _ _).length_le, rfl⟩
  have horigin : r.origin ++ t = r.urlParts.scheme ++ text "://" ++
      (authorityHost r.urlParts.host ++ portSuffix (portText false r.urlParts) ++ t) :=
    List.append_assoc _ _ _
  rw [isAbsoluteHttpLocation, Bool.or_eq_true, horigin]
  rcases h.scheme with hs | hs
  · rw [hs]
    exact .inl (hstarts (text "http") _)
  · rw [hs]
    exact .inr (hstarts (text "https") _)

theorem buildRedirectUrl_absolute (h : UrlText r.urlParts) (hp : AbsolutePath path)
    {url : Bytes} :
    buildRedirectUrl capacity r (absoluteForm r path) = .ok url ↔
      url = r.origin ++ (path ++ if hash ∈ path then [] else baseRequestFragment r) ∧
        url.length ≤ capacity := by
  have hfirst : ∃ c, r.origin.head? = some c ∧ Http1.isOptionalWhitespace c = false := by
    refine ⟨104, ?_, by decide⟩
    rw [KhRequest.origin, List.append_assoc, List.head?_append]
    rcases h.scheme with hs | hs
    · rw [show r.scheme = text "http" from hs]
      rfl
    · rw [show r.scheme = text "https" from hs]
      rfl
  obtain ⟨c, hc, hspace⟩ := hfirst
  have htrim : Http1.trimOptionalWhitespace (absoluteForm r path) = absoluteForm r path :=
    trim_append hc hspace hp.rooted hp.trimmed
  have hnone : r.scheme ≠ [] := (scheme_spec h.scheme).1
  have hne : absoluteForm r path ≠ [] := List.append_ne_nil_of_right_ne_nil _ hp.ne_nil
  have hmem : hash ∈ absoluteForm r path ↔ hash ∈ path := by
    rw [absoluteForm, List.mem_append, or_iff_right (hash_not_mem_origin h)]
  have habsolute : isAbsoluteHttpLocation (absoluteForm r path) = true :=
    isAbsoluteHttpLocation_origin h path
  rw [buildRedirectUrl, htrim, if_neg (not_or.2 ⟨hne, hnone⟩), if_pos habsolute]
  simp only [bind_eq_ok_iff, hmem]
  constructor
  · rintro ⟨_, hlocation, hbehind⟩
    obtain ⟨rfl, hle⟩ := (appendRedirectText_eq_ok (Nat.zero_le _)).1 hlocation
    split_ifs at hbehind ⊢ with hhash
    · obtain rfl := Except.ok.inj hbehind
      rw [List.append_nil]
      exact ⟨rfl, hle⟩
    · obtain ⟨rfl, hle⟩ := (appendRedirectText_eq_ok hle).1 hbehind
      rw [← List.append_assoc]
      exact ⟨rfl, hle⟩
  · rintro ⟨rfl, hle⟩
    rw [← List.append_assoc] at hle ⊢
    have hlocation := (List.prefix_append (r.origin ++ path) _).length_le.trans hle
    refine ⟨_, (appendRedirectText_eq_ok (Nat.zero_le _)).2 ⟨rfl, hlocation⟩, ?_⟩
    split_ifs with hhash
    · rw [List.append_nil]
      rfl
    · rw [if_neg hhash] at hle
      exact (appendRedirectText_eq_ok hlocation).2 ⟨rfl, hle⟩

/-! ## The three forms -/

/-- What stands in front of a fragment, and the fragment. -/
theorem split_fragment (hfront : hash ∉ front) (t : Bytes) :
    (front ++ t.dropWhile (· ≠ hash)).takeWhile (· ≠ hash) = front ∧
      (front ++ t.dropWhile (· ≠ hash)).dropWhile (· ≠ hash) = t.dropWhile (· ≠ hash) :=
  ⟨takeWhile_segment hfront (ends_dropWhile hash t),
    dropWhile_segment hfront (ends_dropWhile hash t)⟩

theorem parseTarget_front (hfront : hash ∉ front) (t : Bytes) :
    parseTarget (front ++ t.dropWhile (· ≠ hash)) = parseTarget front := by
  have hall : front.takeWhile (· ≠ hash) = front := by
    have hnil := takeWhile_segment hfront (.inl rfl)
    rwa [List.append_nil] at hnil
  rw [parseTarget, (split_fragment hfront t).1, parseTarget, hall]

/-- Where the URL is the origin with a target and a fragment behind it. -/
theorem leads_iff (h : UrlText r.urlParts) (fits : Bytes → Prop)
    (hrooted : front.head? = some slash) (hfront : hash ∉ front)
    (hbuild : ∀ url, buildRedirectUrl capacity r location = .ok url ↔
      url = r.origin ++ (front ++ t.dropWhile (· ≠ hash)) ∧ fits url)
    (parts : UrlParts) (fragment : Bytes) :
    Leads capacity r location parts fragment ↔
      fits (r.origin ++ (front ++ t.dropWhile (· ≠ hash))) ∧
        (∃ target, parseTarget front = .ok target) ∧
        parts = { r.urlParts with path := front } ∧ fragment = t.dropWhile (· ≠ hash) := by
  have ht : (front ++ t.dropWhile (· ≠ hash)).head? = some slash := by
    rw [List.head?_append, hrooted]
    rfl
  have hset := setUrl_origin h ht parts fragment
  rw [(split_fragment hfront t).1, (split_fragment hfront t).2, parseTarget_front hfront] at hset
  rw [← hset]
  constructor
  · rintro ⟨r', hr', hparts, hfragment⟩
    obtain ⟨url, hurl, hset⟩ := bind_eq_ok hr'
    obtain ⟨rfl, hfits⟩ := (hbuild url).1 hurl
    exact ⟨hfits, r', hset, hparts, hfragment⟩
  · rintro ⟨hfits, r', hset, hparts, hfragment⟩
    refine ⟨r', ?_, hparts, hfragment⟩
    rw [nextRequest, bind_of_ok ((hbuild _).2 ⟨rfl, hfits⟩)]
    exact hset

def redirectFragment (r : KhRequest) (path : Bytes) : Bytes :=
  (if hash ∈ path then path else r.url).dropWhile (· ≠ hash)

theorem dropWhile_hash_eq_nil_iff (t : Bytes) : t.dropWhile (· ≠ hash) = [] ↔ hash ∉ t := by
  rw [List.dropWhile_eq_nil_iff]
  constructor
  · exact fun hall hmem => of_decide_eq_true (hall hash hmem) rfl
  · exact fun hnot c hc => decide_eq_true (ne_of_mem_of_not_mem hc hnot)

theorem absoluteTarget_eq (r : KhRequest) (path : Bytes) :
    path ++ (if hash ∈ path then [] else baseRequestFragment r) =
      path.takeWhile (· ≠ hash) ++ redirectFragment r path := by
  have hsplit : path.takeWhile (· ≠ hash) ++ path.dropWhile (· ≠ hash) = path :=
    List.takeWhile_append_dropWhile
  rw [redirectFragment]
  by_cases hhash : hash ∈ path
  · rw [if_pos hhash, if_pos hhash, List.append_nil, hsplit]
  · rw [(dropWhile_hash_eq_nil_iff path).2 hhash, List.append_nil] at hsplit
    rw [if_neg hhash, if_neg hhash, hsplit]
    rfl

theorem recompose_path (hp : AbsolutePath path) :
    (resolve r.base (parse path)).recompose =
      remove slash Tls.dot (parse path).path ++
        (path.takeWhile (· ≠ hash)).dropWhile (· ≠ question) ++ redirectFragment r path := by
  have hne : (parse path).path ≠ [] := by
    intro hnil
    have hhead := hp.parse_path
    rw [hnil] at hhead
    cases hhead
  have hpath : (resolve r.base (parse path)).path = remove slash Tls.dot (parse path).path := by
    rw [resolve, target, if_neg hne, if_pos hp.parse_path]
  rw [recompose, queryText_eq, fragmentText_eq, hpath, if_neg hne, redirectFragment]
  congr 1
  · congr 1
    split_ifs with hquery
    · rfl
    · exact (not_not.1 hquery).symm
  · have hiff := dropWhile_hash_eq_nil_iff path
    by_cases hhash : hash ∈ path
    · rw [if_pos hhash, if_pos fun hnil => hiff.1 hnil hhash]
    · rw [if_neg hhash, if_neg (not_not.2 (hiff.2 hhash))]
      rfl

theorem leads_path (h : UrlText r.urlParts) (hp : AbsolutePath path) (parts : UrlParts)
    (fragment : Bytes) :
    Leads capacity r path parts fragment ↔
      ((r.origin ++ (parse path).path).length ≤ capacity ∧
        (r.origin ++ (remove slash Tls.dot (parse path).path ++
          (path.takeWhile (· ≠ hash)).dropWhile (· ≠ question) ++
            redirectFragment r path)).length ≤ capacity) ∧
        (∃ target, parseTarget (remove slash Tls.dot (parse path).path ++
          (path.takeWhile (· ≠ hash)).dropWhile (· ≠ question)) = .ok target) ∧
        parts = { r.urlParts with
          path := remove slash Tls.dot (parse path).path ++
            (path.takeWhile (· ≠ hash)).dropWhile (· ≠ question) } ∧
        fragment = redirectFragment r path := by
  have hpath : (parse path).path ++ (path.takeWhile (· ≠ hash)).dropWhile (· ≠ question) =
      path.takeWhile (· ≠ hash) := List.takeWhile_append_dropWhile
  have hnot := hash_not_mem_takeWhile path
  have hfree : hash ∉ remove slash Tls.dot (parse path).path ++
      (path.takeWhile (· ≠ hash)).dropWhile (· ≠ question) := by
    rw [List.mem_append, not_or]
    refine ⟨fun hmem => ?_, fun hmem => hnot (hpath ▸ List.mem_append_right _ hmem)⟩
    rcases mem_removeFrom _ _ hmem with hmem | hmem | hmem
    · cases hmem
    · exact hnot (hpath ▸ List.mem_append_left _ hmem)
    · exact absurd hmem (by decide)
  have hrooted : (remove slash Tls.dot (parse path).path ++
      (path.takeWhile (· ≠ hash)).dropWhile (· ≠ question)).head? = some slash := by
    rw [List.head?_append, remove_head? hp.parse_path]
    rfl
  refine leads_iff h (fun url => (r.origin ++ (parse path).path).length ≤ capacity ∧
    url.length ≤ capacity) hrooted hfree (fun url => ?_) parts fragment
  rw [buildRedirectUrl_path h hp, recompose_path hp, redirectFragment]

theorem leads_network (h : UrlText r.urlParts) (hp : AbsolutePath path) (parts : UrlParts)
    (fragment : Bytes) :
    Leads capacity r (networkForm r path) parts fragment ↔
      (r.origin ++ path).length ≤ capacity ∧
        (∃ target, parseTarget (path.takeWhile (· ≠ hash)) = .ok target) ∧
        parts = { r.urlParts with path := path.takeWhile (· ≠ hash) } ∧
        fragment = path.dropWhile (· ≠ hash) := by
  have hsplit : path.takeWhile (· ≠ hash) ++ path.dropWhile (· ≠ hash) = path :=
    List.takeWhile_append_dropWhile
  have hbuild : ∀ url, buildRedirectUrl capacity r (networkForm r path) = .ok url ↔
      url = r.origin ++ (path.takeWhile (· ≠ hash) ++ path.dropWhile (· ≠ hash)) ∧
        url.length ≤ capacity := by
    intro url
    rw [buildRedirectUrl_network h hp, hsplit]
  have hiff := leads_iff h (fun url => url.length ≤ capacity) hp.takeWhile_head?
    (hash_not_mem_takeWhile path) hbuild parts fragment
  rwa [hsplit] at hiff

theorem leads_absolute (h : UrlText r.urlParts) (hp : AbsolutePath path) (parts : UrlParts)
    (fragment : Bytes) :
    Leads capacity r (absoluteForm r path) parts fragment ↔
      (r.origin ++ (path.takeWhile (· ≠ hash) ++ redirectFragment r path)).length ≤ capacity ∧
        (∃ target, parseTarget (path.takeWhile (· ≠ hash)) = .ok target) ∧
        parts = { r.urlParts with path := path.takeWhile (· ≠ hash) } ∧
        fragment = redirectFragment r path :=
  leads_iff h (fun url => url.length ≤ capacity) hp.takeWhile_head?
    (hash_not_mem_takeWhile path)
    (fun url => by rw [buildRedirectUrl_absolute h hp, absoluteTarget_eq, redirectFragment])
    parts fragment

/-- **The three forms of a path lead to the same request** where the URL is within its limits, the
path has no dot segments, and the URL of the request has no fragment that the path does not
replace. -/
theorem locationForms_agree (capacity : ℕ) (r : KhRequest) (path : Bytes)
    (hurl : parseUrlIntoRequest r.url = .ok r.urlParts) (hp : AbsolutePath path) :
    FormsAgree capacity r path ↔
      ((r.origin ++ path).length ≤ capacity ∧ ∃ target, parseTarget path = .ok target) ∧
        remove slash Tls.dot (parse path).path = (parse path).path ∧
        (hash ∈ path ∨ hash ∉ r.url) := by
  have h : UrlText r.urlParts := parseUrl_urlText hurl
  have hpath : (parse path).path ++ (path.takeWhile (· ≠ hash)).dropWhile (· ≠ question) =
      path.takeWhile (· ≠ hash) := List.takeWhile_append_dropWhile
  have hsplit : path.takeWhile (· ≠ hash) ++ path.dropWhile (· ≠ hash) = path :=
    List.takeWhile_append_dropWhile
  have htarget : parseTarget path = parseTarget (path.takeWhile (· ≠ hash)) := by
    have hfront := parseTarget_front (hash_not_mem_takeWhile path) path
    rwa [hsplit] at hfront
  have hfragment : redirectFragment r path = path.dropWhile (· ≠ hash) ↔
      hash ∈ path ∨ hash ∉ r.url := by
    rw [redirectFragment]
    by_cases hhash : hash ∈ path
    · rw [if_pos hhash]
      exact iff_of_true rfl (.inl hhash)
    · rw [if_neg hhash, (dropWhile_hash_eq_nil_iff path).2 hhash, dropWhile_hash_eq_nil_iff,
        or_iff_right hhash]
  simp only [FormsAgree, leads_path h hp, leads_network h hp, leads_absolute h hp, htarget,
    ← hfragment]
  constructor
  · rintro ⟨_, _, ⟨-, -, rfl, rfl⟩, ⟨hfits, htarget, hparts, hfragment⟩, -⟩
    refine ⟨⟨hfits, htarget⟩, ?_, hfragment⟩
    exact List.append_cancel_right ((congrArg UrlParts.path hparts).trans hpath.symm)
  · rintro ⟨⟨hfits, htarget⟩, hremoved, hfragment⟩
    rw [hremoved, hfragment, hpath, hsplit]
    have hprefix : (parse path).path <+: path :=
      (List.takeWhile_prefix _).trans (List.takeWhile_prefix _)
    have hshort : (r.origin ++ (parse path).path).length ≤ capacity := by
      have hle := hprefix.length_le
      rw [List.length_append] at hfits ⊢
      omega
    exact ⟨_, _, ⟨⟨hshort, hfits⟩, htarget, rfl, rfl⟩, ⟨hfits, htarget, rfl, rfl⟩,
      hfits, htarget, rfl, rfl⟩

theorem locationForms_agree_plain : FormsAgree 100 plainRequest (text "/c?q#g") := by
  refine (locationForms_agree 100 plainRequest (text "/c?q#g") (by decide +kernel)
    ⟨by decide +kernel, by decide +kernel, by decide +kernel⟩).2 ⟨⟨by decide +kernel, ?_⟩, ?_⟩
  · exact ⟨text "/c?q", by decide +kernel⟩
  · exact ⟨by decide +kernel, .inl (by decide +kernel)⟩

theorem Leads.unique {fragment : Bytes} (h : Leads capacity r location parts fragment)
    (h' : Leads capacity r location parts' fragment') : parts = parts' ∧ fragment = fragment' := by
  obtain ⟨r₁, hr₁, rfl, rfl⟩ := h
  obtain ⟨r₂, hr₂, rfl, rfl⟩ := h'
  obtain rfl := Except.ok.inj (hr₁.symm.trans hr₂)
  exact ⟨rfl, rfl⟩

theorem FormsAgree.path_network (h : FormsAgree capacity r path)
    {fragment : Bytes} (halone : Leads capacity r path parts fragment)
    (hnetwork : Leads capacity r (networkForm r path) parts' fragment') :
    parts = parts' ∧ fragment = fragment' := by
  obtain ⟨_, _, h₁, h₂, -⟩ := h
  obtain ⟨rfl, rfl⟩ := halone.unique h₁
  exact h₂.unique hnetwork

/-- Behind the authority a path keeps its dot segments, and it is not handed the fragment. -/
theorem locationForms_differ :
    ¬ FormsAgree 100 plainRequest (text "/a/../c#g") ∧
      ¬ FormsAgree 100 plainRequest (text "/c") := by
  constructor
  · intro h
    have halone : Leads 100 plainRequest (text "/a/../c#g")
        ⟨text "http", text "h", text "/c", 80⟩ (text "#g") :=
      ⟨{ plainRequest with url := text "http://h/c#g", path := text "/c" }, by decide +kernel, rfl,
        by decide +kernel⟩
    have hnetwork : Leads 100 plainRequest (networkForm plainRequest (text "/a/../c#g"))
        ⟨text "http", text "h", text "/a/../c", 80⟩ (text "#g") :=
      ⟨{ plainRequest with url := text "http://h/a/../c#g", path := text "/a/../c" },
        by decide +kernel, rfl, by decide +kernel⟩
    exact absurd (h.path_network halone hnetwork).1 (by decide +kernel)
  · intro h
    have halone : Leads 100 plainRequest (text "/c") ⟨text "http", text "h", text "/c", 80⟩
        (text "#f") :=
      ⟨{ plainRequest with url := text "http://h/c#f", path := text "/c" }, by decide +kernel, rfl,
        by decide +kernel⟩
    have hnetwork : Leads 100 plainRequest (networkForm plainRequest (text "/c"))
        ⟨text "http", text "h", text "/c", 80⟩ [] :=
      ⟨{ plainRequest with url := text "http://h/c", path := text "/c" }, by decide +kernel, rfl,
        by decide +kernel⟩
    exact absurd (h.path_network halone hnetwork).2 (by decide +kernel)

end KernelHttp.Engine
