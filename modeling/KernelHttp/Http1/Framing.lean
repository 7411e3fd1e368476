/-
  The framing of HTTP/1 responses (RFC 9112 Section 6.3).

  Where a message ends is said once more, without the parser: `ChunkedBody` is the
  grammar of the chunked coding, `MessageLength` the rule that picks the framing.
-/
import KernelHttp.Http1.Response

namespace KernelHttp.Http1

open Incremental

/-! ## The chunked coding -/

/-- The value of a numeral in base `b`. -/
def numeral (val : UInt8 → ℕ) (b : ℕ) (t : Bytes) : ℕ := t.foldl (fun n c => n * b + val c) 0

def chunkSize (line : Bytes) : Option ℕ :=
  let t := trimOptionalWhitespace (line.takeWhile (·.toNat != 59))
  if t ≠ [] ∧ t.all isHexDigit then some (numeral hexValue 16 t) else none

/-- Trailer fields, up to the empty line. -/
inductive TrailerSection : Bytes → Prop
  | nil : TrailerSection crlf
  | cons {line rest : Bytes} (hl : IsLine line) (hne : line ≠ []) (h : TrailerSection rest) :
      TrailerSection (line ++ (crlf ++ rest))

/-- Chunks, the last chunk and the trailer section. -/
inductive ChunkedBody : Bytes → Prop
  | last {line rest : Bytes} (hl : IsLine line) (hs : chunkSize line = some 0)
      (h : TrailerSection rest) : ChunkedBody (line ++ (crlf ++ rest))
  | chunk {line data rest : Bytes} (hl : IsLine line) (hs : chunkSize line = some data.length)
      (hne : data ≠ []) (h : ChunkedBody rest) :
      ChunkedBody (line ++ (crlf ++ (data ++ (crlf ++ rest))))

variable {a b s t : Bytes} {headers : List HttpHeader} {n statusCode : ℕ}

theorem TrailerSection.unique (ha : TrailerSection a) (hb : TrailerSection b)
    (h : a ++ s = b ++ t) : a = b := by
  induction ha generalizing b with
  | nil =>
    cases hb with
    | nil => rfl
    | @cons line rest hl hne hb =>
      rw [List.append_assoc, List.append_assoc] at h
      exact absurd (line_inj isLine_nil hl h).1.symm hne
  | @cons line rest hl hne ha ih =>
    cases hb with
    | nil =>
      rw [List.append_assoc, List.append_assoc] at h
      exact absurd (line_inj hl isLine_nil h).1 hne
    | @cons line' rest' hl' hne' hb =>
      rw [List.append_assoc, List.append_assoc, List.append_assoc, List.append_assoc] at h
      obtain ⟨rfl, hrest⟩ := line_inj hl hl' h
      rw [ih hb hrest]

/-- **No chunked body starts another one.** -/
theorem ChunkedBody.unique (ha : ChunkedBody a) (hb : ChunkedBody b)
    (h : a ++ s = b ++ t) : a = b := by
  induction ha generalizing b with
  | @last line rest hl hs ha =>
    cases hb with
    | @last line' rest' hl' hs' hb =>
      simp only [List.append_assoc] at h
      obtain ⟨rfl, hrest⟩ := line_inj hl hl' h
      rw [ha.unique hb hrest]
    | @chunk line' data rest' hl' hs' hne hb =>
      simp only [List.append_assoc] at h
      obtain ⟨rfl, -⟩ := line_inj hl hl' h
      rw [hs] at hs'
      exact absurd (List.eq_nil_of_length_eq_zero (Option.some.inj hs').symm) hne
  | @chunk line data rest hl hs hne ha ih =>
    cases hb with
    | @last line' rest' hl' hs' hb =>
      simp only [List.append_assoc] at h
      obtain ⟨rfl, -⟩ := line_inj hl hl' h
      rw [hs] at hs'
      exact absurd (List.eq_nil_of_length_eq_zero (Option.some.inj hs')) hne
    | @chunk line' data' rest' hl' hs' hne' hb =>
      simp only [List.append_assoc] at h
      obtain ⟨rfl, hdata⟩ := line_inj hl hl' h
      rw [hs] at hs'
      obtain ⟨rfl, hrest⟩ := List.append_inj hdata (Option.some.inj hs')
      rw [ih hb (List.append_cancel_left hrest)]

/-! ## What the decoder consumes -/

theorem parseDigits_ok {isDig : UInt8 → Bool} {val : UInt8 → ℕ} {b : ℕ}
    (h : parseDigits isDig val b t = .ok n) :
    t ≠ [] ∧ t.all isDig = true ∧ n = numeral val b t := by
  unfold parseDigits at h
  split_ifs at h with hne
  refine ⟨hne, ?_⟩
  -- the accumulator of the loop is the value of the digits before
  have hloop : ∀ (t : Bytes) (m : ℕ), t.foldlM (fun parsed c =>
      if ¬ isDig c then .error statusInvalidNetworkResponse
      else if parsed > (maxSizeT - val c) / b then .error statusIntegerOverflow
      else .ok (parsed * b + val c)) m = (.ok n : Except NTSTATUS ℕ) →
      t.all isDig = true ∧ n = t.foldl (fun n c => n * b + val c) m := by
    intro t
    induction t with
    | nil =>
      intro m h
      exact ⟨rfl, (Except.ok.inj h).symm⟩
    | cons c t ih =>
      intro m h
      rw [List.foldlM_cons] at h
      obtain ⟨m', hm, h⟩ := bind_eq_ok h
      split_ifs at hm with hd ho
      obtain rfl := Except.ok.inj hm
      obtain ⟨h1, h2⟩ := ih _ h
      refine ⟨?_, h2⟩
      rw [List.all_cons, h1, Bool.and_true]
      simpa using hd
  exact hloop t 0 h

theorem parseChunkSizeLine_ok {line : Bytes} (h : parseChunkSizeLine line = .ok n) :
    chunkSize line = some n := by
  have hok : ∃ t, t = trimOptionalWhitespace (line.takeWhile (·.toNat != 59)) ∧
      parseHexSize t = .ok n := by
    unfold parseChunkSizeLine at h
    simp only at h
    split_ifs at h with h1 h2 h2
    · obtain ⟨-, -, h⟩ := bind_eq_ok h
      cases h
    · obtain ⟨-, -, h⟩ := bind_eq_ok h
      exact ⟨_, rfl, h⟩
    · exact ⟨_, rfl, h⟩
  obtain ⟨t, ht, hp⟩ := hok
  obtain ⟨hne, hall, rfl⟩ := parseDigits_ok hp
  rw [chunkSize, ← ht, if_pos ⟨hne, hall⟩]

section Decoder

variable {target trailerTarget : OutBuffer}

theorem trailerLoop_trailerSection (body : Bytes) : ∀ (n : ℕ) (p : Bytes), p.length ≤ n →
    ∀ (consumed trailerCount : ℕ) (trailers : List HttpHeader) (r : ChunkedResult),
    trailerLoop target body p consumed trailerCount trailers = .ok r →
    ∃ m s, p = m ++ s ∧ TrailerSection m ∧ r.bytesConsumed = consumed + m.length := by
  intro n
  induction n with
  | zero =>
    intro p hp consumed trailerCount trailers r h
    obtain rfl : p = [] := List.eq_nil_of_length_eq_zero (by omega)
    rw [trailerLoop_none rfl] at h
    cases h
  | succ n ih =>
    intro p hp consumed trailerCount trailers r h
    cases hf : findCrlf p with
    | none =>
      rw [trailerLoop_none hf] at h
      cases h
    | some lineEnd =>
      obtain ⟨heq, hline⟩ := findCrlf_spec hf
      have hle := findCrlf_le hf
      rw [trailerLoop_some hf] at h
      by_cases h0 : lineEnd = 0
      · subst h0
        simp only [if_true] at h
        split at h
        · cases h
        · obtain rfl := Except.ok.inj h
          exact ⟨crlf, p.drop 2, heq, .nil, rfl⟩
      · cases ht : parseTrailerFieldLine (p.take lineEnd) with
        | error status =>
          simp only [ht] at h
          split_ifs at h
        | ok trailer =>
          simp only [ht] at h
          generalize (if target.present then trailers ++ [trailer] else trailers) = stored at h
          split_ifs at h
          obtain ⟨m, s, hm, hsec, hcons⟩ :=
            ih (p.drop (lineEnd + 2)) (by simp only [List.length_drop]; omega) _ _ _ r h
          refine ⟨p.take lineEnd ++ (crlf ++ m), s, ?_, .cons hline ?_ hsec, ?_⟩
          · rw [hm] at heq
            exact heq.trans (by simp only [List.append_assoc])
          · intro hnil
            have := congrArg List.length hnil
            simp only [List.length_take, List.length_nil] at this
            omega
          · rw [hcons]
            simp only [List.length_append, List.length_take, crlf, List.length_cons, List.length_nil]
            omega

/-- **What the decoder consumes is a chunked body.** -/
theorem chunkLoop_chunkedBody : ∀ (n : ℕ) (p : Bytes), p.length ≤ n →
    ∀ (consumed chunkCount : ℕ) (body : Bytes) (r : ChunkedResult),
    chunkLoop target trailerTarget p consumed chunkCount body = .ok r →
    ∃ m s, p = m ++ s ∧ ChunkedBody m ∧ r.bytesConsumed = consumed + m.length := by
  intro n
  induction n with
  | zero =>
    intro p hp consumed chunkCount body r h
    obtain rfl : p = [] := List.eq_nil_of_length_eq_zero (by omega)
    rw [chunkLoop_none rfl] at h
    cases h
  | succ n ih =>
    intro p hp consumed chunkCount body r h
    cases hf : findCrlf p with
    | none =>
      rw [chunkLoop_none hf] at h
      cases h
    | some lineEnd =>
      obtain ⟨heq, hline⟩ := findCrlf_spec hf
      have hle := findCrlf_le hf
      have hlen : (p.take lineEnd).length = lineEnd := by
        rw [List.length_take]
        omega
      rw [chunkLoop_some hf] at h
      obtain ⟨size, hsize, hturn⟩ := chunkTurn_eq_ok h
      have hcs := parseChunkSizeLine_ok hsize
      rcases hturn with ⟨rfl, h⟩ | ⟨hne, data, tail, body', hsz, hdata, h⟩
      · obtain ⟨m, s, hm, hsec, hcons⟩ := trailerLoop_trailerSection body _ _ le_rfl _ _ _ r h
        refine ⟨p.take lineEnd ++ (crlf ++ m), s, ?_, .last hline hcs hsec, ?_⟩
        · rw [hm] at heq
          exact heq.trans (by simp only [List.append_assoc])
        · rw [hcons]
          simp only [List.length_append, hlen, crlf, List.length_cons, List.length_nil]
          omega
      · have hlength := congrArg List.length hdata
        simp only [List.length_drop, List.length_append, crlf, List.length_cons, List.length_nil]
          at hlength
        obtain ⟨m, s, hm, hbody, hcons⟩ := ih tail (by omega) _ _ _ r h
        refine ⟨p.take lineEnd ++ (crlf ++ (data ++ (crlf ++ m))), s, ?_,
          .chunk hline (by rw [hsz]; exact hcs) ?_ hbody, ?_⟩
        · rw [hdata, hm] at heq
          exact heq.trans (by simp only [List.append_assoc])
        · rintro rfl
          exact hne hsz.symm
        · rw [hcons]
          simp only [List.length_append, hlen, hsz, crlf, List.length_cons, List.length_nil]
          omega

end Decoder

/-! ## The codings of a message -/

/-- The members of the Transfer-Encoding fields. -/
def transferCodings (headers : List HttpHeader) : List Bytes :=
  ((fieldValues headers (text "Transfer-Encoding")).flatMap splitAtCommas).map
    trimOptionalWhitespace

def isChunked (coding : Bytes) : Bool := textEqualsIgnoreCase coding (text "chunked")

/-- The message is chunked last. -/
def FinalChunked (headers : List HttpHeader) : Prop :=
  (transferCodings headers).getLast?.any isChunked = true

theorem rdropWhile_idem (p : UInt8 → Bool) (t : Bytes) :
    (t.rdropWhile p).rdropWhile p = t.rdropWhile p := List.rdropWhile_idempotent p t

theorem trimOptionalWhitespace_idem (t : Bytes) :
    trimOptionalWhitespace (trimOptionalWhitespace t) = trimOptionalWhitespace t := by
  unfold trimOptionalWhitespace
  set u := t.dropWhile isOptionalWhitespace with hu
  have hhead : (u.rdropWhile isOptionalWhitespace).dropWhile isOptionalWhitespace =
      u.rdropWhile isOptionalWhitespace := by
    rw [List.dropWhile_eq_self_iff]
    intro hl
    have hpre := List.rdropWhile_prefix isOptionalWhitespace u
    have hul : 0 < u.length := lt_of_lt_of_le hl hpre.length_le
    have hne := List.dropWhile_get_zero_not (p := isOptionalWhitespace) t (by rw [← hu]; exact hul)
    rw [List.IsPrefix.getElem hpre hl]
    simpa [hu] using hne
  rw [hhead, rdropWhile_idem]

theorem mem_trimOptionalWhitespace {c : UInt8} (hc : isOptionalWhitespace c = false)
    (h : c ∈ t) : c ∈ trimOptionalWhitespace t := by
  have hdrop : ∀ {t : Bytes}, c ∈ t → c ∈ t.dropWhile isOptionalWhitespace := by
    intro t ht
    rw [← List.takeWhile_append_dropWhile (p := isOptionalWhitespace) (l := t)] at ht
    rcases List.mem_append.1 ht with ht | ht
    · have := List.mem_takeWhile_imp ht
      rw [hc] at this
      cases this
    · exact ht
  unfold trimOptionalWhitespace List.rdropWhile
  rw [List.mem_reverse]
  exact hdrop (List.mem_reverse.2 (hdrop h))

theorem parseTransferCodingToken_chunked {member : Bytes} {kind : HttpTransferCodingKind}
    (h : parseTransferCodingToken member = .ok kind) :
    kind = .chunked ↔ isChunked (trimOptionalWhitespace member) = true := by
  unfold parseTransferCodingToken at h
  simp only at h
  set m := trimOptionalWhitespace member with hm
  set before := m.takeWhile (·.toNat != 59) with hbefore
  have htoken : before.length = m.length → trimOptionalWhitespace before = m := by
    intro hlen
    have heq : before = m := (List.takeWhile_prefix _).eq_of_length hlen
    rw [heq, hm, trimOptionalWhitespace_idem]
  unfold isChunked
  split_ifs at h with h1 h2 h3 h4 h5 h6 h7 h8 h9 h10
  all_goals
    obtain rfl := Except.ok.inj h
    rw [htoken (not_not.1 (by assumption))] at *
    simp_all

theorem appendMembers_ok : ∀ {members : List Bytes} {codings codings' : List HttpTransferCodingKind},
    members.foldlM (fun codings member => do
      appendTransferCoding codings (← parseTransferCodingToken member)) codings = .ok codings' →
    ∃ kinds, codings' = codings ++ kinds ∧
      List.Forall₂ (fun member kind => parseTransferCodingToken member = .ok kind) members kinds ∧
      (codings.count .chunked ≤ 1 → codings'.count .chunked ≤ 1)
  | [], codings, codings', h => by
    obtain rfl := Except.ok.inj h
    exact ⟨[], (List.append_nil _).symm, .nil, id⟩
  | member :: members, codings, codings', h => by
    rw [List.foldlM_cons] at h
    obtain ⟨codings₁, h₁, h⟩ := bind_eq_ok h
    obtain ⟨kind, hk, h₁⟩ := bind_eq_ok h₁
    obtain ⟨kinds, rfl, hall, hcount⟩ := appendMembers_ok h
    unfold appendTransferCoding at h₁
    split_ifs at h₁ with hmax htwice
    obtain rfl := Except.ok.inj h₁
    refine ⟨kind :: kinds, by simp, .cons hk hall, fun hle => hcount ?_⟩
    rw [List.count_append]
    by_cases hc : kind = .chunked
    · have hnot : .chunked ∉ codings := fun hin => htwice ⟨hc, hin⟩
      rw [List.count_eq_zero.2 hnot, hc]
      simp
    · rw [List.count_singleton]
      simpa [hc] using hle

theorem appendValues_ok : ∀ {values : List Bytes} {codings codings' : List HttpTransferCodingKind},
    values.foldlM appendTransferCodings codings = .ok codings' →
    ∃ kinds, codings' = codings ++ kinds ∧
      List.Forall₂ (fun member kind => parseTransferCodingToken member = .ok kind)
        (values.flatMap splitAtCommas) kinds ∧
      (codings.count .chunked ≤ 1 → codings'.count .chunked ≤ 1)
  | [], codings, codings', h => by
    obtain rfl := Except.ok.inj h
    exact ⟨[], (List.append_nil _).symm, .nil, id⟩
  | value :: values, codings, codings', h => by
    rw [List.foldlM_cons] at h
    obtain ⟨codings₁, h₁, h⟩ := bind_eq_ok h
    obtain ⟨kinds₁, rfl, hall₁, hcount₁⟩ := appendMembers_ok h₁
    obtain ⟨kinds, rfl, hall, hcount⟩ := appendValues_ok h
    refine ⟨kinds₁ ++ kinds, by simp, ?_, fun hle => hcount (hcount₁ hle)⟩
    rw [List.flatMap_cons]
    exact List.rel_append hall₁ hall

/-- What `Parse` says about the codings is what the fields say. -/
structure HttpTransferCodingInfo.Describes (info : HttpTransferCodingInfo)
    (headers : List HttpHeader) : Prop where
  present : info.hasTransferEncoding = true ↔ fieldValues headers (text "Transfer-Encoding") ≠ []
  final : info.hasTransferEncoding = true →
    (info.finalCodingIsChunked = true ↔ FinalChunked headers)
  once : (transferCodings headers).countP isChunked ≤ 1

theorem HttpTransferCodingInfo.parse_describes
    {info : HttpTransferCodingInfo} (h : HttpTransferCodingInfo.parse headers = .ok info) :
    info.Describes headers := by
  obtain ⟨codings, hc, h⟩ := bind_eq_ok h
  obtain ⟨kinds, hkinds, hall, hcount⟩ := appendValues_ok hc
  rw [List.nil_append] at hkinds
  rw [hkinds] at h hcount
  -- the members are chunked where the codings are
  have hchunked : List.Forall₂ (fun coding kind => kind = .chunked ↔ isChunked coding = true)
      (transferCodings headers) kinds := by
    unfold transferCodings
    rw [List.forall₂_map_left_iff]
    exact hall.imp fun _ _ hk => parseTransferCodingToken_chunked hk
  have honce : (transferCodings headers).countP isChunked = kinds.count .chunked := by
    generalize transferCodings headers = codings at hchunked
    clear hall hcount hc h hkinds
    induction hchunked with
    | nil => rfl
    | @cons coding kind codings kinds hk _ ih =>
      rw [List.countP_cons, List.count_cons, ih]
      by_cases hi : isChunked coding = true
      · rw [if_pos hi, hk.2 hi]
        rfl
      · have hne : kind ≠ .chunked := fun hkc => hi (hk.1 hkc)
        simp [hi, hne]
  have hlast : kinds.getLast? = some .chunked ↔ FinalChunked headers := by
    unfold FinalChunked
    have hrev := List.forall₂_reverse_iff.2 hchunked
    rw [List.getLast?_eq_head?_reverse, List.getLast?_eq_head?_reverse]
    generalize (transferCodings headers).reverse = codings at hrev
    generalize kinds.reverse = kinds' at hrev
    cases hrev with
    | nil => simp
    | cons hk _ => simpa using hk
  split_ifs at h with h1 h2
  · obtain rfl := Except.ok.inj h
    refine ⟨?_, nofun, ?_⟩
    · constructor
      · exact nofun
      · exact fun hne => absurd h1 hne
    · rw [transferCodings, h1]
      exact Nat.zero_le 1
  · obtain rfl := Except.ok.inj h
    refine ⟨⟨fun _ => h1, fun _ => rfl⟩, fun _ => ?_, ?_⟩
    · rw [← hlast]
      simp
    · rw [honce]
      exact hcount (by simp)

/-! ## The length of a message -/

/-- The statuses whose responses end with the header section, by RFC 9112. -/
def endsWithHeader (statusCode : ℕ) : Bool :=
  (100 ≤ statusCode && statusCode ≤ 199) || statusCode == 204 || statusCode == 304

def SoleContentLength (headers : List HttpHeader) (n : ℕ) : Prop :=
  ∃ value, fieldValues headers (text "Content-Length") = [value] ∧
    trimOptionalWhitespace value ≠ [] ∧ (trimOptionalWhitespace value).all isDigit = true ∧
    n = numeral (fun c => c.toNat - 48) 10 (trimOptionalWhitespace value)

/-- The length of the message whose header section ends at `headerEnd`, with the
    octets `rest` behind it, which are all of them if the connection is `closed`.
    The statuses of `noBody` end with the header section. -/
inductive MessageLength (noBody : ℕ → Bool) (closed : Bool) (statusCode : ℕ)
    (headers : List HttpHeader) (headerEnd : ℕ) (rest : Bytes) : ℕ → Prop
  | headerOnly (hs : noBody statusCode = true) :
      MessageLength noBody closed statusCode headers headerEnd rest headerEnd
  | chunked (hs : noBody statusCode = false)
      (hte : fieldValues headers (text "Transfer-Encoding") ≠ []) (hf : FinalChunked headers)
      {body tail : Bytes} (hr : rest = body ++ tail) (hb : ChunkedBody body) :
      MessageLength noBody closed statusCode headers headerEnd rest (headerEnd + body.length)
  | sized (hs : noBody statusCode = false)
      (hte : fieldValues headers (text "Transfer-Encoding") = []) {n : ℕ}
      (hcl : SoleContentLength headers n) (hle : n ≤ rest.length) :
      MessageLength noBody closed statusCode headers headerEnd rest (headerEnd + n)
  | untilClose (hs : noBody statusCode = false) (hc : closed = true)
      (hf : if fieldValues headers (text "Transfer-Encoding") = [] then
          fieldValues headers (text "Content-Length") = [] else ¬ FinalChunked headers) :
      MessageLength noBody closed statusCode headers headerEnd rest (headerEnd + rest.length)

theorem MessageLength.unique {noBody : ℕ → Bool} {closed : Bool}
    {headerEnd : ℕ} {rest : Bytes} {m : ℕ}
    (hm : MessageLength noBody closed statusCode headers headerEnd rest m)
    (hn : MessageLength noBody closed statusCode headers headerEnd rest n) : m = n := by
  cases hm with
  | headerOnly hs =>
    cases hn with
    | headerOnly => rfl
    | chunked hs' | sized hs' | untilClose hs' =>
      rw [hs] at hs'
      cases hs'
  | chunked hs hte hf hr hb =>
    cases hn with
    | headerOnly hs' =>
      rw [hs] at hs'
      cases hs'
    | chunked _ _ _ hr' hb' =>
      rw [hr] at hr'
      rw [hb.unique hb' hr']
    | sized _ hte' => exact absurd hte' hte
    | untilClose _ _ hf' =>
      rw [if_neg hte] at hf'
      exact absurd hf hf'
  | sized hs hte hcl hle =>
    cases hn with
    | headerOnly hs' =>
      rw [hs] at hs'
      cases hs'
    | chunked _ hte' => exact absurd hte hte'
    | sized _ _ hcl' _ =>
      obtain ⟨value, hv, -, -, rfl⟩ := hcl
      obtain ⟨value', hv', -, -, rfl⟩ := hcl'
      rw [hv] at hv'
      obtain rfl : value = value' := by simpa using hv'
      rfl
    | untilClose _ _ hf' =>
      rw [if_pos hte] at hf'
      obtain ⟨value, hv, -⟩ := hcl
      rw [hf'] at hv
      cases hv
  | untilClose hs hc hf =>
    cases hn with
    | headerOnly hs' =>
      rw [hs] at hs'
      cases hs'
    | chunked _ hte' hf' =>
      rw [if_neg hte'] at hf
      exact absurd hf' hf
    | sized _ hte' hcl' =>
      rw [if_pos hte'] at hf
      obtain ⟨value, hv, -⟩ := hcl'
      rw [hf] at hv
      cases hv
    | untilClose => rfl

/-- Framing that can be read in one way only. -/
structure WellFramed (statusLine : StatusLine) (headers : List HttpHeader) : Prop where
  notBoth : fieldValues headers (text "Transfer-Encoding") = [] ∨
    fieldValues headers (text "Content-Length") = []
  single : (fieldValues headers (text "Content-Length")).length ≤ 1
  notList : ∀ value ∈ fieldValues headers (text "Content-Length"), (44 : UInt8) ∉ value
  once : (transferCodings headers).countP isChunked ≤ 1
  version : fieldValues headers (text "Transfer-Encoding") ≠ [] →
    1 < statusLine.majorVersion ∨ (statusLine.majorVersion = 1 ∧ 1 ≤ statusLine.minorVersion)

theorem readContentLength_ok {found : Option ℕ} (h : readContentLength headers = .ok found) :
    (∀ value ∈ fieldValues headers (text "Content-Length"), (44 : UInt8) ∉ value) ∧
      (found = none → fieldValues headers (text "Content-Length") = []) ∧
      ∀ n, found = some n → SoleContentLength headers n := by
  unfold readContentLength at h
  unfold SoleContentLength
  generalize fieldValues headers (text "Content-Length") = values at h
  cases values with
  | nil =>
    obtain rfl := Except.ok.inj h
    exact ⟨nofun, fun _ => rfl, nofun⟩
  | cons value values =>
    unfold readContentLengthLoop at h
    simp only [Option.isSome_none, Bool.false_eq_true, or_false] at h
    split_ifs at h with hbad
    cases hp : parseSize (trimOptionalWhitespace value) with
    | error status =>
      rw [hp] at h
      cases h
    | ok parsed =>
      rw [hp] at h
      simp only at h
      cases values with
      | cons value' values =>
        unfold readContentLengthLoop at h
        simp at h
      | nil =>
        obtain rfl := Except.ok.inj h
        obtain ⟨hne, hall, rfl⟩ := parseDigits_ok hp
        refine ⟨fun v hv hcomma => hbad ?_, nofun, fun n hn => ?_⟩
        · rw [List.mem_singleton.1 hv] at hcomma
          exact .inr (List.any_eq_true.2 ⟨44, mem_trimOptionalWhitespace rfl hcomma, rfl⟩)
        · obtain rfl := Option.some.inj hn
          exact ⟨value, rfl, hne, hall, rfl⟩

/-! ## The parser -/

section Parser

variable {codecs : ExternalCodecs} {options : HttpParseOptions} {response r : HttpResponse}
  {headerEnd : ℕ} {rest : Bytes}

theorem decodeResponseBody_consumed {info : HttpTransferCodingInfo} {buffers : HttpCodingDecodeBuffers}
    {trailerTarget : OutBuffer} {close : Bool} {d : HttpTransferDecodeResult}
    (he : info.hasTransferEncoding = true) (hv : info.Valid)
    (h : decodeResponseBody codecs info close buffers trailerTarget rest = .ok d) :
    if info.finalCodingIsChunked then
      ∃ body tail, rest = body ++ tail ∧ ChunkedBody body ∧ d.bytesConsumed = body.length
    else close = true ∧ d.bytesConsumed = rest.length := by
  cases hf : info.finalCodingIsChunked with
  | true =>
    obtain ⟨inner, heq⟩ := @decodeResponseBody_chunked codecs buffers trailerTarget info he hv hf
      close
    rw [heq] at h
    obtain ⟨c, hc, h⟩ := bind_eq_ok h
    obtain ⟨st, hst, h⟩ := bind_eq_ok h
    unfold decodeChunkedBodyWithTrailers at hc
    split_ifs at hc
    obtain ⟨body, tail, hr, hb, hcons⟩ := chunkLoop_chunkedBody _ rest le_rfl _ _ _ c hc
    refine ⟨body, tail, hr, hb, ?_⟩
    rw [transferResult_consumed h, foldlM_transferStep_consumed hst]
    exact hcons.trans (Nat.zero_add _)
  | false =>
    unfold decodeResponseBody at h
    rw [if_neg (by simp [he, hv.nonempty])] at h
    cases close with
    | false => simp [hf] at h
    | true =>
      refine ⟨rfl, ?_⟩
      simp only [hf, not_true_eq_false, and_false, if_false, Bool.false_eq_true] at h
      obtain ⟨st, hst, h⟩ := bind_eq_ok h
      rw [transferResult_consumed h]
      have hlast : info.codings.reverse.head? ≠ some .chunked := by
        rw [← List.getLast?_eq_head?_reverse]
        have := hv.final
        rw [hf] at this
        simpa using this.symm
      generalize info.codings.reverse = codings at hst hlast
      cases codings with
      | nil =>
        obtain rfl := Except.ok.inj hst
        rfl
      | cons outer inner =>
        obtain ⟨st₁, hst₁, hst⟩ := bind_eq_ok hst
        rw [foldlM_transferStep_consumed hst]
        unfold transferStep at hst₁
        cases hk : transferCodingToHttpCoding outer with
        | none =>
          cases outer with
          | chunked => exact absurd rfl hlast
          | gzip | deflate | compress => cases hk
        | some coding =>
          rw [hk] at hst₁
          exact codingStep_consumed hst₁

theorem parseBody_framing (hforbidden : options.responseBodyForbidden = false)
    (h : parseBody codecs options response headerEnd rest = .ok r) :
    MessageLength statusCodeHasNoBody options.messageCompleteOnConnectionClose
        response.statusLine.statusCode response.headers headerEnd rest r.bytesConsumed ∧
      (statusCodeHasNoBody response.statusLine.statusCode = false →
        WellFramed response.statusLine response.headers) := by
  unfold parseBody at h
  cases hs : statusCodeHasNoBody response.statusLine.statusCode with
  | true =>
    rw [if_pos (.inr hs)] at h
    obtain rfl := Except.ok.inj h
    exact ⟨.headerOnly hs, nofun⟩
  | false =>
    rw [if_neg (by simp [hforbidden, hs])] at h
    obtain ⟨info, hi, h⟩ := bind_eq_ok h
    have hd := HttpTransferCodingInfo.parse_describes hi
    split at h
    · cases h
    next hversion =>
    obtain ⟨contentLength, hcl, h⟩ := bind_eq_ok h
    obtain ⟨hlist, hnone, hsome⟩ := readContentLength_ok hcl
    have hsingle : (fieldValues response.headers (text "Content-Length")).length ≤ 1 := by
      cases contentLength with
      | none =>
        rw [hnone rfl]
        exact Nat.zero_le 1
      | some n =>
        obtain ⟨value, hv, -⟩ := hsome n rfl
        rw [hv]
        exact le_rfl
    by_cases he : info.hasTransferEncoding = true
    · rw [if_pos he] at h
      split at h
      · cases h
      next hno =>
      have hcl0 : fieldValues response.headers (text "Content-Length") = [] :=
        hnone (by simpa using hno)
      obtain ⟨decoded, hdec, h⟩ := bind_eq_ok h
      have hcons := decodeResponseBody_consumed he (HttpTransferCodingInfo.parse_valid hi he) hdec
      have hbytes : r.bytesConsumed = headerEnd + decoded.bytesConsumed :=
        applyContentEncoding_consumed h
      refine ⟨?_, fun _ => ⟨.inr hcl0, hsingle, hlist, hd.once, fun _ => ?_⟩⟩
      · rw [hbytes]
        cases hf : info.finalCodingIsChunked with
        | true =>
          rw [hf, if_pos rfl] at hcons
          obtain ⟨body, tail, hr, hb, hlen⟩ := hcons
          rw [hlen]
          exact .chunked hs (hd.present.1 he) ((hd.final he).1 hf) hr hb
        | false =>
          rw [hf, if_neg (by simp)] at hcons
          rw [hcons.2]
          refine .untilClose hs hcons.1 ?_
          rw [if_neg (hd.present.1 he)]
          intro hfin
          rw [(hd.final he).2 hfin] at hf
          cases hf
      · have := not_and.1 hversion he
        omega
    · rw [if_neg he] at h
      have hte : fieldValues response.headers (text "Transfer-Encoding") = [] := by
        by_contra hne
        exact he (hd.present.2 hne)
      refine ⟨?_, fun _ => ⟨.inl hte, hsingle, hlist, hd.once, fun hne => absurd hte hne⟩⟩
      cases contentLength with
      | some n =>
        simp only [parseSizedBody] at h
        split at h
        · cases h
        next hle =>
        rw [applyContentEncoding_consumed h]
        exact .sized hs hte (hsome n rfl) (by omega)
      | none =>
        simp only [parseUnframedBody] at h
        split at h
        · next hclose =>
          rw [applyContentEncoding_consumed h]
          refine .untilClose hs hclose ?_
          rw [if_pos hte]
          exact hnone rfl
        · cases h

end Parser

/-- **The framing of responses**: `bytesConsumed` is the length of the message, where
    205 has no body either, and a message with a body whose framing is ambiguous is
    not accepted. -/
theorem parseResponse_framing (codecs : ExternalCodecs) (options : HttpParseOptions)
    (hforbidden : options.responseBodyForbidden = false) (data : Bytes) (r : HttpResponse)
    (h : parseResponse codecs options data = .ok r) :
    ∃ headerEnd, findHeaderEnd data = some headerEnd ∧
      (∀ n, MessageLength statusCodeHasNoBody options.messageCompleteOnConnectionClose
        r.statusLine.statusCode r.headers headerEnd (data.drop headerEnd) n ↔ n = r.bytesConsumed) ∧
      (statusCodeHasNoBody r.statusLine.statusCode = false → WellFramed r.statusLine r.headers) := by
  obtain ⟨⟨response, headerEnd⟩, hhead, h⟩ := bind_eq_ok h
  obtain ⟨hline, hheaders, -, -⟩ := parseBody_behindHead h
  obtain ⟨hlength, hframed⟩ := parseBody_framing hforbidden h
  rw [← hline, ← hheaders] at hlength hframed
  refine ⟨headerEnd, ?_, fun n => ⟨fun hn => hn.unique hlength, fun hn => hn ▸ hlength⟩, hframed⟩
  exact (parseHead_eq_ok hhead).1

/-- No codings but chunked. -/
def noCodecs : ExternalCodecs :=
  ⟨false, fun _ _ => .error statusNotSupported, fun _ _ => .error statusNotSupported⟩

/-- Room for two fields, and for a body of ten octets. -/
def smallBuffers : HttpParseOptions :=
  { headers := ⟨true, 2⟩, decodedBody := ⟨true, 10⟩ }

/-- A chunked response, with the start of the next one behind it. -/
def chunkedMessage : Bytes :=
  text "HTTP/1.1 200 OK\r\nTransfer-Encoding: chunked\r\n\r\n1\r\nx\r\n0\r\n\r\nHTTP"

theorem parseResponse_framing_chunked :
    ∃ r, parseResponse noCodecs smallBuffers chunkedMessage = .ok r ∧ r.bytesConsumed = 58 ∧
      ∃ headerEnd, findHeaderEnd chunkedMessage = some headerEnd ∧
        (∀ n, MessageLength statusCodeHasNoBody false r.statusLine.statusCode r.headers headerEnd
          (chunkedMessage.drop headerEnd) n ↔ n = r.bytesConsumed) ∧
        (statusCodeHasNoBody r.statusLine.statusCode = false →
          WellFramed r.statusLine r.headers) := by
  have hc : (parseResponse noCodecs smallBuffers chunkedMessage).toOption.map
      HttpResponse.bytesConsumed = some 58 := by decide +kernel
  cases hr : parseResponse noCodecs smallBuffers chunkedMessage with
  | error status =>
    rw [hr] at hc
    cases hc
  | ok r =>
    rw [hr] at hc
    exact ⟨r, rfl, Option.some.inj hc,
      parseResponse_framing noCodecs smallBuffers rfl chunkedMessage r hr⟩

/-- A chunked response to which the status 205 denies the body. -/
def resetContent : Bytes :=
  text "HTTP/1.1 205 R\r\nTransfer-Encoding: chunked\r\n\r\n0\r\n\r\n"

/-- A response without a body and with two framing fields. -/
def noContentTwice : Bytes :=
  text "HTTP/1.1 204 N\r\nTransfer-Encoding: chunked\r\nContent-Length: 5\r\n\r\n"

/-- The fields of a parsed message that say where it ends. -/
def framingOf (data : Bytes) : Option (ℕ × List HttpHeader × ℕ) :=
  (parseResponse noCodecs smallBuffers data).toOption.map fun r =>
    (r.statusLine.statusCode, r.headers, r.bytesConsumed)

theorem framingOf_some {data : Bytes} {consumed : ℕ}
    (h : framingOf data = some (statusCode, headers, consumed)) :
    ∃ r, parseResponse noCodecs smallBuffers data = .ok r ∧ r.statusLine.statusCode = statusCode ∧
      r.headers = headers ∧ r.bytesConsumed = consumed := by
  unfold framingOf at h
  cases hr : parseResponse noCodecs smallBuffers data with
  | error status =>
    rw [hr] at h
    cases h
  | ok r =>
    rw [hr] at h
    simp only [Except.toOption, Option.map_some, Option.some.injEq, Prod.mk.injEq] at h
    exact ⟨r, rfl, h⟩

/-- The body of a 205 response is left in the buffer, and a 204 response with two
    framing fields is accepted. -/
theorem framing_noBody_statuses :
    (∃ r, parseResponse noCodecs smallBuffers resetContent = .ok r ∧ r.bytesConsumed = 46 ∧
      MessageLength endsWithHeader false r.statusLine.statusCode r.headers 46
        (resetContent.drop 46) 51) ∧
    ∃ r, parseResponse noCodecs smallBuffers noContentTwice = .ok r ∧
      ¬ WellFramed r.statusLine r.headers := by
  constructor
  · obtain ⟨r, hr, hs, hh, hc⟩ := framingOf_some (show framingOf resetContent =
      some (205, [⟨text "Transfer-Encoding", text "chunked"⟩], 46) by decide +kernel)
    refine ⟨r, hr, hc, ?_⟩
    rw [hs, hh]
    have hbody : ChunkedBody (text "0" ++ (crlf ++ crlf)) :=
      .last (by unfold IsLine; decide) (by decide +kernel) .nil
    have hrest : resetContent.drop 46 = (text "0" ++ (crlf ++ crlf)) ++ [] := by decide +kernel
    exact .chunked rfl (by decide +kernel) (by unfold FinalChunked; decide +kernel) hrest hbody
  · obtain ⟨r, hr, hs, hh, hc⟩ := framingOf_some (show framingOf noContentTwice =
      some (204, [⟨text "Transfer-Encoding", text "chunked"⟩, ⟨text "Content-Length", text "5"⟩], 65)
      by decide +kernel)
    refine ⟨r, hr, fun hframed => ?_⟩
    have hboth := hframed.notBoth
    rw [hh] at hboth
    revert hboth
    decide +kernel

end KernelHttp.Http1
