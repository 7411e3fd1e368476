/-
  The chunked transfer coding
  (`HttpParser::DecodeChunkedBodyWithTrailers`, RFC 9112 Section 7.1).

  The octets from `cursor` on are passed as `rest`, the number of octets before
  them as `consumed`.
-/
import KernelHttp.Http1.Coding
import KernelHttp.Lib.Incremental

namespace KernelHttp.Http1

open Incremental

/-- `KhHttpMaxHeaderLineBytes`. -/
def maxHeaderLineBytes : ℕ := 8 * 1024

/-- `KhHttpMaxChunks`. -/
def maxChunks : ℕ := 8192

/-- `KhHttpMaxTrailers`. -/
def maxTrailers : ℕ := 256

/-- `KhHttpMaxChunkSizeLineBytes`. -/
def maxChunkSizeLineBytes : ℕ := 32

/-! ## Lines -/

/-- The name in front of the first colon of a line and the text behind it. -/
def splitAtColon (line : Bytes) : Option (Bytes × Bytes) :=
  if line.all (·.toNat != 58) then none
  else some (line.takeWhile (·.toNat != 58), (line.dropWhile (·.toNat != 58)).drop 1)

def isForbiddenTrailerField (name : Bytes) : Bool :=
  [text "Content-Length", text "Transfer-Encoding", text "Host", text "Authorization",
    text "Proxy-Authorization", text "Cookie", text "Set-Cookie"].any (textEqualsIgnoreCase name)

def parseFieldLine (line : Bytes) : Except NTSTATUS (Bytes × Bytes) :=
  match line with
  | [] => .error statusInvalidParameter
  | c :: _ =>
    if isOptionalWhitespace c then .error statusInvalidNetworkResponse
    else match splitAtColon line with
      | none => .error statusInvalidNetworkResponse
      | some (name, value) =>
        if name = [] then .error statusInvalidNetworkResponse
        else .ok (name, trimOptionalWhitespace value)

def parseTrailerFieldLine (line : Bytes) : Except NTSTATUS HttpHeader := do
  let (name, value) ← parseFieldLine line
  if ¬ isValidToken name ∨ ¬ isValidHeaderValue value ∨ isForbiddenTrailerField name then
    .error statusInvalidNetworkResponse
  else return ⟨name, value⟩

/-- The size, with extensions behind a semicolon. -/
def parseChunkSizeLine (line : Bytes) : Except NTSTATUS ℕ := do
  let sizeText := line.takeWhile (·.toNat != 59)
  if sizeText.length ≠ line.length then validateSemicolonParameters (line.drop sizeText.length)
  let sizeText := trimOptionalWhitespace sizeText
  if sizeText = [] then .error statusInvalidNetworkResponse
  else parseHexSize sizeText

/-! ## The loops -/

/-- The results of `DecodeChunkedBodyWithTrailers`; `trailers` are those stored. -/
structure ChunkedResult where
  body : Bytes
  bytesConsumed : ℕ
  trailerCount : ℕ
  trailers : List HttpHeader
deriving DecidableEq

/-- The trailer fields, up to the empty line. -/
def trailerLoop (target : OutBuffer) (body : Bytes) (rest : Bytes) (consumed trailerCount : ℕ)
    (trailers : List HttpHeader) : Except NTSTATUS ChunkedResult :=
  match _h : findCrlf rest with
  | none => .error statusMoreProcessingRequired
  | some lineEnd =>
    if lineEnd > maxHeaderLineBytes then .error statusInvalidNetworkResponse
    else if lineEnd = 0 then .ok ⟨body, consumed + 2, trailerCount, trailers⟩
    else if trailerCount ≥ maxTrailers then .error statusInvalidNetworkResponse
    else if target.present ∧ trailerCount ≥ target.capacity then .error statusBufferTooSmall
    else
      match parseTrailerFieldLine (rest.take lineEnd) with
      | .error status => .error status
      | .ok trailer =>
        trailerLoop target body (rest.drop (lineEnd + 2)) (consumed + (lineEnd + 2))
          (trailerCount + 1) (if target.present then trailers ++ [trailer] else trailers)
termination_by rest.length
decreasing_by have := findCrlf_le _h; simp only [List.length_drop]; omega

/-- Appends a chunk, if the body has room. -/
def copyChunkData (chunk : Bytes) (target : OutBuffer) (body : Bytes) : Except NTSTATUS Bytes :=
  if chunk = [] then .ok body
  else if ¬ target.present ∨ body.length > target.capacity ∨
      chunk.length > target.capacity - body.length then .error statusBufferTooSmall
  else .ok (body ++ chunk)

/-- The chunks, one turn for each, then the trailers. -/
def chunkLoop (target trailerTarget : OutBuffer) (rest : Bytes) (consumed chunkCount : ℕ)
    (body : Bytes) : Except NTSTATUS ChunkedResult :=
  match _h : findCrlf rest with
  | none => .error statusMoreProcessingRequired
  | some lineEnd =>
    if lineEnd > maxChunkSizeLineBytes then .error statusInvalidNetworkResponse
    else
      match parseChunkSizeLine (rest.take lineEnd) with
      | .error status => .error status
      | .ok chunkSize =>
        let data := rest.drop (lineEnd + 2)
        if chunkSize = 0 then trailerLoop trailerTarget body data (consumed + (lineEnd + 2)) 0 []
        else if chunkCount + 1 > maxChunks then .error statusInvalidNetworkResponse
        else if chunkSize > data.length then .error statusMoreProcessingRequired
        else
          match copyChunkData (data.take chunkSize) target body with
          | .error status => .error status
          | .ok body =>
            let tail := data.drop chunkSize
            if tail.length < 2 then .error statusMoreProcessingRequired
            else if ¬ startsWithCrlf tail then .error statusInvalidNetworkResponse
            else chunkLoop target trailerTarget (tail.drop 2)
              (consumed + (lineEnd + 2) + chunkSize + 2) (chunkCount + 1) body
termination_by rest.length
decreasing_by have := findCrlf_le _h; simp only [List.length_drop]; omega

/-- The body, the trailer fields and `bytesConsumed`. -/
def decodeChunkedBodyWithTrailers (data : Bytes) (target trailerTarget : OutBuffer) :
    Except NTSTATUS ChunkedResult :=
  if (target.present = false ∧ target.capacity ≠ 0) ∨
      (trailerTarget.present = false ∧ trailerTarget.capacity ≠ 0) then
    .error statusInvalidParameter
  else chunkLoop target trailerTarget data 0 0 []

/-! ## Growing input -/

section Growing

variable {target trailerTarget : OutBuffer}

variable {p body rest : Bytes} {trailers : List HttpHeader}
    {i consumed trailerCount lineEnd chunkCount : ℕ}

theorem take_append_of_findCrlf (h : findCrlf p = some i) (s : Bytes) :
    (p ++ s).take i = p.take i := by
  have := findCrlf_le h
  rw [List.take_append_of_le_length (by omega)]

theorem drop_append_of_findCrlf (h : findCrlf p = some i) (s : Bytes) :
    (p ++ s).drop (i + 2) = p.drop (i + 2) ++ s := by
  rw [List.drop_append_of_le_length (findCrlf_le h)]

theorem trailerLoop_none (h : findCrlf rest = none) :
    trailerLoop target body rest consumed trailerCount trailers =
      .error statusMoreProcessingRequired := by
  unfold trailerLoop
  split
  · rfl
  · next heq => rw [h] at heq; simp at heq

theorem trailerLoop_some (h : findCrlf rest = some lineEnd) :
    trailerLoop target body rest consumed trailerCount trailers =
      if lineEnd > maxHeaderLineBytes then .error statusInvalidNetworkResponse
      else if lineEnd = 0 then .ok ⟨body, consumed + 2, trailerCount, trailers⟩
      else if trailerCount ≥ maxTrailers then .error statusInvalidNetworkResponse
      else if target.present ∧ trailerCount ≥ target.capacity then .error statusBufferTooSmall
      else
        match parseTrailerFieldLine (rest.take lineEnd) with
        | .error status => .error status
        | .ok trailer =>
          trailerLoop target body (rest.drop (lineEnd + 2)) (consumed + (lineEnd + 2))
            (trailerCount + 1) (if target.present then trailers ++ [trailer] else trailers) := by
  rw [trailerLoop]
  split
  · next heq => rw [h] at heq; simp at heq
  · next i heq =>
    rw [h] at heq
    obtain rfl : lineEnd = i := by simpa using heq
    rfl

theorem trailerLoop_stable (body : Bytes) : ∀ (n : ℕ) (p s : Bytes), p.length ≤ n →
    ∀ (consumed trailerCount : ℕ) (trailers : List HttpHeader),
    trailerLoop target body p consumed trailerCount trailers ≠
      .error statusMoreProcessingRequired →
    trailerLoop target body (p ++ s) consumed trailerCount trailers =
      trailerLoop target body p consumed trailerCount trailers := by
  intro n
  induction n with
  | zero =>
    intro p s hp consumed trailerCount trailers h
    obtain rfl : p = [] := List.eq_nil_of_length_eq_zero (by omega)
    exact absurd (trailerLoop_none rfl) h
  | succ n ih =>
    intro p s hp consumed trailerCount trailers h
    cases hf : findCrlf p with
    | none => exact absurd (trailerLoop_none hf) h
    | some lineEnd =>
      have hle := findCrlf_le hf
      rw [trailerLoop_some (findCrlf_append hf s), take_append_of_findCrlf hf,
        drop_append_of_findCrlf hf, trailerLoop_some hf]
      rw [trailerLoop_some hf] at h
      cases ht : parseTrailerFieldLine (p.take lineEnd) with
      | error status => rfl
      | ok trailer =>
        simp only [ht] at h ⊢
        generalize (if target.present then trailers ++ [trailer] else trailers) = stored at h ⊢
        split_ifs at h ⊢
        all_goals try rfl
        exact ih _ s (by simp only [List.length_drop]; omega) _ _ _ h

theorem trailerLoop_consumed (body : Bytes) : ∀ (n : ℕ) (p : Bytes), p.length ≤ n →
    ∀ (consumed trailerCount : ℕ) (trailers : List HttpHeader) (r : ChunkedResult),
    trailerLoop target body p consumed trailerCount trailers = .ok r →
    r.bytesConsumed ≤ consumed + p.length := by
  intro n
  induction n with
  | zero =>
    intro p hp consumed trailerCount trailers r h
    obtain rfl : p = [] := List.eq_nil_of_length_eq_zero (by omega)
    rw [trailerLoop_none rfl] at h; simp at h
  | succ n ih =>
    intro p hp consumed trailerCount trailers r h
    cases hf : findCrlf p with
    | none => rw [trailerLoop_none hf] at h; simp at h
    | some lineEnd =>
      have hle := findCrlf_le hf
      rw [trailerLoop_some hf] at h
      cases ht : parseTrailerFieldLine (p.take lineEnd) with
      | error status =>
        simp only [ht] at h
        split_ifs at h
        obtain rfl := Except.ok.inj h
        simp only; omega
      | ok trailer =>
        simp only [ht] at h
        generalize (if target.present then trailers ++ [trailer] else trailers) = stored at h
        split_ifs at h
        · obtain rfl := Except.ok.inj h
          simp only; omega
        · have := ih _ (by simp only [List.length_drop]; omega) _ _ _ r h
          simp only [List.length_drop] at this
          omega

/-- One turn of `chunkLoop`, behind the line of the size. -/
def chunkTurn (target trailerTarget : OutBuffer) (rest : Bytes) (consumed chunkCount : ℕ)
    (body : Bytes) (lineEnd : ℕ) : Except NTSTATUS ChunkedResult :=
  if lineEnd > maxChunkSizeLineBytes then .error statusInvalidNetworkResponse
  else
    match parseChunkSizeLine (rest.take lineEnd) with
    | .error status => .error status
    | .ok chunkSize =>
      let data := rest.drop (lineEnd + 2)
      if chunkSize = 0 then trailerLoop trailerTarget body data (consumed + (lineEnd + 2)) 0 []
      else if chunkCount + 1 > maxChunks then .error statusInvalidNetworkResponse
      else if chunkSize > data.length then .error statusMoreProcessingRequired
      else
        match copyChunkData (data.take chunkSize) target body with
        | .error status => .error status
        | .ok body =>
          let tail := data.drop chunkSize
          if tail.length < 2 then .error statusMoreProcessingRequired
          else if ¬ startsWithCrlf tail then .error statusInvalidNetworkResponse
          else chunkLoop target trailerTarget (tail.drop 2)
            (consumed + (lineEnd + 2) + chunkSize + 2) (chunkCount + 1) body

theorem chunkLoop_none (h : findCrlf rest = none) :
    chunkLoop target trailerTarget rest consumed chunkCount body =
      .error statusMoreProcessingRequired := by
  unfold chunkLoop
  split
  · rfl
  · next heq => rw [h] at heq; simp at heq

theorem chunkLoop_some (h : findCrlf rest = some lineEnd) :
    chunkLoop target trailerTarget rest consumed chunkCount body =
      chunkTurn target trailerTarget rest consumed chunkCount body lineEnd := by
  rw [chunkLoop]
  split
  · next heq => rw [h] at heq; simp at heq
  · next i heq =>
    rw [h] at heq
    obtain rfl : lineEnd = i := by simpa using heq
    rfl

theorem eq_crlf_append {tail : Bytes} (hlength : ¬ tail.length < 2)
    (h : startsWithCrlf tail = true) : tail = crlf ++ tail.drop 2 := by
  match tail with
  | [] => simp at hlength
  | [_] => simp at hlength
  | a :: b :: tail =>
    simp only [startsWithCrlf, Bool.and_eq_true, beq_iff_eq] at h
    rw [UInt8.toNat_inj.1 (show a.toNat = (13 : UInt8).toNat from h.1),
      UInt8.toNat_inj.1 (show b.toNat = (10 : UInt8).toNat from h.2)]
    rfl

/-- A turn that succeeds has read the last chunk, or one with data. -/
theorem chunkTurn_eq_ok {r : ChunkedResult}
    (h : chunkTurn target trailerTarget rest consumed chunkCount body lineEnd = .ok r) :
    ∃ size, parseChunkSizeLine (rest.take lineEnd) = .ok size ∧
      (size = 0 ∧ trailerLoop trailerTarget body (rest.drop (lineEnd + 2))
          (consumed + (lineEnd + 2)) 0 [] = .ok r ∨
        size ≠ 0 ∧ ∃ data tail body', data.length = size ∧
          rest.drop (lineEnd + 2) = data ++ (crlf ++ tail) ∧
          chunkLoop target trailerTarget tail (consumed + (lineEnd + 2) + size + 2)
            (chunkCount + 1) body' = .ok r) := by
  unfold chunkTurn at h
  split at h
  · cases h
  cases hsize : parseChunkSizeLine (rest.take lineEnd) with
  | error status =>
    rw [hsize] at h
    cases h
  | ok size =>
    rw [hsize] at h
    dsimp only at h
    refine ⟨size, rfl, ?_⟩
    by_cases hzero : size = 0
    · rw [if_pos hzero] at h
      exact .inl ⟨hzero, h⟩
    rw [if_neg hzero] at h
    split at h
    · cases h
    split at h
    · cases h
    next hroom =>
    cases hcopy : copyChunkData ((rest.drop (lineEnd + 2)).take size) target body with
    | error status =>
      rw [hcopy] at h
      cases h
    | ok body' =>
      rw [hcopy] at h
      dsimp only at h
      split at h
      · cases h
      split at h
      · cases h
      next hshort hcrlf =>
      refine .inr ⟨hzero, _, _, body', List.length_take_of_le (not_lt.1 hroom), ?_, h⟩
      rw [← eq_crlf_append hshort (not_not.1 hcrlf), List.take_append_drop]

theorem startsWithCrlf_append (h : ¬ p.length < 2) (s : Bytes) :
    startsWithCrlf (p ++ s) = startsWithCrlf p := by
  match p with
  | [] => simp at h
  | [_] => simp at h
  | _ :: _ :: _ => rfl

theorem chunkLoop_stable : ∀ (n : ℕ) (p s : Bytes), p.length ≤ n →
    ∀ (consumed chunkCount : ℕ) (body : Bytes),
    chunkLoop target trailerTarget p consumed chunkCount body ≠
      .error statusMoreProcessingRequired →
    chunkLoop target trailerTarget (p ++ s) consumed chunkCount body =
      chunkLoop target trailerTarget p consumed chunkCount body := by
  intro n
  induction n with
  | zero =>
    intro p s hp consumed chunkCount body h
    obtain rfl : p = [] := List.eq_nil_of_length_eq_zero (by omega)
    exact absurd (chunkLoop_none rfl) h
  | succ n ih =>
    intro p s hp consumed chunkCount body h
    cases hf : findCrlf p with
    | none => exact absurd (chunkLoop_none hf) h
    | some lineEnd =>
      have hle := findCrlf_le hf
      rw [chunkLoop_some hf] at h ⊢
      rw [chunkLoop_some (findCrlf_append hf s)]
      unfold chunkTurn at h ⊢
      rw [take_append_of_findCrlf hf, drop_append_of_findCrlf hf]
      by_cases h1 : lineEnd > maxChunkSizeLineBytes
      · simp only [h1, if_true]
      · simp only [h1, if_false] at h ⊢
        cases hsize : parseChunkSizeLine (p.take lineEnd) with
        | error status => rfl
        | ok chunkSize =>
          simp only [hsize] at h ⊢
          generalize hd : p.drop (lineEnd + 2) = data at h ⊢
          have hdl : data.length + (lineEnd + 2) = p.length := by
            rw [← hd, List.length_drop]; omega
          by_cases h2 : chunkSize = 0
          · simp only [h2, if_true] at h ⊢
            exact trailerLoop_stable body _ data s le_rfl _ _ _ h
          · by_cases h3 : chunkCount + 1 > maxChunks
            · simp only [h2, h3, if_true, if_false]
            · by_cases h4 : chunkSize > data.length
              · simp [h2, h3, h4] at h
              · have hle' : chunkSize ≤ data.length := by omega
                simp only [h2, h3, h4, if_false, List.length_append,
                  show ¬ chunkSize > data.length + s.length by omega,
                  List.take_append_of_le_length hle', List.drop_append_of_le_length hle'] at h ⊢
                cases hcopy : copyChunkData (data.take chunkSize) target body with
                | error status => rfl
                | ok body' =>
                  simp only [hcopy] at h ⊢
                  generalize ht : data.drop chunkSize = tail at h ⊢
                  have htl : tail.length + chunkSize = data.length := by
                    rw [← ht, List.length_drop]; omega
                  by_cases h5 : tail.length < 2
                  · simp [h5] at h
                  · simp only [h5, if_false, show ¬ tail.length + s.length < 2 by omega,
                      startsWithCrlf_append h5] at h ⊢
                    by_cases h6 : startsWithCrlf tail = true
                    · simp only [h6, not_true_eq_false, if_false] at h ⊢
                      rw [List.drop_append_of_le_length (by omega)]
                      exact ih _ s (by simp only [List.length_drop]; omega) _ _ _ h
                    · rw [if_pos h6, if_pos h6]

theorem chunkLoop_consumed : ∀ (n : ℕ) (p : Bytes), p.length ≤ n →
    ∀ (consumed chunkCount : ℕ) (body : Bytes) (r : ChunkedResult),
    chunkLoop target trailerTarget p consumed chunkCount body = .ok r →
    r.bytesConsumed ≤ consumed + p.length := by
  intro n
  induction n with
  | zero =>
    intro p hp consumed chunkCount body r h
    obtain rfl : p = [] := List.eq_nil_of_length_eq_zero (by omega)
    rw [chunkLoop_none rfl] at h; simp at h
  | succ n ih =>
    intro p hp consumed chunkCount body r h
    cases hf : findCrlf p with
    | none => rw [chunkLoop_none hf] at h; simp at h
    | some lineEnd =>
      have hle := findCrlf_le hf
      rw [chunkLoop_some hf] at h
      obtain ⟨size, -, ⟨-, h⟩ | ⟨-, data, tail, body', hsize, hdata, h⟩⟩ := chunkTurn_eq_ok h
      · have := trailerLoop_consumed body _ _ le_rfl _ _ _ r h
        rw [List.length_drop] at this
        omega
      · have hlength := congrArg List.length hdata
        simp only [List.length_drop, List.length_append, crlf, List.length_cons, List.length_nil]
          at hlength
        have := ih tail (by omega) _ _ _ r h
        omega

/-- **Chunked bodies of a growing input**: what is answered is final, unless more
    octets are asked for. -/
theorem decodeChunked_stable (target trailerTarget : OutBuffer) :
    Stable statusMoreProcessingRequired fun data =>
      decodeChunkedBodyWithTrailers data target trailerTarget := by
  intro p s h
  simp only [decodeChunkedBodyWithTrailers] at h ⊢
  split_ifs at h ⊢ with hc
  · rfl
  · exact chunkLoop_stable _ p s le_rfl _ _ _ h

theorem decodeChunked_consumed_le {r : ChunkedResult}
    (h : decodeChunkedBodyWithTrailers p target trailerTarget = .ok r) :
    r.bytesConsumed ≤ p.length := by
  unfold decodeChunkedBodyWithTrailers at h
  split_ifs at h with hc
  have := chunkLoop_consumed _ p le_rfl _ _ _ r h
  omega

end Growing

end KernelHttp.Http1
