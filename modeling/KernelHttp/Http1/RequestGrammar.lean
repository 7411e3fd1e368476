/-
  The grammar of HTTP/1.1 requests (RFC 9112).

  A reader of requests that is no part of the sources.
-/
import KernelHttp.Http1.Framing

namespace KernelHttp.Http1.RequestGrammar

/-- A request as it is read. -/
structure RequestMessage where
  method : Bytes
  target : Bytes
  version : Bytes
  fields : List HttpHeader
  body : Bytes
  trailers : List HttpHeader
deriving DecidableEq

/-- The octets up to the first line end, and those behind it. -/
def splitLine (data : Bytes) : Option (Bytes × Bytes) :=
  (findCrlf data).map fun i => (data.take i, data.drop (i + 2))

variable {data line rest t : Bytes} {c : UInt8}

theorem splitLine_lt (h : splitLine data = some (line, rest)) :
    rest.length < data.length := by
  obtain ⟨i, hi, heq⟩ := Option.map_eq_some_iff.1 h
  obtain ⟨-, rfl⟩ := Prod.mk.inj heq
  have := findCrlf_le hi
  rw [List.length_drop]
  omega

theorem splitLine_line (h : IsLine line) (rest : Bytes) :
    splitLine (line ++ (crlf ++ rest)) = some (line, rest) := by
  rw [splitLine, findCrlf_line h, Option.map_some, List.take_left, ← List.append_assoc,
    List.drop_left' (by rw [List.length_append]; rfl)]

/-- A text without CR is a line. -/
theorem isLine_of_not_mem (h : (13 : UInt8) ∉ line) : IsLine line :=
  fun hi => h (hi.subset List.mem_cons_self)

/-! ## The request line -/

/-- `HTTP-version`. -/
def isHttpVersion (t : Bytes) : Bool :=
  match t.drop 5 with
  | [major, dot, minor] => t.take 5 == text "HTTP/" && isDigit major && dot == 46 && isDigit minor
  | _ => false

/-- A run of octets without SP, controls and DEL. -/
def isTargetText (t : Bytes) : Bool := t != [] && t.all fun c => 0x20 < c.toNat && c.toNat != 0x7f

/-- The characters of a URI, of which every form of `request-target` is made. -/
def isUriCharacter (c : UInt8) : Bool :=
  isDigit c || (65 ≤ c.toNat && c.toNat ≤ 90) || (97 ≤ c.toNat && c.toNat ≤ 122) ||
    (text "-._~:/?#[]@!$&'()*+,;=%").contains c

def isUriText (t : Bytes) : Bool := t != [] && t.all isUriCharacter

/-- `request-line`: a method, a target and a version, with single spaces between them. -/
def parseRequestLine (validTarget : Bytes → Bool) (line : Bytes) : Option (Bytes × Bytes × Bytes) :=
  let method := line.takeWhile (· != 32)
  let target := ((line.dropWhile (· != 32)).drop 1).takeWhile (· != 32)
  let version := (((line.dropWhile (· != 32)).drop 1).dropWhile (· != 32)).drop 1
  if isValidToken method && validTarget target && isHttpVersion version then
    some (method, target, version)
  else none

theorem all_ne_of_not_mem (h : c ∉ t) : ∀ a ∈ t, (a != c) = true := by
  rintro a ha
  exact bne_iff_ne.2 fun e => h (e ▸ ha)

theorem takeWhile_append_cons (h : c ∉ t) :
    (t ++ c :: rest).takeWhile (· != c) = t := by
  rw [List.takeWhile_append_of_pos (all_ne_of_not_mem h), List.takeWhile_cons_of_neg (by simp),
    List.append_nil]

theorem dropWhile_append_cons (h : c ∉ t) :
    (t ++ c :: rest).dropWhile (· != c) = c :: rest := by
  rw [List.dropWhile_append_of_pos (all_ne_of_not_mem h), List.dropWhile_cons_of_neg (by simp)]

theorem parseRequestLine_spec {validTarget : Bytes → Bool} {method target version : Bytes}
    (hmethod : (32 : UInt8) ∉ method) (htarget : (32 : UInt8) ∉ target) :
    parseRequestLine validTarget (method ++ 32 :: (target ++ 32 :: version)) =
      if isValidToken method && validTarget target && isHttpVersion version then
        some (method, target, version)
      else none := by
  simp only [parseRequestLine, takeWhile_append_cons hmethod, dropWhile_append_cons hmethod,
    takeWhile_append_cons htarget, dropWhile_append_cons htarget, List.drop_succ_cons,
    List.drop_zero]

/-! ## Fields -/

/-- `field-line`: a name, a colon, and a value with optional white space around it. -/
def parseFieldLine (line : Bytes) : Option HttpHeader :=
  let name := line.takeWhile (· != 58)
  match line.dropWhile (· != 58) with
  | [] => none
  | _ :: value =>
    if isValidToken name && isValidHeaderValue value then some ⟨name, trimOptionalWhitespace value⟩
    else none

theorem parseFieldLine_spec {name value : Bytes} (hname : (58 : UInt8) ∉ name) :
    parseFieldLine (name ++ 58 :: value) =
      if isValidToken name && isValidHeaderValue value then
        some ⟨name, trimOptionalWhitespace value⟩
      else none := by
  simp only [parseFieldLine, takeWhile_append_cons hname, dropWhile_append_cons hname]

/-- Field lines up to an empty line. -/
def parseFields (data : Bytes) : Option (List HttpHeader × Bytes) :=
  match _h : splitLine data with
  | none => none
  | some ([], rest) => some ([], rest)
  | some (line, rest) =>
    match parseFieldLine line with
    | none => none
    | some field => (parseFields rest).map fun (fields, rest) => (field :: fields, rest)
termination_by data.length
decreasing_by exact splitLine_lt _h

theorem parseFields_nil (rest : Bytes) : parseFields (crlf ++ rest) = some ([], rest) := by
  have h : splitLine (crlf ++ rest) = some ([], rest) := splitLine_line isLine_nil rest
  rw [parseFields]
  split
  · simp_all
  · simp_all
  · simp_all

theorem parseFields_cons {field : HttpHeader} (hline : IsLine line)
    (hne : line ≠ []) (hfield : parseFieldLine line = some field) (rest : Bytes) :
    parseFields (line ++ (crlf ++ rest)) =
      (parseFields rest).map fun (fields, rest) => (field :: fields, rest) := by
  have h := splitLine_line hline rest
  rw [parseFields]
  split
  · simp_all
  · simp_all
  case h_3 line' rest' _ hsplit =>
    obtain ⟨rfl, rfl⟩ := Prod.mk.inj (Option.some.inj (h.symm.trans hsplit))
    rw [hfield]

theorem parseFields_lines {α : Type} (line : α → Bytes) (field : α → HttpHeader) (rest : Bytes)
    (items : List α) (h : ∀ a ∈ items, IsLine (line a) ∧ line a ≠ [] ∧
      parseFieldLine (line a) = some (field a)) :
    parseFields ((items.map fun a => line a ++ crlf).flatten ++ (crlf ++ rest)) =
      some (items.map field, rest) := by
  induction items with
  | nil => exact parseFields_nil rest
  | cons a items ih =>
    obtain ⟨hline, hne, hfield⟩ := h a List.mem_cons_self
    rw [List.map_cons, List.flatten_cons, List.append_assoc, List.append_assoc,
      parseFields_cons hline hne hfield, ih fun b hb => h b (List.mem_cons_of_mem _ hb)]
    rfl

/-! ## The body -/

/-- `chunked-body`: chunks, a last chunk, and a trailer section. -/
def parseChunkedBody (data : Bytes) : Option (Bytes × List HttpHeader × Bytes) :=
  match _h : splitLine data with
  | none => none
  | some (line, rest) =>
    match chunkSize line with
    | none => none
    | some 0 => (parseFields rest).map fun (trailers, rest) => ([], trailers, rest)
    | some (n + 1) =>
      if startsWithCrlf (rest.drop (n + 1)) then
        (parseChunkedBody (rest.drop (n + 1 + 2))).map fun (body, trailers, rest') =>
          (rest.take (n + 1) ++ body, trailers, rest')
      else none
termination_by data.length
decreasing_by
  have := splitLine_lt _h
  rw [List.length_drop]
  omega

theorem parseChunkedBody_last (hline : IsLine line) (hsize : chunkSize line = some 0)
    (rest : Bytes) : parseChunkedBody (line ++ (crlf ++ rest)) =
      (parseFields rest).map fun (trailers, rest) => ([], trailers, rest) := by
  have h := splitLine_line hline rest
  rw [parseChunkedBody]
  split
  · simp_all
  case h_2 line' rest' hsplit =>
    obtain ⟨rfl, rfl⟩ := Prod.mk.inj (Option.some.inj (h.symm.trans hsplit))
    rw [hsize]

theorem parseChunkedBody_chunk (hline : IsLine line)
    (hsize : chunkSize line = some data.length) (hne : data ≠ []) (rest : Bytes) :
    parseChunkedBody (line ++ (crlf ++ (data ++ (crlf ++ rest)))) =
      (parseChunkedBody rest).map fun (body, trailers, rest') => (data ++ body, trailers, rest') := by
  have h := splitLine_line hline (data ++ (crlf ++ rest))
  obtain ⟨n, hn⟩ : ∃ n, data.length = n + 1 :=
    Nat.exists_eq_succ_of_ne_zero (mt List.eq_nil_of_length_eq_zero hne)
  rw [parseChunkedBody]
  split
  · simp_all
  case h_2 line' rest' hsplit =>
    obtain ⟨rfl, rfl⟩ := Prod.mk.inj (Option.some.inj (h.symm.trans hsplit))
    have htail : (data ++ (crlf ++ rest)).drop (n + 1 + 2) = rest := by
      rw [← List.append_assoc]
      exact List.drop_left' (by rw [List.length_append, hn]; rfl)
    rw [hsize, hn]
    simp only [List.drop_left' hn, List.take_left' hn, htail]
    rfl

/-- `message-body`: what the framing fields announce.  A message with both of them, or with
several lengths, is not read. -/
def parseMessageBody (fields : List HttpHeader) (data : Bytes) :
    Option (Bytes × List HttpHeader × Bytes) :=
  if fieldValues fields (text "Transfer-Encoding") ≠ [] then
    if fieldValues fields (text "Content-Length") = [] ∧
        (transferCodings fields).getLast?.any isChunked then parseChunkedBody data
    else none
  else
    match fieldValues fields (text "Content-Length") with
    | [] => some ([], [], data)
    | [value] =>
      let n := numeral (fun c => c.toNat - 48) 10 value
      if value ≠ [] ∧ value.all isDigit ∧ n ≤ data.length then some (data.take n, [], data.drop n)
      else none
    | _ => none

/-- `HTTP-message` with a request line. -/
def parseRequest (validTarget : Bytes → Bool) (data : Bytes) : Option (RequestMessage × Bytes) := do
  let (line, rest) ← splitLine data
  let (method, target, version) ← parseRequestLine validTarget line
  let (fields, rest) ← parseFields rest
  let (body, trailers, rest) ← parseMessageBody fields rest
  pure (⟨method, target, version, fields, body, trailers⟩, rest)

end KernelHttp.Http1.RequestGrammar
