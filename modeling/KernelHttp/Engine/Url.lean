/-
  The URL of a request (`engine/UrlParser.cpp`).

  `NormalizeDnsHost` is `NormalizeDnsName` of the certificate validator with IDNA
  enabled: the two functions have the same text.
-/
import KernelHttp.Http1.RequestBuilder
import KernelHttp.Tls.HostName

namespace KernelHttp.Engine

open Incremental

def khMaxSchemeLength : ℕ := 5
def khMaxHostLength : ℕ := 255
def khMaxPathLength : ℕ := 8000

/-- `'#'`, `'%'`, `'/'`, `':'`, `'?'`, `'@'`, `'['` and `']'`. -/
def hash : UInt8 := 35
def percent : UInt8 := 37
def slash : UInt8 := 47
def colon : UInt8 := 58
def question : UInt8 := 63
def atSign : UInt8 := 64
def openBracket : UInt8 := 91
def closeBracket : UInt8 := 93

/-- The fields that `ParseUrlIntoRequest` fills. -/
structure UrlParts where
  scheme : Bytes
  host : Bytes
  path : Bytes
  port : ℕ
deriving DecidableEq

def isValidRequestTargetText : Bytes → Bool
  | [] => true
  | c :: rest =>
    Http1.isValidRequestTargetByte c &&
      if c = percent then
        match rest with
        | d :: e :: rest =>
          Http1.isHexDigit d && Http1.isHexDigit e && isValidRequestTargetText rest
        | _ => false
      else isValidRequestTargetText rest

def isValidHostText (t : Bytes) (ipv6Literal : Bool) : Bool :=
  t != [] && t.all fun c =>
    !(c.toNat ≤ 0x20 || c.toNat == 0x7f || c == percent) && !(ipv6Literal && 0x80 ≤ c.toNat) &&
      !(!ipv6Literal && (c == openBracket || c == closeBracket))

/-- `CopyLowerText`, with the size of the destination. -/
def copyLowerText (source : Bytes) (destinationCapacity : ℕ) : Except NTSTATUS Bytes :=
  if source.length = 0 ∨ source.length ≥ destinationCapacity then .error statusInvalidParameter
  else .ok (source.map toLowerAscii)

def copyNormalizedHostText (source : Bytes) (ipv6Literal : Bool) : Except NTSTATUS Bytes :=
  if ipv6Literal then copyLowerText source (khMaxHostLength + 1)
  else Tls.normalizeDnsName source true

def parsePort (t : Bytes) : Except NTSTATUS ℕ :=
  if t = [] then .error statusInvalidParameter
  else do
    let value ← t.foldlM (fun value c =>
      if ¬ Http1.isDigit c then .error statusInvalidParameter
      else if value * 10 + (c.toNat - 48) > 0xffff then .error statusInvalidParameter
      else .ok (value * 10 + (c.toNat - 48))) 0
    if value = 0 then .error statusInvalidParameter else .ok value

/-- The port of an authority, that of the scheme where it names none. -/
def parsePortOrDefault (scheme : Bytes) : Option Bytes → Except NTSTATUS ℕ
  | none => .ok (if textEqualsIgnoreCase scheme (text "https") then 443 else 80)
  | some t => parsePort t

/-- The host of an authority, whether it stood in brackets, and the text of the port. -/
def splitAuthority (authority : Bytes) : Except NTSTATUS (Bytes × Bool × Option Bytes) :=
  match authority with
  | 91 :: rest =>
    let host := rest.takeWhile (· ≠ closeBracket)
    match rest.dropWhile (· ≠ closeBracket) with
    | [] => .error statusInvalidParameter
    | _ :: behind =>
      if host = [] ∨ colon ∉ host then .error statusInvalidParameter
      else
        match behind with
        | [] => .ok (host, true, none)
        | 58 :: port => .ok (host, true, some port)
        | _ => .error statusInvalidParameter
  | _ =>
    match authority.dropWhile (· ≠ colon) with
    | [] => .ok (authority, false, none)
    | _ :: port =>
      if colon ∈ port then .error statusNotSupported
      else .ok (authority.takeWhile (· ≠ colon), false, some port)

/-- The request target: what follows the authority, up to the fragment. -/
def parseTarget (rest : Bytes) : Except NTSTATUS Bytes :=
  let target := rest.takeWhile (· ≠ hash)
  if target = [] then .ok [slash]
  else
    let queryOnly := target.head? = some question
    if target.length + (if queryOnly then 1 else 0) > khMaxPathLength then
      .error statusBufferTooSmall
    else if ¬ isValidRequestTargetText target then .error statusInvalidParameter
    else .ok (if queryOnly then slash :: target else target)

/-- The authority and what follows it, behind the `//` of a URL. -/
def parseHierarchy (scheme rest : Bytes) : Except NTSTATUS UrlParts :=
  let ends := fun c => c = slash ∨ c = question ∨ c = hash
  let authority := rest.takeWhile fun c => ¬ ends c
  if authority = [] then .error statusInvalidParameter
  else if atSign ∈ authority then .error statusNotSupported
  else do
    let (host, ipv6Literal, portText) ← splitAuthority authority
    if ¬ isValidHostText host ipv6Literal then .error statusInvalidParameter
    else do
      let port ← parsePortOrDefault scheme portText
      let path ← parseTarget (rest.dropWhile fun c => ¬ ends c)
      let scheme ← copyLowerText scheme (khMaxSchemeLength + 1)
      let host ← copyNormalizedHostText host ipv6Literal
      .ok ⟨scheme, host, path, port⟩

/-- Scheme, host, port and target of a request. -/
def parseUrlIntoRequest (url : Bytes) : Except NTSTATUS UrlParts :=
  let scheme := url.takeWhile (· ≠ colon)
  match url.dropWhile (· ≠ colon) with
  | 58 :: 47 :: 47 :: rest =>
    if scheme = [] then .error statusInvalidParameter
    else if ¬ textEqualsIgnoreCase scheme (text "http") ∧
        ¬ textEqualsIgnoreCase scheme (text "https") then
      .error statusNotSupported
    else parseHierarchy scheme rest
  | _ => .error statusInvalidParameter

example : parseUrlIntoRequest (text "HTTPS://A.example:8443?q#f") =
    .ok ⟨text "https", text "a.example", text "/?q", 8443⟩ := by decide +kernel

end KernelHttp.Engine
