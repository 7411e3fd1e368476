/-
  DER elements (the anonymous namespace of `tls/CertificateValidator.cpp`).

  A reader returns an element and the octets behind it.
-/
import KernelHttp.Core.Types
import KernelHttp.Lib.BigEndian

namespace KernelHttp.Tls

open BigEndian

def tagBoolean : UInt8 := 0x01
def tagInteger : UInt8 := 0x02
def tagBitString : UInt8 := 0x03
def tagOctetString : UInt8 := 0x04
def tagOid : UInt8 := 0x06
def tagUtf8String : UInt8 := 0x0c
def tagPrintableString : UInt8 := 0x13
def tagIa5String : UInt8 := 0x16
def tagUtcTime : UInt8 := 0x17
def tagGeneralizedTime : UInt8 := 0x18
def tagSequence : UInt8 := 0x30
def tagSet : UInt8 := 0x31
def tagMinimumBaseDistance : UInt8 := 0x80
def tagMaximumBaseDistance : UInt8 := 0x81
def tagDnsName : UInt8 := 0x82
def tagIpAddress : UInt8 := 0x87
def tagTbsVersion : UInt8 := 0xa0
def tagPermittedSubtrees : UInt8 := 0xa0
def tagExcludedSubtrees : UInt8 := 0xa1
def tagExtensions : UInt8 := 0xa3
def tagDirectoryName : UInt8 := 0xa4

/-- `DerElement`; `full` is the element with its header. -/
structure DerElement where
  tag : UInt8
  value : Bytes
  full : Bytes
deriving DecidableEq

/-- The end of `ReadElement`: a value of `valueLength` octets behind `header`. -/
def finishElement (tag : UInt8) (header : Bytes) (valueLength : ℕ) (rest : Bytes) :
    Except NTSTATUS (DerElement × Bytes) :=
  if rest.length < valueLength then .error statusInvalidNetworkResponse
  else
    .ok (⟨tag, rest.take valueLength, header ++ rest.take valueLength⟩, rest.drop valueLength)

/-- `DerReader::ReadElement`. A tag is one octet, also one whose low bits announce more octets of
the tag (`xx1f`). -/
def readElement (data : Bytes) : Except NTSTATUS (DerElement × Bytes) :=
  match data with
  | tag :: lengthByte :: rest =>
    if lengthByte.toNat < 0x80 then finishElement tag [tag, lengthByte] lengthByte.toNat rest
    else
      let lengthBytes := lengthByte.toNat - 0x80
      if lengthBytes = 0 ∨ lengthBytes > 8 ∨ rest.length < lengthBytes then
        .error statusInvalidNetworkResponse
      else
        let valueLength := ofBigEndian (rest.take lengthBytes)
        if (lengthBytes > 1 ∧ rest.head? = some 0) ∨ valueLength < 0x80 then
          .error statusInvalidNetworkResponse
        else
          finishElement tag (tag :: lengthByte :: rest.take lengthBytes) valueLength
            (rest.drop lengthBytes)
  | _ => .error statusInvalidNetworkResponse

variable {rest data : Bytes} {e : DerElement} {tag : UInt8}

theorem finishElement_length {header rest' : Bytes} {n : ℕ}
    (h : finishElement tag header n rest = .ok (e, rest')) : rest'.length ≤ rest.length := by
  unfold finishElement at h
  split_ifs at h
  obtain ⟨-, rfl⟩ := Prod.mk.inj (Except.ok.inj h)
  rw [List.length_drop]
  omega

theorem readElement_length (h : readElement data = .ok (e, rest)) : rest.length < data.length := by
  unfold readElement at h
  split at h
  case h_1 tag lengthByte tail =>
    rw [List.length_cons, List.length_cons]
    split at h
    · have := finishElement_length h
      omega
    · dsimp only at h
      split at h
      · cases h
      split at h
      · cases h
      have := finishElement_length h
      rw [List.length_drop] at this
      omega
  · cases h

def readExpected (tag : UInt8) (data : Bytes) : Except NTSTATUS (DerElement × Bytes) :=
  match readElement data with
  | .error status => .error status
  | .ok (e, rest) => if e.tag = tag then .ok (e, rest) else .error statusInvalidNetworkResponse

theorem readExpected_eq_ok
    (h : readExpected tag data = .ok (e, rest)) : readElement data = .ok (e, rest) ∧ e.tag = tag := by
  unfold readExpected at h
  split at h
  · cases h
  · split_ifs at h with htag
    obtain ⟨rfl, rfl⟩ := Prod.mk.inj (Except.ok.inj h)
    exact ⟨‹_›, htag⟩

/-- A loop over the elements of `data`. -/
def forElements {σ : Type} (turn : σ → DerElement → Except NTSTATUS σ) (s : σ) (data : Bytes) :
    Except NTSTATUS σ :=
  match data with
  | [] => .ok s
  | c :: data =>
    match _h : readElement (c :: data) with
    | .error status => .error status
    | .ok (e, rest) =>
      match turn s e with
      | .error status => .error status
      | .ok s => forElements turn s rest
termination_by data.length
decreasing_by exact readElement_length _h

/-- The loop with `ReadExpected`. -/
def forExpected {σ : Type} (tag : UInt8) (turn : σ → DerElement → Except NTSTATUS σ) (s : σ)
    (data : Bytes) : Except NTSTATUS σ :=
  forElements (fun s e => if e.tag = tag then turn s e else .error statusInvalidNetworkResponse)
    s data

/-! ## Values -/

/-- The loop of `ParseUnsignedDerInteger` and `ParseImplicitUnsignedInteger`. -/
def parseUnsignedOctets (octets : Bytes) : Except NTSTATUS ℕ :=
  octets.foldlM (fun parsed c =>
    if parsed > 0xffffffff / 256 then .error statusIntegerOverflow
    else .ok (parsed * 256 + c.toNat)) 0

/-- A minimal integer that is not negative. -/
def parseUnsignedDerInteger (integer : DerElement) : Except NTSTATUS ℕ :=
  if integer.tag ≠ tagInteger then .error statusInvalidNetworkResponse
  else
    match integer.value with
    | [] => .error statusInvalidNetworkResponse
    | first :: rest =>
      if first.toNat ≥ 0x80 then .error statusInvalidNetworkResponse
      else
        match rest with
        | second :: _ =>
          if first = 0 then
            if second.toNat < 0x80 then .error statusInvalidNetworkResponse
            else parseUnsignedOctets rest
          else parseUnsignedOctets (first :: rest)
        | [] => parseUnsignedOctets [first]

def parseImplicitUnsignedInteger (integer : DerElement) : Except NTSTATUS ℕ :=
  match integer.value with
  | [] => .error statusInvalidNetworkResponse
  | first :: _ =>
    if first.toNat ≥ 0x80 then .error statusInvalidNetworkResponse
    else parseUnsignedOctets integer.value

/-- `IsDigit`. -/
def isDerDigit (c : UInt8) : Bool := 48 ≤ c.toNat && c.toNat ≤ 57

def packTime (year month day hour minute second : ℕ) : ℕ :=
  year * 10000000000 + month * 100000000 + day * 1000000 + hour * 10000 + minute * 100 + second

def isLeapYear (year : ℕ) : Bool := year % 4 == 0 && (year % 100 != 0 || year % 400 == 0)

def daysInMonth (year month : ℕ) : ℕ :=
  if month ∈ [1, 3, 5, 7, 8, 10, 12] then 31
  else if month ∈ [4, 6, 9, 11] then 30
  else if month = 2 then if isLeapYear year then 29 else 28
  else 0

def parseTwoDigits (data : Bytes) (offset : ℕ) : Except NTSTATUS ℕ :=
  match data[offset]?, data[offset + 1]? with
  | some a, some b =>
    if isDerDigit a && isDerDigit b then .ok ((a.toNat - 48) * 10 + (b.toNat - 48))
    else .error statusInvalidNetworkResponse
  | _, _ => .error statusInvalidNetworkResponse

/-- The month and what follows it, from `offset` on. -/
def parseTimeFields (data : Bytes) (year offset : ℕ) : Except NTSTATUS ℕ := do
  let month ← parseTwoDigits data offset
  let day ← parseTwoDigits data (offset + 2)
  let hour ← parseTwoDigits data (offset + 4)
  let minute ← parseTwoDigits data (offset + 6)
  let second ← parseTwoDigits data (offset + 8)
  let monthDays := daysInMonth year month
  if monthDays = 0 ∨ day < 1 ∨ day > monthDays ∨ hour > 23 ∨ minute > 59 ∨ second > 59 then
    .error statusInvalidNetworkResponse
  else .ok (packTime year month day hour minute second)

def parseDerTime (time : DerElement) : Except NTSTATUS ℕ :=
  if time.tag = tagUtcTime then
    if time.value.length ≠ 13 ∨ time.value[12]? ≠ some 90 then .error statusInvalidNetworkResponse
    else do
      let shortYear ← parseTwoDigits time.value 0
      parseTimeFields time.value (if shortYear ≥ 50 then 1900 + shortYear else 2000 + shortYear) 2
  else if time.tag = tagGeneralizedTime then
    if time.value.length ≠ 15 ∨ time.value[14]? ≠ some 90 then .error statusInvalidNetworkResponse
    else do
      let century ← parseTwoDigits time.value 0
      let year ← parseTwoDigits time.value 2
      parseTimeFields time.value (century * 100 + year) 4
  else .error statusInvalidNetworkResponse

end KernelHttp.Tls
