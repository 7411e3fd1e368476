/-
  The base types (`include/KernelHttp/http/HttpTypes.h`).

  A status with a value is an `Except NTSTATUS`, a status with a changed object a pair; `SIZE_T` and
  `ULONG` are `Nat`, checked or wrapped where the sources depend on it.
-/
import Mathlib

namespace KernelHttp

/-- An `NTSTATUS` code. -/
abbrev NTSTATUS := UInt32

/-- `NT_SUCCESS`: the sign bit of the code is clear. -/
def ntSuccess (status : NTSTATUS) : Bool := status.toNat < 2 ^ 31

def statusSuccess : NTSTATUS := 0x00000000
def statusMoreProcessingRequired : NTSTATUS := 0xC0000016
def statusInvalidParameter : NTSTATUS := 0xC000000D
def statusBufferTooSmall : NTSTATUS := 0xC0000023
def statusIntegerOverflow : NTSTATUS := 0xC0000095
def statusInvalidNetworkResponse : NTSTATUS := 0xC00000C3
def statusNotSupported : NTSTATUS := 0xC00000BB
def statusInsufficientResources : NTSTATUS := 0xC000009A
def statusConnectionDisconnected : NTSTATUS := 0xC000020C
def statusInvalidDeviceState : NTSTATUS := 0xC0000184
def statusRetry : NTSTATUS := 0xC000022D
def statusIoTimeout : NTSTATUS := 0xC00000B5

@[simp] theorem ntSuccess_success : ntSuccess statusSuccess = true := rfl
@[simp] theorem ntSuccess_moreProcessingRequired :
    ntSuccess statusMoreProcessingRequired = false := rfl
@[simp] theorem ntSuccess_invalidParameter : ntSuccess statusInvalidParameter = false := rfl
@[simp] theorem ntSuccess_bufferTooSmall : ntSuccess statusBufferTooSmall = false := rfl
@[simp] theorem ntSuccess_integerOverflow : ntSuccess statusIntegerOverflow = false := rfl
@[simp] theorem ntSuccess_invalidNetworkResponse :
    ntSuccess statusInvalidNetworkResponse = false := rfl
@[simp] theorem ntSuccess_notSupported : ntSuccess statusNotSupported = false := rfl
@[simp] theorem ntSuccess_insufficientResources :
    ntSuccess statusInsufficientResources = false := rfl
@[simp] theorem ntSuccess_connectionDisconnected :
    ntSuccess statusConnectionDisconnected = false := rfl
@[simp] theorem ntSuccess_invalidDeviceState : ntSuccess statusInvalidDeviceState = false := rfl
@[simp] theorem ntSuccess_retry : ntSuccess statusRetry = false := rfl

/-- Octet strings: `UCHAR` and `char` buffers with their length. -/
abbrev Bytes := List UInt8

def text (s : String) : Bytes := s.toList.map fun c => UInt8.ofNat c.toNat

/-- `MaxSizeT`: the largest `SIZE_T`. -/
def maxSizeT : Nat := 2 ^ 64 - 1

/-- `http::HttpHeader`: a name and a value. -/
structure HttpHeader where
  name : Bytes
  value : Bytes
deriving DecidableEq, Repr, Inhabited

/-- `'A' <= c && c <= 'Z'`. -/
def isUpperAscii (b : UInt8) : Bool := 65 ≤ b.toNat && b.toNat ≤ 90

/-- `ToLowerAscii` on one octet (the sources add 32 to `'A'..'Z'`). -/
def toLowerAscii (b : UInt8) : UInt8 := if isUpperAscii b then b + 32 else b

/-- `TextEqualsIgnoreCase`, `NameEquals`: equal up to ASCII case. -/
def textEqualsIgnoreCase (a b : Bytes) : Bool := a.map toLowerAscii == b.map toLowerAscii

theorem textEqualsIgnoreCase_iff {a b : Bytes} :
    textEqualsIgnoreCase a b = true ↔ a.map toLowerAscii = b.map toLowerAscii := by
  simp [textEqualsIgnoreCase]

def lowerCase (a : Bytes) : Bool := a.all fun b => !isUpperAscii b

theorem map_toLowerAscii {a : Bytes} (h : lowerCase a = true) : a.map toLowerAscii = a := by
  have hb : ∀ b ∈ a, toLowerAscii b = id b := by
    intro b hb
    have := List.all_eq_true.1 h b hb
    simp only [Bool.not_eq_true'] at this
    simp [toLowerAscii, this]
  rw [List.map_congr_left hb, List.map_id]

end KernelHttp
