/-
  The HPACK decoder (`HpackDecoder` in `Hpack.cpp`, RFC 7541 Sections 3 and 6).

  A call that fails keeps the changes made to the table before.
-/
import KernelHttp.Hpack.Integer
import KernelHttp.Hpack.Huffman
import KernelHttp.Hpack.DynamicTable

namespace KernelHttp

structure HpackDecoder where
  table : HpackDynamicTable := {}
  maxTableSize : ℕ := 4096
deriving DecidableEq

/-- What the caller of `Decode` provides: the capacity of `headers`, the capacity
    of the name/value buffer and the limit on the header list. -/
structure DecodeLimits where
  headerCapacity : ℕ
  nameValueCapacity : ℕ
  maxHeaderListSize : ℕ := maxSizeT

/-- The locals of `Decode`. -/
structure DecodeState where
  table : HpackDynamicTable
  rest : Bytes
  headers : List HttpHeader := []
  nvOffset : ℕ := 0
  headerListSize : ℕ := 0
  allowTableSizeUpdate : Bool := true

def rangeFits (offset length capacity : ℕ) : Bool :=
  offset ≤ capacity && length ≤ capacity - offset

/-- The static table, then the dynamic one. -/
def lookupIndex (table : HpackDynamicTable) (index : ℕ) : Except NTSTATUS HttpHeader :=
  if index ≤ hpackStaticTableSize then .ok (hpackStaticTable[index - 1]?.getD default)
  else match table.lookup (index - hpackStaticTableSize - 1) with
    | some h => .ok h
    | none => .error statusInvalidNetworkResponse

/-- A string literal: the text, the octets behind it and the new `nvOffset`. -/
def decodeString (rest : Bytes) (nvOffset nameValueCapacity : ℕ) :
    Except NTSTATUS (Bytes × Bytes × ℕ) :=
  match rest with
  | [] => .error statusInvalidNetworkResponse
  | byte :: _ => do
    let (strLen, consumed) ← hpackDecodeInteger rest 7
    let rest := rest.drop consumed
    if ¬ strLen ≤ rest.length then .error statusInvalidNetworkResponse
    else if byte.toNat ≥ 128 then
      if ¬ rangeFits nvOffset (strLen * 2) nameValueCapacity then .error statusBufferTooSmall
      else do
        let decoded ← hpackHuffmanDecode (rest.take strLen) (nameValueCapacity - nvOffset)
        return (decoded, rest.drop strLen, nvOffset + decoded.length)
    else if ¬ rangeFits nvOffset strLen nameValueCapacity then .error statusBufferTooSmall
    else return (rest.take strLen, rest.drop strLen, nvOffset + strLen)

/-- A field as it was read: its parts, and whether they still sit in a table
    (`namePtr`, `valuePtr` outside the name/value buffer). -/
structure DecodedField where
  name : Bytes
  value : Bytes
  nameFromTable : Bool
  valueFromTable : Bool
  addToTable : Bool
  rest : Bytes
  nvOffset : ℕ

/-- Indexed Header Field (Section 6.1). -/
def decodeIndexed (table : HpackDynamicTable) (rest : Bytes) (nvOffset : ℕ) :
    Except NTSTATUS DecodedField := do
  let (index, consumed) ← hpackDecodeInteger rest 7
  if index = 0 then .error statusInvalidNetworkResponse
  else do
    let h ← lookupIndex table index
    return { name := h.name, value := h.value, nameFromTable := true, valueFromTable := true
             addToTable := false, rest := rest.drop consumed, nvOffset := nvOffset }

/-- Literal Header Field (Section 6.2), with an index of `prefixBits` bits. -/
def decodeLiteral (table : HpackDynamicTable) (rest : Bytes) (nvOffset nameValueCapacity : ℕ)
    (prefixBits : ℕ) (addToTable : Bool) : Except NTSTATUS DecodedField := do
  let (index, consumed) ← hpackDecodeInteger rest prefixBits
  let rest := rest.drop consumed
  if index > 0 then do
    let h ← lookupIndex table index
    let (value, rest, nvOffset) ← decodeString rest nvOffset nameValueCapacity
    return { name := h.name, value := value, nameFromTable := true, valueFromTable := false
             addToTable := addToTable, rest := rest, nvOffset := nvOffset }
  else do
    let (name, rest, nvOffset) ← decodeString rest nvOffset nameValueCapacity
    let (value, rest, nvOffset) ← decodeString rest nvOffset nameValueCapacity
    return { name := name, value := value, nameFromTable := false, valueFromTable := false
             addToTable := addToTable, rest := rest, nvOffset := nvOffset }

/-- `MaterializeHeaderPart`: a part of a table is copied behind `nvOffset`.  A
    part that was read into the buffer stays where it is. -/
def materializeHeaderPart (fromTable : Bool) (length nvOffset capacity : ℕ) :
    Except NTSTATUS ℕ :=
  if ¬ fromTable then .ok nvOffset
  else if ¬ rangeFits nvOffset length capacity then .error statusBufferTooSmall
  else .ok (nvOffset + length)

/-- `AddHeaderListSize`: the new size of the header list. -/
def addHeaderListSize (nameLength valueLength maxHeaderListSize headerListSize : ℕ) : Option ℕ :=
  if nameLength > maxSizeT - valueLength then none
  else if nameLength + valueLength > maxSizeT - hpackEntryOverhead then none
  else
    let fieldSize := nameLength + valueLength + hpackEntryOverhead
    if headerListSize > maxSizeT - fieldSize then none
    else if maxHeaderListSize ≠ maxSizeT ∧
        (fieldSize > maxHeaderListSize ∨ headerListSize > maxHeaderListSize - fieldSize) then none
    else some (headerListSize + fieldSize)

/-- The limit is a `SIZE_T`: the checks come to one comparison. -/
theorem addHeaderListSize_eq {maxHeaderListSize : ℕ} (hm : maxHeaderListSize ≤ maxSizeT)
    (nameLength valueLength headerListSize : ℕ) :
    addHeaderListSize nameLength valueLength maxHeaderListSize headerListSize =
      if headerListSize + (nameLength + valueLength + hpackEntryOverhead) ≤ maxHeaderListSize then
        some (headerListSize + (nameLength + valueLength + hpackEntryOverhead))
      else none := by
  have hover : hpackEntryOverhead ≤ maxSizeT := by decide
  have hpos : 0 < hpackEntryOverhead := by decide
  unfold addHeaderListSize
  simp only
  split_ifs <;> first | rfl | omega

/-- The second half of the loop of `Decode`: the field is copied, counted,
    inserted and emitted. -/
def emitField (l : DecodeLimits) (s : DecodeState) (f : DecodedField) :
    Except (NTSTATUS × HpackDynamicTable) DecodeState :=
  match materializeHeaderPart f.nameFromTable f.name.length f.nvOffset l.nameValueCapacity with
  | .error status => .error (status, s.table)
  | .ok nvOffset =>
    match materializeHeaderPart f.valueFromTable f.value.length nvOffset l.nameValueCapacity with
    | .error status => .error (status, s.table)
    | .ok nvOffset =>
      match addHeaderListSize f.name.length f.value.length l.maxHeaderListSize
          s.headerListSize with
      | none => .error (statusInvalidNetworkResponse, s.table)
      | some headerListSize =>
        let inserted := if f.addToTable then s.table.insert f.name f.value
          else (statusSuccess, s.table)
        if ¬ ntSuccess inserted.1 then .error inserted
        else if s.headers.length ≥ l.headerCapacity then .error (statusBufferTooSmall, inserted.2)
        else .ok
          { table := inserted.2, rest := f.rest, headers := s.headers ++ [⟨f.name, f.value⟩]
            nvOffset := nvOffset, headerListSize := headerListSize
            allowTableSizeUpdate := false }

/-- Dynamic Table Size Update (Section 6.3). -/
def decodeSizeUpdate (maxTableSize : ℕ) (s : DecodeState) : Except NTSTATUS DecodeState :=
  if ¬ s.allowTableSizeUpdate then .error statusInvalidNetworkResponse
  else do
    let (newSize, consumed) ← hpackDecodeInteger s.rest 5
    if newSize > maxTableSize then .error statusInvalidNetworkResponse
    else return { s with table := s.table.updateMaxSize newSize, rest := s.rest.drop consumed }

/-- The field that starts with `byte`; `none` is a table size update. -/
def decodeRepresentation (l : DecodeLimits) (s : DecodeState) (byte : ℕ) :
    Option (Except NTSTATUS DecodedField) :=
  if byte ≥ 128 then some (decodeIndexed s.table s.rest s.nvOffset)
  else if byte / 64 = 1 then
    some (decodeLiteral s.table s.rest s.nvOffset l.nameValueCapacity 6 true)
  else if byte / 16 = 0 ∨ byte / 16 = 1 then
    some (decodeLiteral s.table s.rest s.nvOffset l.nameValueCapacity 4 false)
  else none

/-- One turn of `while (offset < blockLen)`. -/
def decodeTurn (l : DecodeLimits) (maxTableSize : ℕ) (s : DecodeState) (byte : UInt8) :
    Except (NTSTATUS × HpackDynamicTable) DecodeState :=
  match decodeRepresentation l s byte.toNat with
  | some (.ok f) => emitField l s f
  | some (.error status) => .error (status, s.table)
  | none => (decodeSizeUpdate maxTableSize s).mapError fun status => (status, s.table)

/-- The loop of `Decode`; every turn reads an octet, so `fuel` octets take at
    most `fuel` turns. -/
def decodeLoop (l : DecodeLimits) (maxTableSize : ℕ) :
    ℕ → DecodeState → Except (NTSTATUS × HpackDynamicTable) DecodeState
  | 0, s => .ok s
  | fuel + 1, s =>
    match s.rest with
    | [] => .ok s
    | byte :: _ => do
      let s ← decodeTurn l maxTableSize s byte
      decodeLoop l maxTableSize fuel s

namespace HpackDecoder

/-- `HpackDecoder::Initialize`. -/
def initializeDecoder (maxTableSize : ℕ) : HpackDecoder :=
  { table := .initializeTable maxTableSize, maxTableSize := maxTableSize }

def updateMaxTableSize (d : HpackDecoder) (maxTableSize : ℕ) : HpackDecoder :=
  { table := d.table.updateMaxSize maxTableSize, maxTableSize := maxTableSize }

/-- The fields of a block, and the table behind it. -/
def decode (d : HpackDecoder) (l : DecodeLimits) (block : Bytes) :
    Except NTSTATUS (List HttpHeader) × HpackDecoder :=
  match decodeLoop l d.maxTableSize block.length { table := d.table, rest := block } with
  | .error (status, table) => (.error status, { d with table := table })
  | .ok s => (.ok s.headers, { d with table := s.table })

end HpackDecoder

end KernelHttp
