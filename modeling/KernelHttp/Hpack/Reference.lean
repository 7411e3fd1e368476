/-
  Header blocks as RFC 7541 defines them.
-/
import KernelHttp.Hpack.TableHistory
import KernelHttp.Hpack.Huffman

namespace KernelHttp

open Fifo PrefixCode

/-! ## Integers and strings -/

/-- The bits of the first octet above a prefix of `n` bits. -/
def firstBits (n : ℕ) (octets : Bytes) : ℕ := (octets.headD 0).toNat / 2 ^ n

/-- Continuation octets: groups of seven bits, least significant first, and all
    octets but the last have the top bit. -/
inductive Continuation : Bytes → ℕ → Prop
  | last {b : UInt8} (hb : b.toNat < 128) : Continuation [b] b.toNat
  | more {b : UInt8} {bs : Bytes} {v : ℕ} (hb : 128 ≤ b.toNat) (hbs : Continuation bs v) :
      Continuation (b :: bs) (b.toNat % 128 + 128 * v)

/-- The octets are an integer with a prefix of `n` bits: at most five continuation
    octets, and a value below `2 ^ 32`. -/
inductive IsInteger (n : ℕ) : Bytes → ℕ → Prop
  | short {b : UInt8} (hb : b.toNat % 2 ^ n < 2 ^ n - 1) : IsInteger n [b] (b.toNat % 2 ^ n)
  | long {b : UInt8} {bs : Bytes} {v : ℕ} (hb : b.toNat % 2 ^ n = 2 ^ n - 1)
      (hbs : Continuation bs v) (hlen : bs.length ≤ 5) (hlt : 2 ^ n - 1 + v < 2 ^ 32) :
      IsInteger n (b :: bs) (2 ^ n - 1 + v)

/-- The octets are the Huffman codes of the string, filled up with less than eight
    ones. -/
def IsHuffman (octets s : Bytes) : Prop :=
  ∃ k < 8, (octets.flatMap fun b => bitsOf b.toNat 8) = huffmanBits s ++ List.replicate k 1

/-- The octets are a string literal. -/
inductive IsString : Bytes → Bytes → Prop
  | plain {len s : Bytes} (hlen : IsInteger 7 len s.length) (hflag : firstBits 7 len = 0) :
      IsString (len ++ s) s
  | huffman {len octets s : Bytes} (hlen : IsInteger 7 len octets.length)
      (hflag : firstBits 7 len = 1) (hs : IsHuffman octets s) : IsString (len ++ octets) s

/-! ## Field representations -/

/-- The name of a literal: that of a table entry, or a string. -/
inductive NameRef where
  | index (i : ℕ)
  | literal (name : Bytes)

/-- A field representation; `incremental` literals enter the dynamic table. -/
inductive Representation where
  | indexed (i : ℕ)
  | literal (name : NameRef) (value : Bytes) (incremental : Bool)

/-- The octets are the name of a literal whose index has a prefix of `n` bits. -/
inductive IsName (n : ℕ) : Bytes → NameRef → Prop
  | index {octets : Bytes} {i : ℕ} (hi : IsInteger n octets i) (hpos : 0 < i) :
      IsName n octets (.index i)
  | literal {zero octets name : Bytes} (hzero : IsInteger n zero 0) (hs : IsString octets name) :
      IsName n (zero ++ octets) (.literal name)

/-- The octets are a field representation: `1xxxxxxx`, `01xxxxxx`, `0000xxxx` and
    `0001xxxx`. -/
inductive IsField : Bytes → Representation → Prop
  | indexed {octets : Bytes} {i : ℕ} (hi : IsInteger 7 octets i) (hbits : firstBits 7 octets = 1) :
      IsField octets (.indexed i)
  | incremental {octets name value : Bytes} {ref : NameRef} (hn : IsName 6 name ref)
      (hbits : firstBits 6 name = 1) (hv : IsString octets value) :
      IsField (name ++ octets) (.literal ref value true)
  | notIndexed {octets name value : Bytes} {ref : NameRef} (hn : IsName 4 name ref)
      (hbits : firstBits 4 name = 0 ∨ firstBits 4 name = 1) (hv : IsString octets value) :
      IsField (name ++ octets) (.literal ref value false)

/-- The octets are field representations, one behind the other. -/
inductive IsFields : Bytes → List Representation → Prop
  | nil : IsFields [] []
  | cons {octets rest : Bytes} {r : Representation} {rs : List Representation}
      (hr : IsField octets r) (hrs : IsFields rest rs) : IsFields (octets ++ rest) (r :: rs)

/-- The octets are a block: table size updates `001xxxxx` of sizes up to `limit`,
    and then field representations. -/
inductive IsBlock (limit : ℕ) : Bytes → List ℕ → List Representation → Prop
  | fields {octets : Bytes} {rs : List Representation} (hrs : IsFields octets rs) :
      IsBlock limit octets [] rs
  | update {octets rest : Bytes} {n : ℕ} {ns : List ℕ} {rs : List Representation}
      (hn : IsInteger 5 octets n) (hbits : firstBits 5 octets = 1) (hle : n ≤ limit)
      (hrest : IsBlock limit rest ns rs) : IsBlock limit (octets ++ rest) (n :: ns) rs

/-! ## What a block stands for -/

/-- The entry of an index: the static table first, then the dynamic one. -/
def entryOf (t : Queue HttpHeader) (i : ℕ) : Option HttpHeader :=
  if i = 0 then none else (hpackStaticTable ++ t.items)[i - 1]?

namespace Representation

def field (t : Queue HttpHeader) : Representation → Option HttpHeader
  | indexed i => entryOf t i
  | literal (.index i) value _ => (entryOf t i).map fun e => ⟨e.name, value⟩
  | literal (.literal name) value _ => some ⟨name, value⟩

/-- The field enters the dynamic table. -/
def isIncremental : Representation → Bool
  | indexed _ => false
  | literal _ _ incremental => incremental

/-- The table behind the field `h`. -/
def next (r : Representation) (t : Queue HttpHeader) (h : HttpHeader) : Queue HttpHeader :=
  if r.isIncremental then t.step headerSize (.push h) else t

end Representation

def decodeFields : Queue HttpHeader → List Representation →
    Option (List HttpHeader × Queue HttpHeader)
  | t, [] => some ([], t)
  | t, r :: rs => do
    let h ← r.field t
    let (hs, t) ← decodeFields (r.next t h) rs
    return (h :: hs, t)

/-- The table behind the size updates. -/
def resized (t : Queue HttpHeader) (sizes : List ℕ) : Queue HttpHeader :=
  sizes.foldl (fun t n => t.step headerSize (.setBound n)) t

/-- **The reference decoder**: the block is well-formed, its header list is `hs`,
    within the limit, and its dynamic table ends as `t'`. -/
structure ReferenceDecodes (limit maxHeaderListSize : ℕ) (t : Queue HttpHeader) (block : Bytes)
    (sizes : List ℕ) (rs : List Representation) (hs : List HttpHeader)
    (t' : Queue HttpHeader) : Prop where
  block : IsBlock limit block sizes rs
  fields : decodeFields (resized t sizes) rs = some (hs, t')
  size : total headerSize hs ≤ maxHeaderListSize

/-- Some field of the representations enters the table and fits it. -/
def storesField : Queue HttpHeader → List Representation → Bool
  | _, [] => false
  | t, r :: rs => match r.field t with
    | none => false
    | some h => (r.isIncremental && decide (headerSize h ≤ t.bound)) || storesField (r.next t h) rs

end KernelHttp
