/-
  The hexadecimal constants of the key exchange (`crypto/KeyExchange.cpp`).

  The moduli are string literals, parsed on every use.
-/
import KernelHttp.Core.Types
import KernelHttp.Lib.BigEndian

namespace KernelHttp.Crypto

open BigEndian

/-- A digit, in capital letters. -/
def hexDigit (v : ℕ) : UInt8 := if v < 10 then UInt8.ofNat (48 + v) else UInt8.ofNat (55 + v)

/-- The text of the low `n` digits of `v`. -/
def hexText : ℕ → ℕ → Bytes
  | 0, _ => []
  | n + 1, v => hexText n (v / 16) ++ [hexDigit (v % 16)]

def hexValue (value : UInt8) : ℤ :=
  if 48 ≤ value ∧ value ≤ 57 then value.toNat - 48
  else if 65 ≤ value ∧ value ≤ 70 then value.toNat - 65 + 10
  else if 97 ≤ value ∧ value ≤ 102 then value.toNat - 97 + 10
  else -1

/-- The loop of `ParseHexToBytes`. -/
def parseHexPairs : Bytes → Except NTSTATUS Bytes
  | high :: low :: hex => do
    if hexValue high < 0 ∨ hexValue low < 0 then .error statusInvalidParameter
    else
      let rest ← parseHexPairs hex
      .ok (UInt8.ofNat ((hexValue high).toNat <<< 4 ||| (hexValue low).toNat) :: rest)
  | _ => .ok []

def parseHexToBytes (hex : Bytes) (destinationLength : ℕ) : Except NTSTATUS Bytes :=
  if destinationLength = 0 then .error statusInvalidParameter
  else if hex.length ≠ destinationLength * 2 then .error statusInvalidParameter
  else parseHexPairs hex

@[simp] theorem hexText_length (n v : ℕ) : (hexText n v).length = n := by
  induction n generalizing v with
  | zero => rfl
  | succ n ih => rw [hexText, List.length_append, ih, List.length_singleton]

theorem parseHexPairs_append {x y a b : Bytes} (hx : parseHexPairs x = .ok a)
    (hlen : x.length = 2 * a.length) (hy : parseHexPairs y = .ok b) :
    parseHexPairs (x ++ y) = .ok (a ++ b) := by
  induction x using parseHexPairs.induct generalizing a with
  | case1 high low hex hbad =>
    rw [parseHexPairs, if_pos hbad] at hx
    cases hx
  | case2 high low hex hgood ih =>
    rw [parseHexPairs, if_neg hgood] at hx
    cases hrest : parseHexPairs hex with
    | error status => rw [hrest] at hx; cases hx
    | ok rest =>
      rw [hrest] at hx
      obtain rfl : _ :: rest = a := Except.ok.inj hx
      rw [List.cons_append, List.cons_append, parseHexPairs, if_neg hgood,
        ih hrest (by simp only [List.length_cons] at hlen; omega)]
      rfl
  | case3 x hx' =>
    match x, hx' with
    | [], _ =>
      obtain rfl : [] = a := Except.ok.inj hx
      exact hy
    | [c], _ =>
      obtain rfl : [] = a := Except.ok.inj hx
      simp at hlen
    | high :: low :: hex, hx' => exact absurd rfl (hx' high low hex)

theorem hexValue_hexDigit : ∀ d < 16, hexValue (hexDigit d) = d := by decide

theorem parseHexPairs_octet {v : ℕ} (hv : v < 256) :
    parseHexPairs [hexDigit (v / 16), hexDigit (v % 16)] = .ok [UInt8.ofNat v] := by
  have hor : (v / 16) <<< 4 ||| v % 16 = v := by
    rw [← Nat.shiftLeft_add_eq_or_of_lt (show v % 16 < 2 ^ 4 by omega), Nat.shiftLeft_eq]
    omega
  rw [parseHexPairs, hexValue_hexDigit _ (by omega), hexValue_hexDigit _ (by omega),
    if_neg (by omega), Int.toNat_natCast, Int.toNat_natCast, hor]
  rfl

/-- **The text of a number is parsed to its octets.** -/
theorem parseHexPairs_hexText (n v : ℕ) :
    parseHexPairs (hexText (2 * n) v) = .ok (bigEndian n v) := by
  induction n generalizing v with
  | zero => rfl
  | succ n ih =>
    have hoctet := parseHexPairs_octet (Nat.mod_lt v (by norm_num : 0 < 256))
    rw [show v % 256 / 16 = v / 16 % 16 by omega, show v % 256 % 16 = v % 16 by omega] at hoctet
    rw [Nat.mul_succ, hexText, hexText, bigEndian, List.append_assoc, List.singleton_append,
      Nat.div_div_eq_div_mul]
    exact parseHexPairs_append (ih _) (by simp) hoctet

/-- **Lines of equal length are parsed one after the other.** -/
theorem parseHexToBytes_lines {n m length : ℕ} (lines : List ℕ) (hm : m = 2 * n)
    (hlen : length = n * lines.length) (hpos : length ≠ 0) :
    parseHexToBytes (lines.flatMap (hexText m)) length = .ok (lines.flatMap (bigEndian n)) := by
  subst hm
  have hcount : (lines.flatMap (hexText (2 * n))).length = 2 * n * lines.length := by
    clear hlen
    induction lines with
    | nil => rfl
    | cons v lines ih =>
      rw [List.flatMap_cons, List.length_append, hexText_length, ih, List.length_cons]
      ring
  have hpairs : parseHexPairs (lines.flatMap (hexText (2 * n))) = .ok (lines.flatMap (bigEndian n)) := by
    clear hcount hlen
    induction lines with
    | nil => rfl
    | cons v lines ih =>
      rw [List.flatMap_cons, List.flatMap_cons]
      exact parseHexPairs_append (parseHexPairs_hexText n v) (by simp) ih
  rw [parseHexToBytes, if_neg hpos, if_neg, hpairs]
  rw [not_not, hcount, hlen]
  ring

end KernelHttp.Crypto
