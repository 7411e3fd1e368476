/-
  The block cipher is AES-128 (`crypto/Aead.cpp`).

  The list of sixteen octets that the source works on is read as the state of the standard
  (`Fips197.stateOf`), and each transformation is the one there.
-/
import KernelHttp.Crypto.Aes
import KernelHttp.Crypto.Fips197

namespace KernelHttp.Crypto

open Fips197 (State Word stateOf octetsOf keyWord)

/-! ## Octets -/

/-- What is checked for every octet, and the constants of the rounds. -/
theorem aes_tables : (∀ a : UInt8, aesSubstitute a = Fips197.sbox a ∧
      aesGfMul2 a = UInt8.ofNat (Fips197.gfMul 2 a.toNat) ∧
      UInt8.ofNat (Fips197.gfMul 3 a.toNat) = a ^^^ aesGfMul2 a ∧
      (a &&& 0x80 = 0 ∨ a &&& 0x80 = 0x80)) ∧
    ∀ m < 10, aesRcon.getD m 0 = UInt8.ofNat (Fips197.xtime^[m] 1) := by
  decide +kernel

/-- **The table is the S-box.** -/
theorem aesSubstitute_eq : aesSubstitute = Fips197.sbox := funext fun a => (aes_tables.1 a).1

theorem aesGfMul2_eq (a : UInt8) : aesGfMul2 a = UInt8.ofNat (Fips197.gfMul 2 a.toNat) :=
  (aes_tables.1 a).2.1

theorem gfMul_three (a : UInt8) : UInt8.ofNat (Fips197.gfMul 3 a.toNat) = a ^^^ aesGfMul2 a :=
  (aes_tables.1 a).2.2.1

theorem aesGfMul2_xor (a b : UInt8) : aesGfMul2 (a ^^^ b) = aesGfMul2 a ^^^ aesGfMul2 b := by
  have hbit (c : UInt8) : c &&& 0x80 = 0 ∨ c &&& 0x80 = 0x80 := (aes_tables.1 c).2.2.2
  have hand : (a ^^^ b) &&& 0x80 = (a &&& 0x80) ^^^ (b &&& 0x80) := by
    apply UInt8.toBitVec_inj.1
    ext i hi
    simp [Bool.and_xor_distrib_right]
  have hshift : (a ^^^ b) <<< 1 = (a <<< 1) ^^^ (b <<< 1) := UInt8.shiftLeft_xor
  simp only [aesGfMul2, hand, hshift]
  rcases hbit a with ha | ha <;> rcases hbit b with hb | hb
  · simp [ha, hb]
  · simp [ha, hb, UInt8.xor_assoc]
  · simp [ha, hb]
    ac_rfl
  · simp [ha, hb]
    -- The two reductions cancel.
    rw [UInt8.xor_comm (b <<< 1) 27, UInt8.xor_assoc, ← UInt8.xor_assoc 27 27, UInt8.xor_self,
      UInt8.zero_xor]

theorem mixed_octet (a b c d : UInt8) :
    a ^^^ (a ^^^ b ^^^ c ^^^ d) ^^^ aesGfMul2 (a ^^^ b) =
      aesGfMul2 a ^^^ (b ^^^ aesGfMul2 b) ^^^ c ^^^ d := by
  have hcancel : a ^^^ (a ^^^ b ^^^ c ^^^ d) = b ^^^ c ^^^ d := by
    rw [UInt8.xor_assoc, UInt8.xor_assoc, ← UInt8.xor_assoc a a, UInt8.xor_self, UInt8.zero_xor,
      UInt8.xor_assoc]
  rw [hcancel, aesGfMul2_xor]
  ac_rfl

/-! ## The transformations -/

variable {t key : Bytes} {i n : ℕ}

theorem octetsOf_stateOf (ht : t.length = 16) : octetsOf (stateOf t) = t := by
  match t, ht with
  | [_, _, _, _, _, _, _, _, _, _, _, _, _, _, _, _], _ => rfl

@[simp] theorem aesSubBytes_length (t : Bytes) : (aesSubBytes t).length = t.length := by
  simp [aesSubBytes]

@[simp] theorem aesShiftRows_length (t : Bytes) : (aesShiftRows t).length = t.length := by
  simp [aesShiftRows]

@[simp] theorem aesMixColumns_length (t : Bytes) : (aesMixColumns t).length = 16 := rfl

theorem stateOf_subBytes (ht : t.length = 16) :
    stateOf (aesSubBytes t) = Fips197.subBytes (stateOf t) := by
  funext r c
  have hi : (r : ℕ) + 4 * c < t.length := by omega
  simp [stateOf, aesSubBytes, Fips197.subBytes, aesSubstitute_eq, List.getD_eq_getElem?_getD, hi]

theorem stateOf_shiftRows (ht : t.length = 16) :
    stateOf (aesShiftRows t) = Fips197.shiftRows (stateOf t) := by
  match t, ht with
  | [a₀, a₁, a₂, a₃, a₄, a₅, a₆, a₇, a₈, a₉, b₀, b₁, b₂, b₃, b₄, b₅], _ =>
    have hrows : aesShiftRows [a₀, a₁, a₂, a₃, a₄, a₅, a₆, a₇, a₈, a₉, b₀, b₁, b₂, b₃, b₄, b₅] =
        [a₀, a₅, b₀, b₅, a₄, a₉, b₄, a₃, a₈, b₃, a₂, a₇, b₂, a₁, a₆, b₁] := rfl
    rw [hrows]
    funext r c
    fin_cases r <;> fin_cases c <;> rfl

theorem aesMixColumn_getD (s : Fin 4 → UInt8) (r : Fin 4) :
    (aesMixColumn (s 0) (s 1) (s 2) (s 3)).getD r 0 =
      UInt8.ofNat (Fips197.gfMul 2 (s r).toNat) ^^^ UInt8.ofNat (Fips197.gfMul 3 (s (r + 1)).toNat) ^^^
        s (r + 2) ^^^ s (r + 3) := by
  rw [← aesGfMul2_eq, gfMul_three, ← mixed_octet]
  have hsum (i : Fin 4) : s 0 ^^^ s 1 ^^^ s 2 ^^^ s 3 =
      s i ^^^ s (i + 1) ^^^ s (i + 2) ^^^ s (i + 3) := by
    fin_cases i
    · rfl
    · change _ = s 1 ^^^ s 2 ^^^ s 3 ^^^ s 0
      ac_rfl
    · change _ = s 2 ^^^ s 3 ^^^ s 0 ^^^ s 1
      ac_rfl
    · change _ = s 3 ^^^ s 0 ^^^ s 1 ^^^ s 2
      ac_rfl
  rw [← hsum]
  fin_cases r <;> rfl

theorem stateOf_mixColumns (t : Bytes) :
    stateOf (aesMixColumns t) = Fips197.mixColumns (stateOf t) := by
  funext r c
  have hcolumn := aesMixColumn_getD (fun i => stateOf t i c) r
  rw [Fips197.mixColumns, ← hcolumn]
  fin_cases c <;> fin_cases r <;> rfl

/-! ## The key schedule -/

local instance neZeroOctets : NeZero 4 := ⟨four_ne_zero⟩

def wordOctets (w : Word) : Bytes := [w 0, w 1, w 2, w 3]

/-- The octets of the first words of the schedule. -/
def scheduled (key : Bytes) (n : ℕ) : Bytes :=
  (List.range n).flatMap fun i => wordOctets (keyWord key i)

@[simp] theorem scheduled_length (key : Bytes) (n : ℕ) : (scheduled key n).length = 4 * n := by
  simp [scheduled, wordOctets, Nat.mul_comm]

theorem scheduled_succ (key : Bytes) (n : ℕ) :
    scheduled key (n + 1) = scheduled key n ++ wordOctets (keyWord key n) := by
  rw [scheduled, List.range_succ, List.flatMap_append, List.flatMap_singleton, scheduled]

/-- Behind the words before it comes the word at a place. -/
theorem scheduled_drop (key : Bytes) (i k : ℕ) :
    (scheduled key (i + (k + 1))).drop (4 * i) = wordOctets (keyWord key i) ++
      (List.range' (i + 1) k).flatMap fun i => wordOctets (keyWord key i) := by
  have hsplit : scheduled key (i + (k + 1)) = scheduled key i ++
      (List.range' i (k + 1)).flatMap fun i => wordOctets (keyWord key i) := by
    rw [scheduled, List.range_eq_range', ← List.range'_append_1, List.flatMap_append, Nat.zero_add,
      ← List.range_eq_range', scheduled]
  rw [hsplit, List.drop_left' (by simp), List.range'_succ, List.flatMap_cons]

theorem scheduled_word (key : Bytes) (h : i < n) :
    ((scheduled key n).drop (4 * i)).take 4 = wordOctets (keyWord key i) := by
  obtain ⟨k, rfl⟩ := Nat.exists_eq_add_of_lt h
  rw [Nat.add_assoc, scheduled_drop, List.take_left' (by rfl)]

theorem scheduled_getD (key : Bytes) (h : i < n) (j : Fin 4) :
    (scheduled key n).getD (4 * i + j) 0 = keyWord key i j := by
  have hword := scheduled_word key h
  have hget := congrArg (·.getD j 0) hword
  simp only [List.getD_eq_getElem?_getD, List.getElem?_take, List.getElem?_drop, if_pos j.isLt]
    at hget ⊢
  rw [hget]
  fin_cases j <;> rfl

/-- The first four words are the key. -/
theorem scheduled_four (hkey : key.length = 16) : scheduled key 4 = key := by
  have hword (i : ℕ) (hi : i < 4) : keyWord key i = fun j : Fin 4 => key.getD (4 * i + j) 0 := by
    rw [keyWord, if_pos hi]
  match key, hkey with
  | [_, _, _, _, _, _, _, _, _, _, _, _, _, _, _, _], _ =>
    simp only [scheduled, List.range_succ, List.range_zero, List.nil_append, List.cons_append,
      List.flatMap_cons, List.flatMap_nil]
    rw [hword 0 (by norm_num), hword 1 (by norm_num), hword 2 (by norm_num), hword 3 (by norm_num)]
    rfl

/-- **The loop of `Aes128Initialize`** adds the words of the schedule. -/
theorem aes128Expand_eq (key : Bytes) (turns : ℕ) (hn : 4 ≤ n) (hmax : n + turns ≤ 44) :
    aes128Expand turns (scheduled key n) ((n - 1) / 4) = scheduled key (n + turns) := by
  induction turns generalizing n with
  | zero => rfl
  | succ turns ih =>
    have hlast : (scheduled key n).drop (4 * n - 4) = wordOctets (keyWord key (n - 1)) := by
      have hdrop := scheduled_drop key (n - 1) 0
      rw [show n - 1 + (0 + 1) = n by omega, show 4 * (n - 1) = 4 * n - 4 by omega] at hdrop
      simpa using hdrop
    have hback : ((scheduled key n).drop (4 * n - 16)).take 4 = wordOctets (keyWord key (n - 4)) := by
      have htake := scheduled_word key (i := n - 4) (n := n) (by omega)
      rwa [show 4 * (n - 4) = 4 * n - 16 by omega] at htake
    have hguard : 4 * n % 16 = 0 ↔ n % 4 = 0 := by omega
    have hword : keyWord key n = if n % 4 = 0 then fun j => keyWord key (n - 4) j ^^^
        (Fips197.subWord (Fips197.rotWord (keyWord key (n - 1))) j ^^^ Fips197.rcon (n / 4) j)
        else fun j => keyWord key (n - 4) j ^^^ keyWord key (n - 1) j := by
      conv_lhs => rw [keyWord, if_neg (by omega)]
      split_ifs <;> rfl
    have hnext := ih (n := n + 1) (by omega) (by omega)
    rw [show n + 1 + turns = n + (turns + 1) by omega, scheduled_succ, hword,
      Nat.add_sub_cancel] at hnext
    rw [aes128Expand, scheduled_length, hlast, aes128KeyLength, hback, ← hnext]
    simp only [hguard]
    split_ifs with h
    · have hindex : (n - 1) / 4 + 1 = n / 4 := by omega
      rw [hindex]
      congr 2
      rw [aes_tables.2 _ (by omega), aesSubstitute_eq, show (n - 1) / 4 = n / 4 - 1 by omega]
      simp [wordOctets, Fips197.subWord, Fips197.rotWord, Fips197.rcon]
    · have hindex : (n - 1) / 4 = n / 4 := by omega
      rw [hindex]
      rfl

theorem aes128Initialize_eq (hkey : key.length = 16) :
    aes128Initialize key = .ok (scheduled key 44) := by
  have hexpand := aes128Expand_eq key 40 (le_refl 4) (by norm_num)
  rw [scheduled_four hkey] at hexpand
  rw [aes128Initialize, if_neg (by simp [hkey, aes128KeyLength])]
  exact congrArg _ hexpand

/-! ## The cipher -/

/-- The octets of a round key are added. -/
theorem stateOf_addRoundKey (ht : t.length = 16) (key : Bytes) {round : ℕ} (hround : round ≤ 10) :
    (aesAddRoundKey t ((scheduled key 44).drop (round * 16))).length = 16 ∧
      stateOf (aesAddRoundKey t ((scheduled key 44).drop (round * 16))) =
        Fips197.addRoundKey (stateOf t) (Fips197.roundKey key round) := by
  have hlen : (aesAddRoundKey t ((scheduled key 44).drop (round * 16))).length = 16 := by
    rw [aesAddRoundKey, List.length_zipWith, List.length_drop, scheduled_length]
    omega
  refine ⟨hlen, ?_⟩
  funext r c
  have hword := scheduled_getD key (i := 4 * round + c) (n := 44) (by omega) r
  rw [show 4 * (4 * round + (c : ℕ)) + r = round * 16 + (r + 4 * c) by ring] at hword
  have hi : (r : ℕ) + 4 * c < t.length := by omega
  have hk : round * 16 + ((r : ℕ) + 4 * c) < (scheduled key 44).length := by
    rw [scheduled_length]
    omega
  rw [Fips197.addRoundKey, Fips197.roundKey, ← hword]
  simp only [stateOf, aesAddRoundKey, List.getD_eq_getElem?_getD, List.getElem?_zipWith,
    List.getElem?_drop]
  rw [List.getElem?_eq_getElem hi, List.getElem?_eq_getElem hk]
  rfl

theorem stateOf_rounds (key : Bytes) {rounds : List ℕ} (hrounds : ∀ n ∈ rounds, n ≤ 10)
    (ht : t.length = 16) :
    (rounds.foldl (aes128Round (scheduled key 44)) t).length = 16 ∧
      stateOf (rounds.foldl (aes128Round (scheduled key 44)) t) =
        rounds.foldl (Fips197.round key) (stateOf t) := by
  induction rounds generalizing t with
  | nil => exact ⟨ht, rfl⟩
  | cons n rounds ih =>
    have hmixed : (aesMixColumns (aesShiftRows (aesSubBytes t))).length = 16 := rfl
    obtain ⟨hlen, hround⟩ := stateOf_addRoundKey hmixed key (hrounds n (by simp))
    obtain ⟨hlen', hrest⟩ := ih (fun m hm => hrounds m (by simp [hm])) hlen
    refine ⟨hlen', hrest.trans ?_⟩
    rw [List.foldl_cons, hround, stateOf_mixColumns, stateOf_shiftRows (by simpa using ht),
      stateOf_subBytes ht, Fips197.round]

/-- **`Aes128EncryptBlock` under the round keys of a key is the cipher.** -/
theorem aes128EncryptBlock_eq (key : Bytes) {input : Bytes} (hinput : input.length = 16) :
    aes128EncryptBlock (scheduled key 44) input = Fips197.cipher key input := by
  obtain ⟨hfirst, hstart⟩ := stateOf_addRoundKey hinput key (Nat.zero_le 10)
  have hnine : ∀ n ∈ List.range' 1 9, n ≤ 10 := by decide
  obtain ⟨hmiddle, hrounds⟩ := stateOf_rounds key hnine hfirst
  have hshifted : (aesShiftRows (aesSubBytes ((List.range' 1 9).foldl
      (aes128Round (scheduled key 44)) (aesAddRoundKey input
        ((scheduled key 44).drop (0 * 16)))))).length = 16 := by
    rw [aesShiftRows_length, aesSubBytes_length, hmiddle]
  obtain ⟨hlast, hend⟩ := stateOf_addRoundKey hshifted key (le_refl 10)
  have hcipher := congrArg octetsOf hend
  rw [octetsOf_stateOf hlast, stateOf_shiftRows (by rw [aesSubBytes_length, hmiddle]),
    stateOf_subBytes hmiddle, hrounds, hstart] at hcipher
  exact hcipher

/-- The example of the standard (appendix C.1). -/
example : Fips197.cipher [0, 1, 2, 3, 4, 5, 6, 7, 8, 9, 10, 11, 12, 13, 14, 15]
    [0x00, 0x11, 0x22, 0x33, 0x44, 0x55, 0x66, 0x77, 0x88, 0x99, 0xaa, 0xbb, 0xcc, 0xdd, 0xee, 0xff] =
    [0x69, 0xc4, 0xe0, 0xd8, 0x6a, 0x7b, 0x04, 0x30, 0xd8, 0xcd, 0xb7, 0x80, 0x70, 0xb4, 0xc5, 0x5a] := by
  have hkeys := aes128Expand_eq [0, 1, 2, 3, 4, 5, 6, 7, 8, 9, 10, 11, 12, 13, 14, 15] 40 (le_refl 4)
    (by norm_num)
  rw [scheduled_four (by decide)] at hkeys
  rw [← aes128EncryptBlock_eq _ (by decide), ← hkeys]
  decide +kernel

theorem cipher_length (key input : Bytes) : (Fips197.cipher key input).length = 16 := rfl

end KernelHttp.Crypto
