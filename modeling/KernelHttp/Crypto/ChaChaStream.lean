/-
  The key stream of `ChaCha20Xor` (`crypto/Aead.cpp`).

  The list of sixteen words that the source works on is read as the state of the standard
  (`stateOf`), and each of its steps is the step there.
-/
import KernelHttp.Crypto.PolyArithmetic

namespace KernelHttp.Crypto

open BigEndian

def stateOf (w : List UInt32) : Rfc8439.State := fun i => (w.getD i 0).toBitVec

variable {w : List UInt32}

theorem stateOf_set (hw : w.length = 16) (i : Fin 16) (v : UInt32) :
    stateOf (w.set i v) = Function.update (stateOf w) i v.toBitVec := by
  funext k
  have hi : i.val < w.length := by omega
  rcases eq_or_ne k i with rfl | hk
  · rw [Function.update_self, stateOf, List.getD_eq_getElem?_getD, List.getElem?_set_self hi]
    rfl
  · rw [Function.update_of_ne hk, stateOf, stateOf, List.getD_eq_getElem?_getD,
      List.getD_eq_getElem?_getD, List.getElem?_set_ne (fun h => hk (Fin.ext h.symm))]

@[simp] theorem quarterRound_length (w : List UInt32) (i j k l : ℕ) :
    (quarterRound w i j k l).length = w.length := by
  simp [quarterRound]

theorem quarterRound_spec (hw : w.length = 16) (i j k l : Fin 16) :
    stateOf (quarterRound w i j k l) = Rfc8439.quarterRound i j k l (stateOf w) := by
  unfold quarterRound
  rw [stateOf_set (by simpa using hw), stateOf_set (by simpa using hw),
    stateOf_set (by simpa using hw), stateOf_set hw]
  rfl

@[simp] theorem chaCha20Rounds_length (w : List UInt32) : (chaCha20Rounds w).length = w.length := by
  simp [chaCha20Rounds]

theorem chaCha20Rounds_spec (hw : w.length = 16) :
    stateOf (chaCha20Rounds w) = Rfc8439.innerBlock (stateOf w) := by
  have hcolumn₀ := quarterRound_spec hw 0 4 8 12
  have hcolumn₁ := quarterRound_spec (w := quarterRound w 0 4 8 12) (by simpa) 1 5 9 13
  have hcolumn₂ := quarterRound_spec (w := quarterRound (quarterRound w 0 4 8 12) 1 5 9 13)
    (by simpa) 2 6 10 14
  have hcolumn₃ := quarterRound_spec (w := quarterRound (quarterRound (quarterRound w 0 4 8 12)
    1 5 9 13) 2 6 10 14) (by simpa) 3 7 11 15
  obtain ⟨columns, hcolumns⟩ : ∃ columns, columns = quarterRound (quarterRound (quarterRound
    (quarterRound w 0 4 8 12) 1 5 9 13) 2 6 10 14) 3 7 11 15 := ⟨_, rfl⟩
  have hlen : columns.length = 16 := by simpa [hcolumns] using hw
  have hstate : stateOf columns = (stateOf w |> Rfc8439.quarterRound 0 4 8 12 |>
      Rfc8439.quarterRound 1 5 9 13 |> Rfc8439.quarterRound 2 6 10 14 |>
      Rfc8439.quarterRound 3 7 11 15) := by
    rw [← hcolumn₀]
    refine Eq.trans ?_ (congrArg _ (congrArg _ hcolumn₁))
    refine Eq.trans ?_ (congrArg _ hcolumn₂)
    rw [hcolumns]
    exact hcolumn₃
  have hdiagonal₀ := quarterRound_spec hlen 0 5 10 15
  have hdiagonal₁ := quarterRound_spec (w := quarterRound columns 0 5 10 15) (by simpa) 1 6 11 12
  have hdiagonal₂ := quarterRound_spec (w := quarterRound (quarterRound columns 0 5 10 15)
    1 6 11 12) (by simpa) 2 7 8 13
  have hdiagonal₃ := quarterRound_spec (w := quarterRound (quarterRound (quarterRound columns
    0 5 10 15) 1 6 11 12) 2 7 8 13) (by simpa) 3 4 9 14
  rw [Rfc8439.innerBlock, ← hstate, ← hdiagonal₀]
  refine Eq.trans ?_ (congrArg _ (congrArg _ hdiagonal₁))
  refine Eq.trans ?_ (congrArg _ hdiagonal₂)
  rw [chaCha20Rounds, ← hcolumns]
  exact hdiagonal₃

theorem serialize_stateOf (hw : w.length = 16) :
    w.flatMap writeLittleEndian32 = Rfc8439.serialize (stateOf w) := by
  have hword (v : UInt32) : writeLittleEndian32 v = (bigEndian 4 v.toBitVec.toNat).reverse := by
    have hflat := flatMap_bytesOfLimb [v]
    simp only [List.flatMap_cons, List.flatMap_nil, List.append_nil, limbsValue_cons,
      limbsValue_nil, Nat.mul_zero, Nat.add_zero] at hflat
    exact hflat
  have hlist : w = (List.finRange 16).map fun i : Fin 16 => w.getD i.val 0 := by
    apply List.ext_getElem
    · simpa using hw
    · intro i h₁ h₂
      simp [List.getD_eq_getElem?_getD, h₁]
  rw [hlist, List.flatMap_map, Rfc8439.serialize, ← hlist]
  exact List.flatMap_congr fun i _ => hword _

theorem stateOf_zipWith {x y : List UInt32} (hx : x.length = 16) (hy : y.length = 16) :
    stateOf (List.zipWith (· + ·) x y) = stateOf x + stateOf y := by
  funext i
  have hxi : i.val < x.length := by omega
  have hyi : i.val < y.length := by omega
  simp [stateOf, List.getD_eq_getElem?_getD, hxi, hyi]

theorem readLittleEndian32_toBitVec (t : Bytes) (i : ℕ) :
    (readLittleEndian32 (t.drop (4 * i))).toBitVec = Rfc8439.word t i := by
  apply BitVec.eq_of_toNat_eq
  rw [Rfc8439.word, BitVec.toNat_ofNat, decodeLittleEndian_take, UInt32.toNat_toBitVec,
    readLittleEndian32_spec]
  norm_num

theorem chaCha20State_spec (key nonce : Bytes) (counter : ℕ) :
    stateOf (chaCha20State key (UInt32.ofNat counter) nonce) =
      Rfc8439.initialState key counter nonce := by
  funext i
  fin_cases i
  · rfl
  · rfl
  · rfl
  · rfl
  · exact readLittleEndian32_toBitVec key 0
  · exact readLittleEndian32_toBitVec key 1
  · exact readLittleEndian32_toBitVec key 2
  · exact readLittleEndian32_toBitVec key 3
  · exact readLittleEndian32_toBitVec key 4
  · exact readLittleEndian32_toBitVec key 5
  · exact readLittleEndian32_toBitVec key 6
  · exact readLittleEndian32_toBitVec key 7
  · rfl
  · exact readLittleEndian32_toBitVec nonce 0
  · exact readLittleEndian32_toBitVec nonce 1
  · exact readLittleEndian32_toBitVec nonce 2

theorem chaCha20Rounds_iterate (hw : w.length = 16) (n : ℕ) :
    (chaCha20Rounds^[n] w).length = 16 ∧
      stateOf (chaCha20Rounds^[n] w) = Rfc8439.innerBlock^[n] (stateOf w) := by
  induction n with
  | zero => exact ⟨hw, rfl⟩
  | succ n ih =>
    rw [Function.iterate_succ_apply', Function.iterate_succ_apply', chaCha20Rounds_length,
      chaCha20Rounds_spec ih.1, ih.2]
    exact ⟨ih.1, rfl⟩

/-- **A block of the key stream** is that of the standard. -/
theorem chaCha20Block_eq (key nonce : Bytes) (counter : ℕ) :
    chaCha20Block key (UInt32.ofNat counter) nonce = Rfc8439.block key counter nonce := by
  have hlen : (chaCha20State key (UInt32.ofNat counter) nonce).length = 16 := rfl
  obtain ⟨hrounds, hstate⟩ := chaCha20Rounds_iterate hlen 10
  have hsum : (List.zipWith (· + ·) (chaCha20Rounds^[10] (chaCha20State key (UInt32.ofNat counter)
      nonce)) (chaCha20State key (UInt32.ofNat counter) nonce)).length = 16 := by
    rw [List.length_zipWith, hrounds, hlen, Nat.min_self]
  simp only [chaCha20Block, Rfc8439.block]
  rw [serialize_stateOf hsum, stateOf_zipWith hrounds hlen, hstate, chaCha20State_spec]

theorem block_length (key nonce : Bytes) (counter : ℕ) :
    (Rfc8439.block key counter nonce).length = 64 := by
  rw [Rfc8439.block, Rfc8439.serialize, List.length_flatMap]
  simp

theorem zipWith_append_right (f : UInt8 → UInt8 → UInt8) (text x y : Bytes) :
    List.zipWith f text (x ++ y) =
      List.zipWith f (text.take x.length) x ++ List.zipWith f (text.drop x.length) y := by
  induction x generalizing text with
  | nil => simp
  | cons c x ih =>
    cases text with
    | nil => simp
    | cons d text => simp [ih]

theorem zipWith_take_right (f : UInt8 → UInt8 → UInt8) (text x : Bytes) :
    List.zipWith f text (x.take text.length) = List.zipWith f text x := by
  induction text generalizing x with
  | nil => simp
  | cons c text ih =>
    cases x with
    | nil => simp
    | cons d x => simp [ih]

/-- A text is combined with the first block of a stream, then with the others. -/
theorem zipWith_flatMap_succ (f : UInt8 → UInt8 → UInt8) (stream : ℕ → Bytes) {n : ℕ}
    (hlen : (stream 0).length = n) (text : Bytes) (m : ℕ) :
    List.zipWith f text ((List.range (m + 1)).flatMap stream) =
      List.zipWith f (text.take n) (stream 0) ++
        List.zipWith f (text.drop n) ((List.range m).flatMap fun i => stream (i + 1)) := by
  rw [List.range_succ_eq_map, List.flatMap_cons, List.flatMap_map, zipWith_append_right, hlen]

theorem chaCha20XorLoop_eq (key nonce input : Bytes) (counter m : ℕ) (hm : input.length ≤ 64 * m) :
    chaCha20XorLoop key (UInt32.ofNat counter) nonce input = List.zipWith (· ^^^ ·) input
      ((List.range m).flatMap fun j => Rfc8439.block key (counter + j) nonce) := by
  induction m generalizing counter input with
  | zero =>
    obtain rfl : input = [] := List.length_eq_zero_iff.1 (by omega)
    rw [chaCha20XorLoop, if_neg (by simp), List.zipWith_nil_left]
  | succ m ih =>
    rcases Nat.eq_zero_or_pos input.length with hempty | hpos
    · obtain rfl : input = [] := List.length_eq_zero_iff.1 hempty
      rw [chaCha20XorLoop, if_neg (by simp), List.zipWith_nil_left]
    · have hnext : UInt32.ofNat counter + 1 = UInt32.ofNat (counter + 1) := by
        rw [UInt32.ofNat_add]
        rfl
      have hrest : (input.drop 64).length ≤ 64 * m := by
        rw [List.length_drop]
        omega
      rw [chaCha20XorLoop, if_pos hpos, hnext, chaChaBlockLength, ih _ _ hrest, chaCha20Block_eq,
        zipWith_flatMap_succ _ _ (block_length key nonce (counter + 0))]
      simp only [Nat.add_assoc, Nat.add_comm 1, Nat.add_zero]

/-- **`ChaCha20Xor` is the cipher**, from any counter. -/
theorem chaCha20XorLoop_encrypt (key nonce input : Bytes) (counter : ℕ) :
    chaCha20XorLoop key (UInt32.ofNat counter) nonce input =
      Rfc8439.encrypt key counter nonce input := by
  have hm : input.length ≤ 64 * (input.length / 64 + 1) := by omega
  rw [Rfc8439.encrypt, Rfc8439.keyStream, zipWith_take_right, chaCha20XorLoop_eq key nonce input
    counter _ hm]

end KernelHttp.Crypto
