/-
  `HpackDecoder::Decode` against the reference decoder
  of RFC 7541.
-/
import KernelHttp.Hpack.Atomicity
import KernelHttp.Hpack.Reference

namespace KernelHttp

open Fifo PrefixCode

/-! ## Integers -/

theorem increment_lt {k chunk : ℕ} (hk : k ≤ 4) (hc : chunk < 128)
    (h : ¬ (7 * k ≥ 32 ∨ (7 * k ≥ 28 ∧ chunk > 0x0f))) : chunk * 2 ^ (7 * k) < 2 ^ 32 := by
  rcases Nat.lt_or_ge k 4 with h4 | h4
  · have hpow : 2 ^ (7 * k) ≤ 2 ^ 21 := Nat.pow_le_pow_right (by norm_num) (by omega)
    calc chunk * 2 ^ (7 * k) ≤ 127 * 2 ^ 21 := Nat.mul_le_mul (by omega) hpow
      _ < 2 ^ 32 := by norm_num
  · obtain rfl : k = 4 := by omega
    norm_num at h ⊢
    omega

theorem decodeIntegerLoop_sound : ∀ (src : Bytes) {result k consumed v c : ℕ}, k ≤ 5 →
    decodeIntegerLoop src result (7 * k) k consumed = .ok (v, c) →
    ∃ bs rest w, src = bs ++ rest ∧ Continuation bs w ∧ k + bs.length ≤ 5 ∧
      v = result + w * 2 ^ (7 * k) ∧ v < 2 ^ 32 ∧ c = consumed + bs.length
  | [], result, k, consumed, v, c, _, h => by simp [decodeIntegerLoop] at h
  | b :: src, result, k, consumed, v, c, hk, h => by
    unfold decodeIntegerLoop at h
    simp only at h
    split_ifs at h with h5 hover hbig hlast
    · simp only [Except.ok.injEq, Prod.mk.injEq] at h
      obtain ⟨rfl, rfl⟩ := h
      have hmod : b.toNat % 128 = b.toNat := Nat.mod_eq_of_lt hlast
      rw [hmod] at hbig hover ⊢
      have hinc := increment_lt (show k ≤ 4 by omega) hlast hover
      exact ⟨[b], src, b.toNat, rfl, .last hlast, by simp; omega, rfl, by omega, rfl⟩
    · rw [show 7 * k + 7 = 7 * (k + 1) by ring] at h
      obtain ⟨bs, rest, w, rfl, hbs, hlen, rfl, hlt, rfl⟩ :=
        decodeIntegerLoop_sound src (by omega) h
      refine ⟨b :: bs, rest, _, rfl, .more (by omega) hbs, by simp; omega, ?_, hlt, ?_⟩
      · rw [show 7 * (k + 1) = 7 + 7 * k by ring, pow_add]
        ring
      · simp only [List.length_cons]; omega

theorem decodeIntegerLoop_complete {bs : Bytes} {w : ℕ} (hbs : Continuation bs w) :
    ∀ {rest : Bytes} {result k consumed : ℕ}, k + bs.length ≤ 5 →
    result + w * 2 ^ (7 * k) < 2 ^ 32 →
    decodeIntegerLoop (bs ++ rest) result (7 * k) k consumed =
      .ok (result + w * 2 ^ (7 * k), consumed + bs.length) := by
  -- the fifth group has four bits
  have hgroup : ∀ {k chunk : ℕ}, k ≤ 4 → chunk * 2 ^ (7 * k) < 2 ^ 32 →
      ¬ (7 * k ≥ 32 ∨ (7 * k ≥ 28 ∧ chunk > 0x0f)) := by
    rintro k chunk hk hlt (h32 | ⟨h28, h15⟩)
    · omega
    · obtain rfl : k = 4 := by omega
      norm_num at hlt
      omega
  induction hbs with
  | @last b hb =>
    intro rest result k consumed hlen hlt
    have hmod : b.toNat % 128 = b.toNat := Nat.mod_eq_of_lt hb
    simp only [List.length_singleton] at hlen
    rw [List.singleton_append, decodeIntegerLoop]
    simp only [hmod]
    rw [if_neg (by omega), if_neg (hgroup (by omega) (by omega)), if_neg (by omega), if_pos hb]
    rfl
  | @more b bs v hb hbs ih =>
    intro rest result k consumed hlen hlt
    simp only [List.length_cons] at hlen
    have hsplit : (b.toNat % 128 + 128 * v) * 2 ^ (7 * k) =
        b.toNat % 128 * 2 ^ (7 * k) + v * 2 ^ (7 * (k + 1)) := by
      rw [show 7 * (k + 1) = 7 + 7 * k by ring, pow_add]
      ring
    rw [hsplit] at hlt ⊢
    have hpos : 1 ≤ bs.length := by cases hbs <;> simp
    rw [List.cons_append, decodeIntegerLoop]
    simp only
    rw [if_neg (by omega), if_neg (hgroup (by omega) (by omega)), if_neg (by omega),
      if_neg (by omega), show 7 * k + 7 = 7 * (k + 1) by ring, ih (by omega) (by omega)]
    simp only [List.length_cons]
    congr 2 <;> omega

variable {add : Bool} {octets rest tl : Bytes} {l : DecodeLimits} {s s' : DecodeState}
    {f : DecodedField} {t : HpackDynamicTable} {h : HttpHeader} {rs : List Representation}
    {ref : NameRef} {r : Representation} {byte : UInt8} {n v capacity nvOffset limit : ℕ}

/-- **Integers**: `HpackDecodeInteger` reads exactly the integers of the grammar. -/
theorem decodeInteger_iff {src : Bytes} {c : ℕ} (hn : n ≠ 0) (hn' : n ≤ 8) :
    hpackDecodeInteger src n = .ok (v, c) ↔
      ∃ octets rest, src = octets ++ rest ∧ octets.length = c ∧ IsInteger n octets v := by
  have hrange : ¬ (n = 0 ∨ n > 8) := by omega
  constructor
  · intro h
    unfold hpackDecodeInteger at h
    rw [if_neg hrange] at h
    cases src with
    | nil => simp at h
    | cons b src =>
      simp only at h
      split_ifs at h with hlt
      · simp only [Except.ok.injEq, Prod.mk.injEq] at h
        obtain ⟨rfl, rfl⟩ := h
        exact ⟨[b], src, rfl, rfl, .short hlt⟩
      · have hmax : b.toNat % 2 ^ n = 2 ^ n - 1 := by
          have := Nat.mod_lt b.toNat (Nat.two_pow_pos n)
          omega
        have hloop := decodeIntegerLoop_sound src (k := 0) (Nat.zero_le _) h
        obtain ⟨bs, rest, w, rfl, hbs, hlen, rfl, hv, rfl⟩ := hloop
        rw [hmax, Nat.mul_zero, pow_zero, Nat.mul_one] at hv ⊢
        exact ⟨b :: bs, rest, rfl, by simp; omega, .long hmax hbs (by omega) hv⟩
  · rintro ⟨octets, rest, rfl, rfl, h⟩
    unfold hpackDecodeInteger
    rw [if_neg hrange]
    cases h with
    | short hb => simp [hb]
    | @long b bs w hb hbs hlen hlt =>
      have hloop : decodeIntegerLoop (bs ++ rest) (2 ^ n - 1) (7 * 0) 0 1 =
          .ok (2 ^ n - 1 + w * 2 ^ (7 * 0), 1 + bs.length) :=
        decodeIntegerLoop_complete hbs (by omega) (by simpa using hlt)
      simp only [Nat.mul_zero, pow_zero, Nat.mul_one] at hloop
      rw [List.cons_append]
      simp only [hb, lt_irrefl, if_false, hloop, List.length_cons]
      rw [Nat.add_comm 1]

theorem IsInteger.ne_nil (h : IsInteger n octets v) : octets ≠ [] := by
  cases h <;> simp

theorem firstBits_append (h : octets ≠ []) (rest : Bytes) :
    firstBits n (octets ++ rest) = firstBits n octets := by
  cases octets with
  | nil => exact absurd rfl h
  | cons b octets => rfl

/-! ## Strings -/

theorem decodeString_sound {s rest' : Bytes} {nvOffset' : ℕ}
    (h : decodeString rest nvOffset capacity = .ok (s, rest', nvOffset')) :
    ∃ octets, rest = octets ++ rest' ∧ IsString octets s := by
  unfold decodeString at h
  cases rest with
  | nil => simp at h
  | cons byte tl =>
    simp only at h
    cases hint : hpackDecodeInteger (byte :: tl) 7 with
    | error status => simp [hint, bind, Except.bind] at h
    | ok r =>
      obtain ⟨strLen, consumed⟩ := r
      obtain ⟨len, after, hsplit, rfl, hlen⟩ :=
        (decodeInteger_iff (by norm_num) (by norm_num)).1 hint
      have hbits : firstBits 7 len = byte.toNat / 2 ^ 7 := by
        rw [← firstBits_append hlen.ne_nil after, ← hsplit]
        rfl
      have hbyte : byte.toNat < 256 := byte.toNat_lt
      rw [hsplit] at hint
      simp only [hsplit, hint, bind, Except.bind, List.drop_left] at h
      split_ifs at h with hle hflag hroom hroom
      · cases hdec : hpackHuffmanDecode (after.take strLen) (capacity - nvOffset) with
        | error status => simp [hdec] at h
        | ok d =>
          simp only [hdec, pure, Except.pure, Except.ok.injEq, Prod.mk.injEq] at h
          obtain ⟨rfl, rfl, rfl⟩ := h
          have hoctets : (after.take strLen).length = strLen := by
            rw [List.length_take]; omega
          refine ⟨len ++ after.take strLen, ?_, .huffman ?_ ?_ (bits_of_decode hdec).2⟩
          · rw [hsplit, List.append_assoc, List.take_append_drop]
          · rw [hoctets]; exact hlen
          · rw [hbits]; omega
      · simp only [pure, Except.pure, Except.ok.injEq, Prod.mk.injEq] at h
        obtain ⟨rfl, rfl, rfl⟩ := h
        have hoctets : (after.take strLen).length = strLen := by
          rw [List.length_take]; omega
        refine ⟨len ++ after.take strLen, ?_, .plain ?_ ?_⟩
        · rw [hsplit, List.append_assoc, List.take_append_drop]
        · rw [hoctets]; exact hlen
        · rw [hbits]; omega

theorem IsString.length_le {s : Bytes} (h : IsString octets s) :
    s.length ≤ 2 * octets.length := by
  cases h with
  | plain => simp only [List.length_append]; omega
  | @huffman len octets _ _ _ hs =>
    obtain ⟨k, hk, hbits⟩ := hs
    have := length_le_huffmanOctets s
    rw [← eq_huffmanOctets hk hbits] at this
    simp only [List.length_append]; omega

theorem decodeString_complete {s : Bytes} (h : IsString octets s) (rest : Bytes)
    (hc : nvOffset + 2 * octets.length ≤ capacity) :
    decodeString (octets ++ rest) nvOffset capacity = .ok (s, rest, nvOffset + s.length) := by
  -- the length, and the octets behind it
  have hread : ∀ {len body : Bytes}, IsInteger 7 len body.length →
      hpackDecodeInteger (len ++ (body ++ rest)) 7 = .ok (body.length, len.length) :=
    fun hlen => (decodeInteger_iff (by norm_num) (by norm_num)).2 ⟨_, _, rfl, rfl, hlen⟩
  cases h with
  | @plain len s hlen hflag =>
    have hint := hread hlen
    obtain ⟨byte, tl, rfl⟩ := List.exists_cons_of_ne_nil hlen.ne_nil
    have hfits : rangeFits nvOffset s.length capacity = true := by
      simp only [List.length_append] at hc
      simp only [rangeFits, Bool.and_eq_true, decide_eq_true_eq]; omega
    have hbyte : ¬ byte.toNat ≥ 128 := by
      simp only [firstBits, List.headD_cons] at hflag
      omega
    have hdrop : ((byte :: tl) ++ (s ++ rest)).drop (byte :: tl).length = s ++ rest :=
      List.drop_left
    rw [List.append_assoc]
    unfold decodeString
    rw [List.cons_append] at hint hdrop ⊢
    simp only [hint, bind, Except.bind, hdrop, hbyte, if_false, hfits, List.take_left,
      List.drop_left]
    simp [pure, Except.pure]
  | @huffman len octets s hlen hflag hs =>
    have hint := hread hlen
    obtain ⟨byte, tl, rfl⟩ := List.exists_cons_of_ne_nil hlen.ne_nil
    obtain ⟨k, hk, hbits⟩ := hs
    have hle := length_le_huffmanOctets s
    rw [← eq_huffmanOctets hk hbits] at hle
    simp only [List.length_append] at hc
    have hdec : hpackHuffmanDecode octets (capacity - nvOffset) = .ok s :=
      hpackHuffmanDecode_eq_ok_iff.2 ⟨eq_huffmanOctets hk hbits, by omega⟩
    have hfits : rangeFits nvOffset (octets.length * 2) capacity = true := by
      simp only [rangeFits, Bool.and_eq_true, decide_eq_true_eq]; omega
    have hbyte : byte.toNat ≥ 128 := by
      simp only [firstBits, List.headD_cons] at hflag
      omega
    have hdrop : ((byte :: tl) ++ (octets ++ rest)).drop (byte :: tl).length = octets ++ rest :=
      List.drop_left
    rw [List.append_assoc]
    unfold decodeString
    rw [List.cons_append] at hint hdrop ⊢
    simp only [hint, bind, Except.bind, hdrop, hbyte, if_true, hfits, List.take_left,
      List.drop_left, hdec]
    simp [pure, Except.pure]

/-! ## Field representations -/

/-- An index that is not 0 names the entry of the reference decoder. -/
theorem lookupIndex_iff (table : HpackDynamicTable) {i : ℕ} (hi : 0 < i) :
    lookupIndex table i = .ok h ↔ entryOf table.queue i = some h := by
  unfold lookupIndex entryOf
  rw [if_neg (show ¬ i = 0 by omega)]
  have hlen := hpackStaticTable_length
  rcases Nat.lt_or_ge hpackStaticTableSize i with hlt | hle
  · rw [if_neg (by omega), List.getElem?_append_right (by omega), hlen,
      show i - 1 - hpackStaticTableSize = i - hpackStaticTableSize - 1 by omega,
      HpackDynamicTable.lookup_eq]
    change _ ↔ table.headers[i - hpackStaticTableSize - 1]? = some h
    cases table.headers[i - hpackStaticTableSize - 1]? with
    | none => simp
    | some e => simp
  · have hget : i - 1 < hpackStaticTable.length := by omega
    rw [if_pos hle, List.getElem?_append_left hget, List.getElem?_eq_getElem hget, Option.getD_some,
      Except.ok.injEq, Option.some.injEq]

theorem decodeIndexed_sound {table : HpackDynamicTable}
    (h : decodeIndexed table rest nvOffset = .ok f) :
    ∃ octets i, rest = octets ++ f.rest ∧ IsInteger 7 octets i ∧
      entryOf table.queue i = some ⟨f.name, f.value⟩ ∧ f.addToTable = false := by
  unfold decodeIndexed at h
  cases hint : hpackDecodeInteger rest 7 with
  | error status => simp [hint, bind, Except.bind] at h
  | ok r =>
    obtain ⟨i, consumed⟩ := r
    obtain ⟨octets, after, rfl, rfl, hi⟩ := (decodeInteger_iff (by norm_num) (by norm_num)).1 hint
    simp only [hint, bind, Except.bind, List.drop_left] at h
    split_ifs at h with h0
    cases hl : lookupIndex table i with
    | error status => simp [hl] at h
    | ok e =>
      simp only [hl, pure, Except.pure, Except.ok.injEq] at h
      subst h
      exact ⟨octets, i, rfl, hi, (lookupIndex_iff table (by omega)).1 hl, rfl⟩

theorem decodeLiteral_sound {table : HpackDynamicTable} (hn : n ≠ 0) (hn' : n ≤ 8)
    (h : decodeLiteral table rest nvOffset capacity n add = .ok f) :
    ∃ name octets ref, rest = name ++ octets ++ f.rest ∧ name ≠ [] ∧ IsName n name ref ∧
      IsString octets f.value ∧
      (Representation.literal ref f.value add).field table.queue = some ⟨f.name, f.value⟩ ∧
      f.addToTable = add := by
  unfold decodeLiteral at h
  cases hint : hpackDecodeInteger rest n with
  | error status => simp [hint, bind, Except.bind] at h
  | ok r =>
    obtain ⟨i, consumed⟩ := r
    obtain ⟨index, after, rfl, rfl, hi⟩ := (decodeInteger_iff hn hn').1 hint
    simp only [hint, bind, Except.bind, List.drop_left] at h
    split_ifs at h with hpos
    · cases hl : lookupIndex table i with
      | error status => simp [hl] at h
      | ok e =>
        cases hv : decodeString after nvOffset capacity with
        | error status => simp [hl, hv] at h
        | ok r =>
          obtain ⟨value, rest', nvOffset'⟩ := r
          obtain ⟨octets, rfl, hs⟩ := decodeString_sound hv
          simp only [hl, hv, pure, Except.pure, Except.ok.injEq] at h
          subst h
          have he := (lookupIndex_iff table hpos).1 hl
          exact ⟨index, octets, .index i, (List.append_assoc _ _ _).symm, hi.ne_nil,
            .index hi hpos, hs, by simp [Representation.field, he], rfl⟩
    · obtain rfl : i = 0 := by omega
      cases hname : decodeString after nvOffset capacity with
      | error status => simp [hname] at h
      | ok r =>
        obtain ⟨name, rest', nvOffset'⟩ := r
        obtain ⟨octets, rfl, hs⟩ := decodeString_sound hname
        cases hv : decodeString rest' nvOffset' capacity with
        | error status => simp [hname, hv] at h
        | ok r =>
          obtain ⟨value, rest'', nvOffset''⟩ := r
          obtain ⟨octets', rfl, hs'⟩ := decodeString_sound hv
          simp only [hname, hv, pure, Except.pure, Except.ok.injEq] at h
          subst h
          refine ⟨index ++ octets, octets', .literal name, by simp, ?_, .literal hi hs, hs', rfl,
            rfl⟩
          have := hi.ne_nil
          simp [this]

/-- **What was read is a field representation**, and the field it stands for. -/
theorem decodeRepresentation_sound (hs : s.rest = byte :: tl)
    (h : decodeRepresentation l s byte.toNat = some (.ok f)) :
    ∃ octets r, octets ≠ [] ∧ s.rest = octets ++ f.rest ∧ IsField octets r ∧
      r.field s.table.queue = some ⟨f.name, f.value⟩ ∧ f.addToTable = r.isIncremental := by
  have hbyte : byte.toNat < 256 := byte.toNat_lt
  have hbits : ∀ {n : ℕ} {octets rest : Bytes}, octets ≠ [] → s.rest = octets ++ rest →
      firstBits n octets = byte.toNat / 2 ^ n := by
    intro n octets rest hne hsplit
    rw [← firstBits_append hne rest, ← hsplit, hs]
    rfl
  unfold decodeRepresentation at h
  split_ifs at h with h7 h6 h4
  · rw [Option.some.injEq] at h
    obtain ⟨octets, i, hsplit, hi, he, hadd⟩ := decodeIndexed_sound h
    have hfirst := hbits (n := 7) hi.ne_nil hsplit
    exact ⟨octets, .indexed i, hi.ne_nil, hsplit, .indexed hi (by omega), he, hadd⟩
  · rw [Option.some.injEq] at h
    obtain ⟨name, octets, ref, hsplit, hne, hname, hv, hfield, hadd⟩ :=
      decodeLiteral_sound (by norm_num) (by norm_num) h
    have hfirst := hbits (n := 6) hne (hsplit.trans (List.append_assoc _ _ _))
    exact ⟨name ++ octets, _, by simp [hne], hsplit, .incremental hname (by omega) hv, hfield, hadd⟩
  · rw [Option.some.injEq] at h
    obtain ⟨name, octets, ref, hsplit, hne, hname, hv, hfield, hadd⟩ :=
      decodeLiteral_sound (by norm_num) (by norm_num) h
    have hfirst := hbits (n := 4) hne (hsplit.trans (List.append_assoc _ _ _))
    exact ⟨name ++ octets, _, by simp [hne], hsplit, .notIndexed hname (by omega) hv, hfield, hadd⟩

theorem decodeLiteral_complete {table : HpackDynamicTable} {name value : Bytes} (hn : n ≠ 0)
    (hn' : n ≤ 8) (hname : IsName n name ref) (hv : IsString octets value)
    (hfield : (Representation.literal ref value add).field table.queue = some h)
    (hc : nvOffset + 2 * (name.length + octets.length) ≤ capacity) :
    ∃ nameFromTable nvOffset', decodeLiteral table (name ++ (octets ++ rest)) nvOffset capacity n
        add = .ok { name := h.name, value := h.value, nameFromTable := nameFromTable
                    valueFromTable := false, addToTable := add, rest := rest
                    nvOffset := nvOffset' } ∧
      nvOffset' + (if nameFromTable then h.name.length else 0) =
        nvOffset + h.name.length + h.value.length := by
  unfold decodeLiteral
  cases hname with
  | @index _ i hi hpos =>
    obtain ⟨e, he, rfl⟩ := Option.map_eq_some_iff.1 hfield
    have hint := (decodeInteger_iff hn hn').2 ⟨name, octets ++ rest, rfl, rfl, hi⟩
    have hl := (lookupIndex_iff table hpos).2 he
    have hval := decodeString_complete hv rest (show nvOffset + 2 * octets.length ≤ capacity by omega)
    refine ⟨true, nvOffset + value.length, ?_, by simp; omega⟩
    simp only [hint, bind, Except.bind, List.drop_left]
    rw [if_pos hpos]
    simp only [hl, hval, pure, Except.pure]
  | @literal zero nameOctets name hzero hs =>
    obtain rfl : (⟨name, value⟩ : HttpHeader) = h := Option.some.inj hfield
    simp only [List.length_append] at hc
    have hlen := hs.length_le
    have hint := (decodeInteger_iff hn hn').2
      ⟨zero, nameOctets ++ (octets ++ rest), rfl, rfl, hzero⟩
    have hnam := decodeString_complete hs (octets ++ rest)
      (show nvOffset + 2 * nameOctets.length ≤ capacity by omega)
    have hval := decodeString_complete hv rest
      (show nvOffset + name.length + 2 * octets.length ≤ capacity by omega)
    refine ⟨false, nvOffset + name.length + value.length, ?_, by simp⟩
    rw [List.append_assoc]
    simp only [hint, bind, Except.bind, List.drop_left]
    rw [if_neg (lt_irrefl 0)]
    simp only [hnam, hval, pure, Except.pure]

theorem IsName.ne_nil (h : IsName n octets ref) :
    octets ≠ [] := by
  cases h with
  | index hi _ => exact hi.ne_nil
  | literal hzero _ =>
    have := hzero.ne_nil
    simp [this]

/-- **A field representation of the grammar is read** as the field it stands for. -/
theorem reads_field (hf : IsField octets r) (hr : s.rest = octets ++ rest)
    (hh : r.field s.table.queue = some h)
    (hc : s.nvOffset + 2 * octets.length ≤ l.nameValueCapacity) :
    Reads l s h r.isIncremental rest := by
  -- the first octet
  have hfirst : ∀ {part more : Bytes}, part ≠ [] → s.rest = part ++ more →
      ∃ byte tl, s.rest = byte :: tl ∧ ∀ n, firstBits n part = byte.toNat / 2 ^ n := by
    intro part more hne hsplit
    obtain ⟨byte, tl, rfl⟩ := List.exists_cons_of_ne_nil hne
    exact ⟨byte, tl ++ more, hsplit, fun n => rfl⟩
  cases hf with
  | @indexed _ i hi hbits =>
    obtain ⟨byte, tl, hcons, hdiv⟩ := hfirst hi.ne_nil hr
    have hbyte : byte.toNat ≥ 128 := by
      rw [hdiv] at hbits
      omega
    have hpos : 0 < i := by
      by_contra h0
      obtain rfl : i = 0 := by omega
      simp [Representation.field, entryOf] at hh
    have hint := (decodeInteger_iff (show 7 ≠ 0 by norm_num) (by norm_num)).2
      ⟨octets, rest, rfl, rfl, hi⟩
    have hl := (lookupIndex_iff s.table hpos).2 hh
    refine ⟨byte, tl, true, true, s.nvOffset, hcons, ?_, by simp⟩
    unfold decodeRepresentation
    rw [if_pos hbyte, decodeIndexed, hr]
    simp only [hint, bind, Except.bind, List.drop_left]
    rw [if_neg (by omega)]
    simp only [hl, pure, Except.pure]
    rfl
  | @incremental octets name value ref hn hbits hv =>
    rw [List.append_assoc] at hr
    obtain ⟨byte, tl, hcons, hdiv⟩ := hfirst hn.ne_nil hr
    rw [hdiv] at hbits
    simp only [List.length_append] at hc
    obtain ⟨nt, nv, hdec, hsum⟩ :=
      decodeLiteral_complete (by norm_num) (by norm_num) hn hv hh hc
    refine ⟨byte, tl, nt, false, nv, hcons, ?_, by simpa using hsum⟩
    unfold decodeRepresentation
    rw [if_neg (by omega), if_pos (by omega), hr, hdec]
    rfl
  | @notIndexed octets name value ref hn hbits hv =>
    rw [List.append_assoc] at hr
    obtain ⟨byte, tl, hcons, hdiv⟩ := hfirst hn.ne_nil hr
    rw [hdiv] at hbits
    simp only [List.length_append] at hc
    obtain ⟨nt, nv, hdec, hsum⟩ :=
      decodeLiteral_complete (by norm_num) (by norm_num) hn hv hh hc
    refine ⟨byte, tl, nt, false, nv, hcons, ?_, by simpa using hsum⟩
    unfold decodeRepresentation
    rw [if_neg (by omega), if_neg (by omega), if_pos (by omega), hr, hdec]
    rfl

/-! ## Turns of the loop -/

/-- **What a turn can do**: it reads a table size update at the start of a block,
    or a field representation, whose field it emits. -/
inductive DecodeTurn (limit maxHeaderListSize : ℕ) (s : DecodeState) : DecodeState → Prop
  | update {octets rest : Bytes} {n : ℕ} (hsplit : s.rest = octets ++ rest)
      (hn : IsInteger 5 octets n) (hbits : firstBits 5 octets = 1) (hle : n ≤ limit)
      (hallow : s.allowTableSizeUpdate = true) :
      DecodeTurn limit maxHeaderListSize s
        { s with table := s.table.updateMaxSize n, rest := rest }
  | field {octets : Bytes} {r : Representation} {h : HttpHeader} {s' : DecodeState}
      (hne : octets ≠ []) (hsplit : s.rest = octets ++ s'.rest) (hf : IsField octets r)
      (hh : r.field s.table.queue = some h) (hwf : s'.table.Wf)
      (hqueue : s'.table.queue = r.next s.table.queue h) (hheaders : s'.headers = s.headers ++ [h])
      (hsize : s'.headerListSize = s.headerListSize + headerSize h)
      (hle : s'.headerListSize ≤ maxHeaderListSize) (hallow : s'.allowTableSizeUpdate = false) :
      DecodeTurn limit maxHeaderListSize s s'

/-- A field whose insertion succeeded. -/
theorem insert_next {t' : HpackDynamicTable} (ht : t.Wf) (hm : t.maxSize ≤ maxSizeT)
    {status : NTSTATUS}
    (hins : (if r.isIncremental then t.insert h.name h.value else (statusSuccess, t)) =
      (status, t')) (hok : ntSuccess status = true) :
    t'.Wf ∧ t'.queue = r.next t.queue h ∧ (t'.Allocated ↔ t.Allocated) := by
  unfold Representation.next
  cases hi : r.isIncremental with
  | false =>
    simp only [hi, Bool.false_eq_true, if_false, Prod.mk.injEq] at hins ⊢
    exact ⟨hins.2 ▸ ht, by rw [hins.2], by rw [hins.2]⟩
  | true =>
    simp only [hi, if_true] at hins ⊢
    by_cases hr : t.Refuses h
    · obtain ⟨status', t₁, h1, h2, -⟩ := HpackDynamicTable.insert_refused ht hm hr
      rw [hins, Prod.mk.injEq] at h1
      rw [h1.1, h2] at hok
      simp at hok
    · obtain ⟨t₁, h1, h2, h3, h4, h5⟩ := HpackDynamicTable.insert_accepted ht hm hr
      rw [hins, Prod.mk.injEq] at h1
      rw [h1.2]
      refine ⟨h2, ?_, h3⟩
      simp only [HpackDynamicTable.queue, h4, h5]
      rfl

theorem decodeTurn_cases (ht : s.table.Wf) (hm : s.table.maxSize ≤ maxSizeT)
    (hlist : l.maxHeaderListSize ≤ maxSizeT) (hs : s.rest = byte :: tl)
    (h : decodeTurn l limit s byte = .ok s') : DecodeTurn limit l.maxHeaderListSize s s' := by
  unfold decodeTurn at h
  cases hrep : decodeRepresentation l s byte.toNat with
  | none =>
    -- only `001xxxxx` is left
    have hbyte : byte.toNat / 2 ^ 5 = 1 := by
      unfold decodeRepresentation at hrep
      split_ifs at hrep with h7 h6 h4
      omega
    simp only [hrep] at h
    unfold decodeSizeUpdate at h
    cases hallow : s.allowTableSizeUpdate with
    | false => simp [hallow, Except.mapError] at h
    | true =>
      simp only [hallow, not_true_eq_false, if_false] at h
      cases hint : hpackDecodeInteger s.rest 5 with
      | error status => simp [hint, bind, Except.bind, Except.mapError] at h
      | ok r =>
        obtain ⟨n, consumed⟩ := r
        obtain ⟨octets, rest, hsplit, rfl, hn⟩ :=
          (decodeInteger_iff (by norm_num) (by norm_num)).1 hint
        rw [hsplit] at hint
        simp only [hsplit, hint, bind, Except.bind, List.drop_left] at h
        by_cases hle : n > limit
        · simp [hle, Except.mapError] at h
        · simp only [hle, if_false, pure, Except.pure, Except.mapError, Except.ok.injEq] at h
          subst h
          have hbits : firstBits 5 octets = 1 := by
            rw [← firstBits_append hn.ne_nil rest, ← hsplit, hs]
            exact hbyte
          have hupdate : DecodeTurn limit l.maxHeaderListSize s _ :=
            .update hsplit hn hbits (Nat.le_of_not_lt hle) hallow
          rwa [hallow] at hupdate
  | some r =>
    cases r with
    | error status => simp [hrep] at h
    | ok f =>
      obtain ⟨octets, r, hne, hsplit, hf, hfield, hadd⟩ := decodeRepresentation_sound hs hrep
      simp only [hrep] at h
      unfold emitField at h
      cases h1 : materializeHeaderPart f.nameFromTable f.name.length f.nvOffset
          l.nameValueCapacity with
      | error status => simp [h1] at h
      | ok nv =>
        cases h2 : materializeHeaderPart f.valueFromTable f.value.length nv
            l.nameValueCapacity with
        | error status => simp [h1, h2] at h
        | ok nv' =>
          simp only [h1, h2, addHeaderListSize_eq hlist] at h
          by_cases hle : s.headerListSize +
              (f.name.length + f.value.length + hpackEntryOverhead) ≤ l.maxHeaderListSize
          · rw [if_pos hle] at h
            cases hins : (if f.addToTable then s.table.insert f.name f.value
                else (statusSuccess, s.table)) with
            | mk status table =>
              simp only [hins] at h
              split_ifs at h with hok hroom
              simp only [Except.ok.injEq] at h
              rw [hadd] at hins
              obtain ⟨hwf, hqueue, -⟩ := insert_next (h := ⟨f.name, f.value⟩) ht hm hins hok
              subst h
              exact .field hne hsplit hf hfield hwf hqueue rfl rfl hle rfl
          · rw [if_neg hle] at h
            simp at h

/-! ## What was decoded -/

theorem IsInteger.lt (hn : n ≤ 8) (h : IsInteger n octets v) :
    v < 2 ^ 32 := by
  cases h with
  | @short b hb =>
    have hpow : 2 ^ n ≤ 2 ^ 8 := Nat.pow_le_pow_right (by norm_num) hn
    omega
  | long _ _ _ hlt => exact hlt

theorem queue_updateMaxSize (ht : t.Wf) (n : ℕ) :
    (t.updateMaxSize n).queue = t.queue.step headerSize (.setBound n) := by
  obtain ⟨-, h2, h3, -⟩ := HpackDynamicTable.updateMaxSize_spec ht.toFits n
  simp only [HpackDynamicTable.queue, h2, h3]
  rfl

@[simp] theorem Representation.next_bound (r : Representation) (t : Queue HttpHeader)
    (h : HttpHeader) : (r.next t h).bound = t.bound := by
  unfold Representation.next
  split_ifs <;> rfl

theorem DecodeTurn.wf {maxHeaderListSize : ℕ} (ht : s.table.Wf)
    (hm : s.table.maxSize ≤ maxSizeT) (h : DecodeTurn limit maxHeaderListSize s s') :
    s'.table.Wf ∧ s'.table.maxSize ≤ maxSizeT := by
  cases h with
  | @update octets rest n _ hn _ _ _ =>
    obtain ⟨h1, -, h3, -⟩ := HpackDynamicTable.updateMaxSize_spec ht.toFits n
    have hlt := hn.lt (by norm_num)
    refine ⟨h1, ?_⟩
    simp only [h3]
    unfold maxSizeT
    omega
  | field _ _ _ _ hwf hqueue _ _ _ _ =>
    refine ⟨hwf, ?_⟩
    have hbound := congrArg Queue.bound hqueue
    rw [Representation.next_bound] at hbound
    exact hbound.trans_le hm

theorem isBlock_nil (h : IsBlock limit octets [] rs) : IsFields octets rs := by
  cases h with
  | fields hrs => exact hrs

/-- **A block that was decoded** is a block of the grammar, and the reference
    decoder gives its header list and its table. -/
theorem decodeLoop_sound (hlist : l.maxHeaderListSize ≤ maxSizeT) :
    ∀ (fuel : ℕ) {s s' : DecodeState}, s.table.Wf → s.table.maxSize ≤ maxSizeT →
    s.headerListSize ≤ l.maxHeaderListSize → s.rest.length ≤ fuel →
    decodeLoop l limit fuel s = .ok s' →
    ∃ sizes rs hs, (s.allowTableSizeUpdate = false → sizes = []) ∧
      IsBlock limit s.rest sizes rs ∧
      decodeFields (resized s.table.queue sizes) rs = some (hs, s'.table.queue) ∧
      s'.headers = s.headers ++ hs ∧
      s.headerListSize + total headerSize hs ≤ l.maxHeaderListSize := by
  intro fuel
  induction fuel with
  | zero =>
    intro s s' _ _ hle hfuel h
    have hrest : s.rest = [] := List.eq_nil_of_length_eq_zero (by omega)
    simp only [decodeLoop, Except.ok.injEq] at h
    subst h
    exact ⟨[], [], [], fun _ => rfl, hrest ▸ .fields .nil, rfl, by simp, by simpa using hle⟩
  | succ fuel ih =>
    intro s s' ht hm hle hfuel h
    cases hs : s.rest with
    | nil =>
      simp only [decodeLoop, hs, Except.ok.injEq] at h
      subst h
      exact ⟨[], [], [], fun _ => rfl, .fields .nil, rfl, by simp, by simpa using hle⟩
    | cons byte tl =>
      simp only [decodeLoop, hs, bind, Except.bind] at h
      cases hturn : decodeTurn l limit s byte with
      | error e => simp [hturn] at h
      | ok s₁ =>
        simp only [hturn] at h
        have hcase := decodeTurn_cases ht hm hlist hs hturn
        obtain ⟨hwf, hm₁⟩ := hcase.wf ht hm
        rw [← hs]
        cases hcase with
        | @update octets rest n hsplit hn hbits hlim hallow =>
          have hpos := List.length_pos_iff.2 hn.ne_nil
          rw [hsplit, List.length_append] at hfuel
          obtain ⟨sizes, rs, hs, -, hblock, hfields, hheaders, hsize⟩ :=
            ih hwf hm₁ hle (by simp only; omega) h
          rw [queue_updateMaxSize ht] at hfields
          refine ⟨n :: sizes, rs, hs, fun hno => by simp [hallow] at hno, ?_, hfields, hheaders, hsize⟩
          rw [hsplit]
          exact .update hn hbits hlim hblock
        | @field octets r a _ hne hsplit hf hh _ hqueue hheaders hsize hle₁ hallow =>
          have hpos := List.length_pos_iff.2 hne
          rw [hsplit, List.length_append] at hfuel
          obtain ⟨sizes, rs, hs, hnil, hblock, hfields, hheaders', hsize'⟩ :=
            ih hwf hm₁ hle₁ (by omega) h
          obtain rfl := hnil hallow
          refine ⟨[], r :: rs, a :: hs, fun _ => rfl, ?_, ?_, ?_, ?_⟩
          · rw [hsplit]
            exact .fields (.cons hf (isBlock_nil hblock))
          · change decodeFields s₁.table.queue rs = _ at hfields
            rw [hqueue] at hfields
            change decodeFields s.table.queue (r :: rs) = _
            simp only [decodeFields, hh, Option.bind_eq_bind, Option.bind_some, hfields]
            rfl
          · rw [hheaders', hheaders]
            simp
          · rw [total_cons]
            omega

/-! ## What is decoded -/

/-- The buffers and the limit suffice for the header list `hs` of the octets. -/
structure Room (l : DecodeLimits) (s : DecodeState) (octets : Bytes) (hs : List HttpHeader) :
    Prop where
  names : s.nvOffset + total (fun h => h.name.length + h.value.length) hs + 2 * octets.length ≤
    l.nameValueCapacity
  size : s.headerListSize + total headerSize hs ≤ l.maxHeaderListSize
  count : s.headers.length + hs.length ≤ l.headerCapacity

theorem Room.tail {l : DecodeLimits} {s : DecodeState} {octets rest : Bytes} {h : HttpHeader}
    {hs : List HttpHeader} (hr : Room l s (octets ++ rest) (h :: hs)) (table : HpackDynamicTable) :
    Room l (s.emit table rest h) rest hs := by
  obtain ⟨h1, h2, h3⟩ := hr
  simp only [total_cons, List.length_append, List.length_cons] at h1 h2 h3
  constructor <;> simp only [DecodeState.emit, List.length_append, List.length_singleton] <;> omega

theorem IsField.ne_nil (h : IsField octets r) :
    octets ≠ [] := by
  cases h with
  | indexed hi _ => exact hi.ne_nil
  | incremental hn _ _ =>
    have := hn.ne_nil
    simp [this]
  | notIndexed hn _ _ =>
    have := hn.ne_nil
    simp [this]

/-- The field has to be stored in the table. -/
def Representation.stores (r : Representation) (t : Queue HttpHeader) (h : HttpHeader) : Bool :=
  r.isIncremental && decide (headerSize h ≤ t.bound)

/-- How a turn ends that reads a representation of the field `h`: the field is
    emitted, or it has to be stored and there is no ring. -/
inductive FieldOutcome (s : DecodeState) (r : Representation) (h : HttpHeader) (rest : Bytes) :
    Except (NTSTATUS × HpackDynamicTable) DecodeState → Prop
  | emitted {table : HpackDynamicTable}
      (hroom : s.table.Allocated ∨ r.stores s.table.queue h = false) (hwf : table.Wf)
      (hqueue : table.queue = r.next s.table.queue h)
      (halloc : table.Allocated ↔ s.table.Allocated) :
      FieldOutcome s r h rest (.ok (s.emit table rest h))
  | refused {e : NTSTATUS × HpackDynamicTable} (ha : ¬ s.table.Allocated)
      (hstore : r.stores s.table.queue h = true) : FieldOutcome s r h rest (.error e)

theorem decodeTurn_field (hlist : l.maxHeaderListSize ≤ maxSizeT)
    (ht : s.table.Wf) (hm : s.table.maxSize ≤ maxSizeT)
    {hs : List HttpHeader} (hf : IsField octets r)
    (hsplit : s.rest = octets ++ rest) (hh : r.field s.table.queue = some h)
    (hroom : Room l s (octets ++ rest) (h :: hs)) :
    ∃ byte tl, s.rest = byte :: tl ∧ FieldOutcome s r h rest (decodeTurn l limit s byte) := by
  obtain ⟨h1, h2, h3⟩ := hroom
  simp only [total_cons, List.length_append, List.length_cons] at h1 h2 h3
  have hreads := reads_field (l := l) hf hsplit hh (by omega)
  obtain ⟨byte, tl, hcons, hturn⟩ := decodeTurn_inserts hreads (by omega)
    hlist (by omega) (by omega) rfl
  refine ⟨byte, tl, hcons, ?_⟩
  rw [hturn]
  by_cases hrefused : ¬ s.table.Allocated ∧ r.stores s.table.queue h = true
  · obtain ⟨ha, hstore⟩ := hrefused
    have hand := hstore
    rw [Representation.stores, Bool.and_eq_true, decide_eq_true_eq] at hand
    obtain ⟨status, t', k1, k2, -⟩ := HpackDynamicTable.insert_refused ht hm
      (.inr ⟨ha, hand.2⟩ : s.table.Refuses h)
    rw [hand.1, if_pos rfl, k1, k2]
    exact .refused ha hstore
  · have hroom' : s.table.Allocated ∨ r.stores s.table.queue h = false := by
      rw [not_and_or, not_not, Bool.not_eq_true] at hrefused
      exact hrefused
    cases hins : (if r.isIncremental then s.table.insert h.name h.value
        else (statusSuccess, s.table)) with
    | mk status table =>
      have hok : ntSuccess status = true := by
        cases hi : r.isIncremental with
        | false =>
          simp only [hi, Bool.false_eq_true, if_false, Prod.mk.injEq] at hins
          simp [← hins.1]
        | true =>
          have hno : ¬ s.table.Refuses h := by
            rintro (hbig | ⟨ha, hle⟩)
            · omega
            · exact hrefused ⟨ha, by
              simp only [Representation.stores, hi, Bool.true_and]
              exact decide_eq_true hle⟩
          obtain ⟨t', k1, -⟩ := HpackDynamicTable.insert_accepted ht hm hno
          simp only [hi, if_true, k1, Prod.mk.injEq] at hins
          simp [← hins.1]
      obtain ⟨hwf, hqueue, halloc⟩ := insert_next ht hm hins hok
      rw [if_pos hok]
      exact .emitted hroom' hwf hqueue halloc

theorem decodeLoop_cons {fuel : ℕ} (hs : s.rest = byte :: tl) :
    decodeLoop l limit (fuel + 1) s = (decodeTurn l limit s byte).bind
      (decodeLoop l limit fuel) := by
  rw [decodeLoop, hs]
  rfl

/-- How the loop ends on octets of the reference decoder: with the header list and
    the table `t`, or one of the fields has to be stored and there is no ring. -/
inductive LoopOutcome (refused : Prop) (headers : List HttpHeader) (t : Queue HttpHeader) :
    Except (NTSTATUS × HpackDynamicTable) DecodeState → Prop
  | decoded {s : DecodeState} (hno : ¬ refused) (hheaders : s.headers = headers)
      (hqueue : s.table.queue = t) : LoopOutcome refused headers t (.ok s)
  | refused {e : NTSTATUS × HpackDynamicTable} (h : refused) :
      LoopOutcome refused headers t (.error e)

/-- **Fields of the grammar are decoded**, unless one of them has to be stored in a
    table without a ring. -/
theorem decodeLoop_fields (hlist : l.maxHeaderListSize ≤ maxSizeT) (hf : IsFields octets rs) :
    ∀ {s : DecodeState} {hs : List HttpHeader} {t : Queue HttpHeader} {fuel : ℕ}, s.table.Wf →
    s.table.maxSize ≤ maxSizeT → s.rest = octets → octets.length ≤ fuel →
    decodeFields s.table.queue rs = some (hs, t) → Room l s octets hs →
    LoopOutcome (¬ s.table.Allocated ∧ storesField s.table.queue rs = true) (s.headers ++ hs) t
      (decodeLoop l limit fuel s) := by
  induction hf with
  | nil =>
    intro s hs t fuel _ _ hrest _ hfields _
    obtain ⟨rfl, rfl⟩ : [] = hs ∧ s.table.queue = t := by simpa [decodeFields] using hfields
    have hdone : decodeLoop l limit fuel s = .ok s := by
      cases fuel with
      | zero => rfl
      | succ fuel => rw [decodeLoop, hrest]
    rw [hdone]
    exact .decoded (by simp [storesField]) (by simp) rfl
  | @cons octets rest r rs hr _ ih =>
    intro s hs t fuel ht hm hrest hfuel hfields hroom
    have hpos := List.length_pos_iff.2 hr.ne_nil
    rw [List.length_append] at hfuel
    obtain ⟨fuel, rfl⟩ : ∃ n, fuel = n + 1 := ⟨fuel - 1, by omega⟩
    cases hh : r.field s.table.queue with
    | none => simp [decodeFields, hh] at hfields
    | some h =>
      cases hdec : decodeFields (r.next s.table.queue h) rs with
      | none => simp [decodeFields, hh, hdec] at hfields
      | some p =>
        obtain ⟨hs', t₁⟩ := p
        obtain ⟨rfl, rfl⟩ : h :: hs' = hs ∧ t₁ = t := by
          simpa [decodeFields, hh, hdec] using hfields
        obtain ⟨byte, tl, hcons, hturn⟩ :=
          decodeTurn_field (l := l) hlist ht hm hr hrest hh hroom
        have hstores : storesField s.table.queue (r :: rs) =
            (r.stores s.table.queue h || storesField (r.next s.table.queue h) rs) := by
          simp only [storesField, hh]
          rfl
        rw [decodeLoop_cons hcons, hstores]
        generalize decodeTurn l limit s byte = result at hturn
        cases hturn with
        | refused ha hstore => exact .refused ⟨ha, by rw [hstore]; rfl⟩
        | @emitted table hroom' hwf hqueue halloc =>
          have hbound : table.maxSize = s.table.maxSize := by
            have := congrArg Queue.bound hqueue
            rwa [Representation.next_bound] at this
          have hfields' : decodeFields (s.emit table rest h).table.queue rs = some (hs', t₁) := by
            simpa [DecodeState.emit, hqueue] using hdec
          have hfuel' : rest.length ≤ fuel := by omega
          have hrest := ih (s := s.emit table rest h) hwf (hbound.trans_le hm) rfl hfuel' hfields'
            (hroom.tail table)
          have hrefused : (¬ s.table.Allocated ∧
              (r.stores s.table.queue h || storesField (r.next s.table.queue h) rs) = true) ↔
              ¬ table.Allocated ∧ storesField table.queue rs = true := by
            rw [halloc, hqueue]
            rcases hroom' with ha | hno
            · simp [ha]
            · simp [hno]
          simp only [DecodeState.emit, List.append_assoc, List.singleton_append] at hrest
          rw [hrefused]
          exact hrest

theorem decodeTurn_update (hn : IsInteger 5 octets n) (hbits : firstBits 5 octets = 1)
    (hle : n ≤ limit) (hallow : s.allowTableSizeUpdate = true) (hsplit : s.rest = octets ++ rest) :
    ∃ byte tl, s.rest = byte :: tl ∧ decodeTurn l limit s byte =
      .ok { s with table := s.table.updateMaxSize n, rest := rest } := by
  have hint := (decodeInteger_iff (show 5 ≠ 0 by norm_num) (by norm_num)).2
    ⟨octets, rest, rfl, rfl, hn⟩
  obtain ⟨byte, tl, rfl⟩ := List.exists_cons_of_ne_nil hn.ne_nil
  have hbyte : byte.toNat / 2 ^ 5 = 1 := hbits
  refine ⟨byte, tl ++ rest, hsplit, ?_⟩
  have hrep : decodeRepresentation l s byte.toNat = none := by
    unfold decodeRepresentation
    rw [if_neg (by omega), if_neg (by omega), if_neg (by omega)]
  unfold decodeTurn decodeSizeUpdate
  rw [hrep, hsplit]
  simp only [hallow, not_true_eq_false, if_false, hint, bind, Except.bind, List.drop_left]
  rw [if_neg (by omega)]
  rfl

/-- **A block of the reference decoder is decoded**, unless a field has to be stored
    in a table without a ring. -/
theorem decodeLoop_block (hlist : l.maxHeaderListSize ≤ maxSizeT) {sizes : List ℕ}
    (hb : IsBlock limit octets sizes rs) :
    ∀ {s : DecodeState} {hs : List HttpHeader} {t : Queue HttpHeader} {fuel : ℕ}, s.table.Wf →
    s.table.maxSize ≤ maxSizeT → s.rest = octets → octets.length ≤ fuel →
    s.allowTableSizeUpdate = true →
    decodeFields (resized s.table.queue sizes) rs = some (hs, t) → Room l s octets hs →
    LoopOutcome (¬ s.table.Allocated ∧ storesField (resized s.table.queue sizes) rs = true)
      (s.headers ++ hs) t (decodeLoop l limit fuel s) := by
  induction hb with
  | fields hrs =>
    intro s hs t fuel ht hm hrest hfuel _ hfields hroom
    exact decodeLoop_fields hlist hrs ht hm hrest hfuel hfields hroom
  | @update octets rest n sizes rs hn hbits hle _ ih =>
    intro s hs t fuel ht hm hrest hfuel hallow hfields hroom
    have hpos := List.length_pos_iff.2 hn.ne_nil
    rw [List.length_append] at hfuel
    obtain ⟨fuel, rfl⟩ : ∃ n, fuel = n + 1 := ⟨fuel - 1, by omega⟩
    obtain ⟨byte, tl, hcons, hturn⟩ := decodeTurn_update (l := l) hn hbits hle hallow hrest
    obtain ⟨h1, -, h3, h4⟩ := HpackDynamicTable.updateMaxSize_spec ht.toFits n
    have hlt := hn.lt (by norm_num)
    obtain ⟨r1, r2, r3⟩ := hroom
    rw [List.length_append] at r1
    have hm' : (s.table.updateMaxSize n).maxSize ≤ maxSizeT := by
      rw [h3]
      unfold maxSizeT
      omega
    have hfuel' : rest.length ≤ fuel := by omega
    have hfields' : decodeFields (resized (s.table.updateMaxSize n).queue sizes) rs =
        some (hs, t) := by
      rw [queue_updateMaxSize ht]
      exact hfields
    have hafter := ih (s := { s with table := s.table.updateMaxSize n, rest := rest }) h1 hm' rfl
      hfuel' hallow hfields' ⟨by simp only; omega, r2, r3⟩
    rw [decodeLoop_cons hcons, hturn]
    simp only [queue_updateMaxSize ht, h4] at hafter
    exact hafter

/-! ## Decoders -/

/-- The table `Decode` leaves. -/
def tableOf : Except (NTSTATUS × HpackDynamicTable) DecodeState → HpackDynamicTable
  | .ok s => s.table
  | .error e => e.2

namespace HpackDecoder

/-- The states of a decoder: it was initialised, its table size changed, and blocks
    were decoded, with or without success. -/
inductive Reachable : HpackDecoder → Prop
  | initial {m : ℕ} (hm : m ≤ maxSizeT) : Reachable (initializeDecoder m)
  | update {d : HpackDecoder} {n : ℕ} (h : Reachable d) (hn : n ≤ maxSizeT) :
      Reachable (d.updateMaxTableSize n)
  | decode {d : HpackDecoder} (h : Reachable d) {l : DecodeLimits}
      (hl : l.maxHeaderListSize ≤ maxSizeT) (block : Bytes) : Reachable (d.decode l block).2

theorem insert_wf {t : HpackDynamicTable} (ht : t.Wf) (hm : t.maxSize ≤ maxSizeT)
    (h : HttpHeader) :
    (t.insert h.name h.value).2.Wf ∧ (t.insert h.name h.value).2.maxSize ≤ maxSizeT := by
  by_cases hr : t.Refuses h
  · obtain ⟨status, t', h1, -, h3, -, h5⟩ := HpackDynamicTable.insert_refused ht hm hr
    rw [h1]
    exact ⟨h3, by rw [h5.maxSize]; exact hm⟩
  · obtain ⟨t', h1, h2, -, h4, -⟩ := HpackDynamicTable.insert_accepted ht hm hr
    rw [h1]
    exact ⟨h2, by rw [h4]; exact hm⟩

variable {block : Bytes} {l : DecodeLimits} {d : HpackDecoder} {hs : List HttpHeader}
    {rs : List Representation} {sizes : List ℕ} {t : Queue HttpHeader}

theorem emitField_wf {s : DecodeState} (ht : s.table.Wf)
    (hm : s.table.maxSize ≤ maxSizeT) (f : DecodedField) {e : NTSTATUS × HpackDynamicTable}
    (h : emitField l s f = .error e) : e.2.Wf ∧ e.2.maxSize ≤ maxSizeT := by
  have hins : (if f.addToTable then s.table.insert f.name f.value
      else (statusSuccess, s.table)).2.Wf ∧ (if f.addToTable then s.table.insert f.name f.value
      else (statusSuccess, s.table)).2.maxSize ≤ maxSizeT := by
    split_ifs
    · exact insert_wf ht hm ⟨f.name, f.value⟩
    · exact ⟨ht, hm⟩
  unfold emitField at h
  simp only at h
  generalize (if f.addToTable then s.table.insert f.name f.value
    else (statusSuccess, s.table)) = inserted at h hins
  split at h
  · cases h
    exact ⟨ht, hm⟩
  · split at h
    · cases h
      exact ⟨ht, hm⟩
    · split at h
      · cases h
        exact ⟨ht, hm⟩
      · split_ifs at h
        · cases h
          exact hins
        · cases h
          exact hins

theorem decodeTurn_wf {l : DecodeLimits} {limit : ℕ} (hlist : l.maxHeaderListSize ≤ maxSizeT)
    {s : DecodeState} (ht : s.table.Wf) (hm : s.table.maxSize ≤ maxSizeT) {byte : UInt8}
    {tl : Bytes} (hs : s.rest = byte :: tl) :
    (tableOf (decodeTurn l limit s byte)).Wf ∧
      (tableOf (decodeTurn l limit s byte)).maxSize ≤ maxSizeT := by
  cases hturn : decodeTurn l limit s byte with
  | ok s' => exact (decodeTurn_cases ht hm hlist hs hturn).wf ht hm
  | error e =>
    unfold decodeTurn at hturn
    split at hturn
    · exact emitField_wf ht hm _ hturn
    · cases hturn
      exact ⟨ht, hm⟩
    · cases hupdate : decodeSizeUpdate limit s with
      | ok s' => simp [hupdate, Except.mapError] at hturn
      | error status =>
        simp only [hupdate, Except.mapError, Except.error.injEq] at hturn
        exact hturn ▸ ⟨ht, hm⟩

theorem decodeLoop_wf {l : DecodeLimits} {limit : ℕ} (hlist : l.maxHeaderListSize ≤ maxSizeT) :
    ∀ (fuel : ℕ) {s : DecodeState}, s.table.Wf → s.table.maxSize ≤ maxSizeT →
    (tableOf (decodeLoop l limit fuel s)).Wf ∧
      (tableOf (decodeLoop l limit fuel s)).maxSize ≤ maxSizeT := by
  intro fuel
  induction fuel with
  | zero =>
    intro s ht hm
    exact ⟨ht, hm⟩
  | succ fuel ih =>
    intro s ht hm
    cases hs : s.rest with
    | nil =>
      rw [decodeLoop, hs]
      exact ⟨ht, hm⟩
    | cons byte tl =>
      have hturn := @decodeTurn_wf l limit hlist s ht hm byte tl hs
      rw [decodeLoop_cons hs]
      cases hresult : decodeTurn l limit s byte with
      | error e =>
        rw [hresult] at hturn
        exact hturn
      | ok s' =>
        rw [hresult] at hturn
        exact ih hturn.1 hturn.2

/-- **Reachable decoders have well-formed tables.** -/
theorem Reachable.wf (h : d.Reachable) :
    d.table.Wf ∧ d.table.maxSize ≤ maxSizeT := by
  induction h with
  | initial hm =>
    exact ⟨HpackDynamicTable.initializeTable_wf _, by simpa [initializeDecoder] using hm⟩
  | @update d n _ hn ih =>
    obtain ⟨h1, -, h3, -⟩ := HpackDynamicTable.updateMaxSize_spec ih.1.toFits n
    exact ⟨h1, by simp only [updateMaxTableSize, h3]; exact hn⟩
  | @decode d _ l hl block ih =>
    have hloop := @decodeLoop_wf l d.maxTableSize hl block.length
      { table := d.table, rest := block } ih.1 ih.2
    unfold HpackDecoder.decode
    cases hresult : decodeLoop l d.maxTableSize block.length
        { table := d.table, rest := block } with
    | ok s => rwa [hresult] at hloop
    | error e => rwa [hresult] at hloop

theorem decode_sound {d' : HpackDecoder} (hd : d.Reachable) (hlist : l.maxHeaderListSize ≤ maxSizeT)
    (h : d.decode l block = (.ok hs, d')) :
    ∃ sizes rs, ReferenceDecodes d.maxTableSize l.maxHeaderListSize d.table.queue block sizes rs hs
      d'.table.queue := by
  obtain ⟨hwf, hm⟩ := hd.wf
  unfold decode at h
  cases hresult : decodeLoop l d.maxTableSize block.length
      { table := d.table, rest := block } with
  | error e => simp [hresult] at h
  | ok s =>
    simp only [hresult, Prod.mk.injEq, Except.ok.injEq] at h
    obtain ⟨hheaders, rfl⟩ := h
    obtain ⟨sizes, rs, hs', -, hblock, hfields, hheaders', hsize⟩ :=
      decodeLoop_sound hlist block.length (s := { table := d.table, rest := block }) hwf hm
        (Nat.zero_le _) le_rfl hresult
    obtain rfl : hs' = hs := by rw [← hheaders, hheaders']; rfl
    exact ⟨sizes, rs, hblock, hfields, by simpa using hsize⟩

theorem decode_complete (hd : d.Reachable) (hlist : l.maxHeaderListSize ≤ maxSizeT)
    (h : ReferenceDecodes d.maxTableSize l.maxHeaderListSize d.table.queue block sizes rs hs t)
    (hcount : hs.length ≤ l.headerCapacity)
    (hnames : total (fun h => h.name.length + h.value.length) hs + 2 * block.length ≤
      l.nameValueCapacity) :
    LoopOutcome (¬ d.table.Allocated ∧ storesField (resized d.table.queue sizes) rs = true) hs t
      (decodeLoop l d.maxTableSize block.length { table := d.table, rest := block }) := by
  obtain ⟨hwf, hm⟩ := hd.wf
  have hroom : Room l { table := d.table, rest := block } block hs :=
    ⟨by simpa using hnames, by simpa using h.size, by simpa using hcount⟩
  exact decodeLoop_block (s := { table := d.table, rest := block }) hlist h.block hwf hm rfl le_rfl
    rfl h.fields hroom

theorem decode_of_outcome {refused : Prop} (h : LoopOutcome refused hs t
      (decodeLoop l d.maxTableSize block.length { table := d.table, rest := block })) :
    (∃ d', d.decode l block = (.ok hs, d') ∧ d'.table.queue = t) ∨
      (refused ∧ ∀ hs' d', d.decode l block ≠ (.ok hs', d')) := by
  unfold decode
  cases hresult : decodeLoop l d.maxTableSize block.length
      { table := d.table, rest := block } with
  | ok s =>
    rw [hresult] at h
    cases h with
    | decoded _ hheaders hqueue =>
      exact .inl ⟨{ d with table := s.table }, by simp only [hheaders], hqueue⟩
  | error e =>
    rw [hresult] at h
    cases h with
    | refused hrefused => exact .inr ⟨hrefused, fun hs' d' => by simp⟩

/-- With enough room for headers and for names and values, `Decode` succeeds iff
    the reference decoder does, with its header list and its table. -/
def MatchesReference (d : HpackDecoder) (block : Bytes) (maxHeaderListSize : ℕ) : Prop :=
  ∃ room, ∀ l : DecodeLimits, l.maxHeaderListSize = maxHeaderListSize → room ≤ l.headerCapacity →
    room ≤ l.nameValueCapacity → ∀ hs t,
      (∃ d', d.decode l block = (.ok hs, d') ∧ d'.table.queue = t) ↔
        ∃ sizes rs, ReferenceDecodes d.maxTableSize maxHeaderListSize d.table.queue block sizes rs
          hs t

/-- A block whose fields have to be stored in a table without a ring is refused. -/
theorem not_matches_of_stores (hd : d.Reachable)
    {maxHeaderListSize : ℕ} (hlist : maxHeaderListSize ≤ maxSizeT) (ha : ¬ d.table.Allocated)
    (h : ReferenceDecodes d.maxTableSize maxHeaderListSize d.table.queue block sizes rs hs t)
    (hstores : storesField (resized d.table.queue sizes) rs = true) :
    ¬ d.MatchesReference block maxHeaderListSize := by
  rintro ⟨room, hmatch⟩
  set names := total (fun h : HttpHeader => h.name.length + h.value.length) hs + 2 * block.length
  have hrun := decode_complete hd (l := ⟨room + hs.length, room + names, maxHeaderListSize⟩) hlist h
    (Nat.le_add_left _ _) (Nat.le_add_left _ _)
  obtain ⟨d', hdec, -⟩ := (hmatch ⟨room + hs.length, room + names, maxHeaderListSize⟩ rfl
    (Nat.le_add_right _ _) (Nat.le_add_right _ _) hs t).2 ⟨sizes, rs, h⟩
  cases hresult : decodeLoop ⟨room + hs.length, room + names, maxHeaderListSize⟩ d.maxTableSize
      block.length { table := d.table, rest := block } with
  | ok s =>
    rw [hresult] at hrun
    cases hrun with
    | decoded hno _ _ => exact hno ⟨ha, hstores⟩
  | error e => simp [decode, hresult] at hdec

/-- **`Decode` is the reference decoder** on exactly the blocks that do not have to
    store a field in a table without a ring. -/
theorem decode_matches_iff {d : HpackDecoder} (hd : d.Reachable) (block : Bytes)
    {maxHeaderListSize : ℕ} (hlist : maxHeaderListSize ≤ maxSizeT) :
    d.MatchesReference block maxHeaderListSize ↔
      d.table.Allocated ∨ ∀ sizes rs hs t,
        ReferenceDecodes d.maxTableSize maxHeaderListSize d.table.queue block sizes rs hs t →
        storesField (resized d.table.queue sizes) rs = false := by
  constructor
  · intro hmatch
    by_contra hno
    push Not at hno
    obtain ⟨ha, sizes, rs, hs, t, h, hstores⟩ := hno
    rw [ne_eq, Bool.not_eq_false] at hstores
    exact not_matches_of_stores hd hlist ha h hstores hmatch
  · intro hroom
    -- every block of the reference decoder is decoded, given the room for its fields
    have hdecodes : ∀ {sizes rs hs t}, ReferenceDecodes d.maxTableSize maxHeaderListSize
        d.table.queue block sizes rs hs t → ∀ {l : DecodeLimits},
        l.maxHeaderListSize = maxHeaderListSize → hs.length ≤ l.headerCapacity →
        total (fun h => h.name.length + h.value.length) hs + 2 * block.length ≤
          l.nameValueCapacity →
        ∃ d', d.decode l block = (.ok hs, d') ∧ d'.table.queue = t := by
      rintro sizes rs hs t h l rfl hcount hnames
      rcases decode_of_outcome (decode_complete hd hlist h hcount hnames) with hok | ⟨hrefused, -⟩
      · exact hok
      · have hstores := (hroom.resolve_left hrefused.1) sizes rs hs t h
        rw [hrefused.2] at hstores
        simp at hstores
    by_cases hexists : ∃ sizes rs hs t,
        ReferenceDecodes d.maxTableSize maxHeaderListSize d.table.queue block sizes rs hs t
    · obtain ⟨sizes, rs, hs, t, h⟩ := hexists
      set names := total (fun h : HttpHeader => h.name.length + h.value.length) hs +
        2 * block.length
      refine ⟨max hs.length names, fun l hl hcount hnames hs' t' => ⟨?_, ?_⟩⟩
      · rintro ⟨d', hdec, rfl⟩
        subst hl
        exact decode_sound hd hlist hdec
      · rintro ⟨sizes', rs', h'⟩
        -- with room for both, both are what is decoded
        set names' := total (fun h : HttpHeader => h.name.length + h.value.length) hs' +
          2 * block.length
        obtain ⟨d₁, h₁, -⟩ := hdecodes h
          (l := ⟨hs.length + hs'.length, names + names', maxHeaderListSize⟩) rfl
          (Nat.le_add_right _ _) (Nat.le_add_right _ _)
        obtain ⟨d₂, h₂, -⟩ := hdecodes h'
          (l := ⟨hs.length + hs'.length, names + names', maxHeaderListSize⟩) rfl
          (Nat.le_add_left _ _) (Nat.le_add_left _ _)
        obtain rfl : hs = hs' := by
          rw [h₁, Prod.mk.injEq, Except.ok.injEq] at h₂
          exact h₂.1
        exact hdecodes h' hl ((le_max_left _ _).trans hcount) ((le_max_right _ _).trans hnames)
    · refine ⟨0, fun l hl _ _ hs t => ⟨?_, ?_⟩⟩
      · rintro ⟨d', hdec, rfl⟩
        subst hl
        exact decode_sound hd hlist hdec
      · rintro ⟨sizes, rs, h⟩
        exact absurd ⟨sizes, rs, hs, t, h⟩ hexists

/-- The literal field `a: b`, and behind it `a: cc` with the name of that entry. -/
def reusedName : Bytes := [0x40, 0x01, 0x61, 0x01, 0x62, 0x7e, 0x02, 0x63, 0x63]

/-- In a table of 40 octets the second field evicts the entry it takes its name
    from. -/
example :
    let d := initializeDecoder 40
    (d.decode ⟨8, 64, maxSizeT⟩ reusedName).1 =
      .ok [⟨text "a", text "b"⟩, ⟨text "a", text "cc"⟩] ∧
    (d.decode ⟨8, 64, maxSizeT⟩ reusedName).2.table.headers = [⟨text "a", text "cc"⟩] := by
  decide +kernel

theorem decode_matches_reusedName : (initializeDecoder 40).MatchesReference reusedName 4096 :=
  (decode_matches_iff (d := initializeDecoder 40) (.initial (by decide)) reusedName (by decide)).2
    (.inl (by simp [initializeDecoder, HpackDynamicTable.initializeTable_allocated]))

/-- The literal field `a: b`. -/
def oneLiteral : Bytes := [0x40, 0x01, 0x61, 0x01, 0x62]

theorem oneLiteral_field :
    IsField oneLiteral (.literal (.literal (text "a")) (text "b") true) := by
  have hzero : IsInteger 6 [0x40] 0 := .short (by decide)
  have hone : IsInteger 7 [0x01] 1 := .short (by decide)
  have hflag : firstBits 7 [0x01] = 0 := by decide
  have hname : IsName 6 ([0x40] ++ ([0x01] ++ text "a")) (.literal (text "a")) :=
    .literal hzero (.plain hone hflag)
  have hvalue : IsString ([0x01] ++ text "b") (text "b") := .plain hone hflag
  exact .incremental hname (by decide) hvalue

/-- A decoder that was initialised without a table and got one of 4096 octets later
    refuses a field that fits. -/
theorem decode_differs_unallocated :
    ((initializeDecoder 0).updateMaxTableSize 4096).Reachable ∧
    ¬ ((initializeDecoder 0).updateMaxTableSize 4096).MatchesReference oneLiteral 4096 ∧
    (((initializeDecoder 0).updateMaxTableSize 4096).decode ⟨8, 64, 4096⟩ oneLiteral).1 =
      .error statusInsufficientResources := by
  have hreach : ((initializeDecoder 0).updateMaxTableSize 4096).Reachable :=
    .update (.initial (by decide)) (by decide)
  have ha : ¬ ((initializeDecoder 0).updateMaxTableSize 4096).table.Allocated := by
    simp only [HpackDynamicTable.Allocated, not_not]
    decide
  have hqueue : ((initializeDecoder 0).updateMaxTableSize 4096).table.queue = ⟨[], 4096⟩ := by
    change ((HpackDynamicTable.initializeTable 0).updateMaxSize 4096).queue = _
    rw [queue_updateMaxSize (HpackDynamicTable.initializeTable_wf 0)]
    rfl
  have href : ReferenceDecodes 4096 4096 ⟨[], 4096⟩ oneLiteral []
      [.literal (.literal (text "a")) (text "b") true] [⟨text "a", text "b"⟩]
      ⟨[⟨text "a", text "b"⟩], 4096⟩ :=
    ⟨.fields (.cons oneLiteral_field .nil), by rfl, by decide⟩
  rw [← hqueue] at href
  refine ⟨hreach, not_matches_of_stores hreach (by decide) ha href ?_, by decide +kernel⟩
  rw [hqueue]
  decide

end HpackDecoder

end KernelHttp
