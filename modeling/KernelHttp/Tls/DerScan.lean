/-
  DER elements are scanned canonically (`ReadElement`).
-/
import KernelHttp.Tls.CertificateExtensions
import KernelHttp.Tls.DirectoryNames

namespace KernelHttp.Tls

open BigEndian

/-- A tag of one octet, and the length in as few octets as there can be. -/
def derHeader (tag : UInt8) (n : ℕ) : Bytes :=
  if n < 0x80 then [tag, UInt8.ofNat n]
  else
    let octets := (bigEndian 8 n).dropWhile (· == 0)
    tag :: UInt8.ofNat (0x80 + octets.length) :: octets

variable {header data : Bytes} {tag : UInt8} {n : ℕ}

theorem header_derHeader (tag : UInt8) (hn : n < 256 ^ 8) : Header tag n (derHeader tag n) := by
  rw [derHeader]
  split_ifs with hshort
  · have hc : (UInt8.ofNat n).toNat = n := by
      rw [UInt8.toNat_ofNat']
      omega
    have hheader : Header tag _ _ := .short (hc.symm ▸ hshort)
    rwa [hc] at hheader
  · have hfew := (List.dropWhile_suffix (· == 0) (l := bigEndian 8 n)).length_le
    rw [bigEndian_length] at hfew
    refine .long ⟨hfew, ?_, not_lt.1 hshort, ?_⟩ ?_
    · rw [ofBigEndian_dropWhile, ofBigEndian_bigEndian hn]
    · intro hzero
      have hhead := List.head?_dropWhile_not (· == 0) (bigEndian 8 n)
      rw [hzero] at hhead
      cases hhead
    · rw [UInt8.toNat_ofNat']
      omega

theorem Header.lt (h : Header tag n header) : n < 256 ^ 8 := by
  cases h with
  | short h => omega
  | long hlength =>
    rw [← hlength.value]
    exact (ofBigEndian_lt _).trans_le (Nat.pow_le_pow_right (by decide) hlength.few)

theorem header_iff :
    Header tag n header ↔ n < 256 ^ 8 ∧ header = derHeader tag n := by
  constructor
  · exact fun h => ⟨h.lt, h.inj (header_derHeader tag h.lt) rfl⟩
  · rintro ⟨hn, rfl⟩
    exact header_derHeader tag hn

theorem finishElement_append (tag : UInt8) (header value rest : Bytes) :
    finishElement tag header value.length (value ++ rest) =
      .ok (⟨tag, value, header ++ value⟩, rest) := by
  have hroom : ¬ (value ++ rest).length < value.length := by
    rw [List.length_append]
    omega
  rw [finishElement, if_neg hroom, List.take_left, List.drop_left]

/-- An element behind its header is read. -/
theorem Header.read {tag : UInt8} {value header : Bytes} (h : Header tag value.length header)
    (rest : Bytes) :
    readElement (header ++ (value ++ rest)) = .ok (⟨tag, value, header ++ value⟩, rest) := by
  generalize hn : value.length = n at h
  cases h with
  | @short c hc =>
    rw [List.cons_append, List.singleton_append, readElement, if_pos hc, ← hn,
      finishElement_append]
  | @long c octets _ hlength hc =>
    have hpos : octets ≠ [] := by
      rintro rfl
      have hlong := hlength.long
      rw [← hlength.value] at hlong
      exact absurd hlong (by decide)
    have hcount : c.toNat - 0x80 = octets.length := by omega
    have hpositive := List.length_pos_iff.2 hpos
    have hfew := hlength.few
    have hhead : (octets ++ (value ++ rest)).head? = octets.head? := by
      rw [List.head?_append_of_ne_nil _ hpos]
    have hbounds : ¬ (octets.length = 0 ∨ octets.length > 8 ∨
        (octets ++ (value ++ rest)).length < octets.length) := by
      rw [List.length_append]
      omega
    have hminimal : ¬ ((octets.length > 1 ∧ octets.head? = some 0) ∨ n < 0x80) := by
      rintro (⟨-, hzero⟩ | hlong)
      · exact hlength.minimal hzero
      · exact absurd hlength.long (not_le.2 hlong)
    rw [List.cons_append, List.cons_append, readElement, if_neg (by omega)]
    dsimp only
    rw [hcount, if_neg hbounds, List.take_left, List.drop_left, hlength.value, hhead,
      if_neg hminimal, ← hn, finishElement_append]

/-- **What is read is an element with its only encoding.** -/
theorem readElement_iff {rest : Bytes} {e : DerElement} :
    readElement data = .ok (e, rest) ↔ e.value.length < 256 ^ 8 ∧
      e.full = derHeader e.tag e.value.length ++ e.value ∧ data = e.full ++ rest := by
  constructor
  · intro h
    obtain ⟨header, hheader, hfull, hdata⟩ := readElement_eq_ok h
    obtain ⟨hlength, rfl⟩ := header_iff.1 hheader
    exact ⟨hlength, hfull, hdata⟩
  · rintro ⟨hlength, hfull, rfl⟩
    have hread := (header_derHeader e.tag hlength).read rest
    rw [hfull, List.append_assoc, hread, ← hfull]

theorem two_le_derHeader (tag : UInt8) (n : ℕ) : 2 ≤ (derHeader tag n).length := by
  rw [derHeader]
  split_ifs
  · exact le_rfl
  · rw [List.length_cons, List.length_cons]
    omega

theorem elementsOf_full {elements : List DerElement}
    (h : elementsOf data = .ok elements) : (elements.map DerElement.full).flatten = data := by
  induction data using elementsOf.induct generalizing elements with
  | case1 =>
    rw [elementsOf] at h
    rw [← Except.ok.inj h]
    rfl
  | case2 c data status hread =>
    rw [elementsOf, hread] at h
    cases h
  | case3 c data e rest hread ih =>
    rw [elementsOf, hread] at h
    obtain ⟨others, hothers, hcons⟩ := Incremental.bind_eq_ok h
    obtain rfl := Except.ok.inj hcons
    rw [List.map_cons, List.flatten_cons, ih hothers]
    exact (readElement_iff.1 hread).2.2.symm

/-- **Elements are scanned canonically**, at every offset: what is read is an element in its only
encoding, of two octets at least, and the loops that end have read all of their octets. -/
theorem readElement_canonical (data : Bytes) (offset : ℕ) :
    (∀ e rest, readElement (data.drop offset) = .ok (e, rest) ↔ e.value.length < 256 ^ 8 ∧
      e.full = derHeader e.tag e.value.length ++ e.value ∧ data.drop offset = e.full ++ rest) ∧
    (∀ e rest, readElement (data.drop offset) = .ok (e, rest) →
      2 ≤ e.full.length ∧ rest = data.drop (offset + e.full.length)) ∧
    ∀ (σ : Type) (turn : σ → DerElement → Except NTSTATUS σ) s s',
      forElements turn s (data.drop offset) = .ok s' → ∃ elements : List DerElement,
        (elements.map DerElement.full).flatten = data.drop offset ∧
          elements.foldlM turn s = .ok s' := by
  refine ⟨fun e rest => readElement_iff, fun e rest h => ?_, fun σ turn s s' h => ?_⟩
  · obtain ⟨-, hfull, hdata⟩ := readElement_iff.1 h
    constructor
    · have htwo := two_le_derHeader e.tag e.value.length
      rw [hfull, List.length_append]
      omega
    · rw [← List.drop_drop, hdata, List.drop_left]
  · obtain ⟨elements, helements, hfold⟩ := forElements_eq_ok h
    exact ⟨elements, elementsOf_full helements, hfold⟩

theorem readElement_canonical_integer :
    2 ≤ [0x02, 0x01, (0x05 : UInt8)].length ∧
      ([] : Bytes) = [0x30, 0x03, 0x02, 0x01, 0x05].drop (2 + [0x02, 0x01, (0x05 : UInt8)].length) :=
  (readElement_canonical [0x30, 0x03, 0x02, 0x01, 0x05] 2).2.1
    ⟨0x02, [0x05], [0x02, 0x01, 0x05]⟩ [] (by decide)

example : derHeader 0x30 0x1234 = [0x30, 0x82, 0x12, 0x34] := by decide

end KernelHttp.Tls
