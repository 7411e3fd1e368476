/-
  The dictionary coder of Lempel, Ziv and Welch, over any alphabet.

  Encoder and decoder add phrases alike, the decoder one phrase later.
-/
import Mathlib.Data.List.Basic
import Mathlib.Tactic

namespace Lzw

variable {α : Type*}

/-- A token: a letter, a phrase of the dictionary, or that the dictionary is emptied. -/
inductive Token (α : Type*) where
  | literal (a : α)
  | entry (i : ℕ)
  | clear
deriving DecidableEq

/-- A dictionary takes a phrase while there is room. -/
def grow (room : ℕ) (dict : List (List α)) (w : List α) : List (List α) :=
  if dict.length < room then dict ++ [w] else dict

theorem length_grow (room : ℕ) (dict : List (List α)) (w : List α) :
    (grow room dict w).length = if dict.length < room then dict.length + 1 else dict.length := by
  rw [grow]
  split_ifs
  · rw [List.length_append, List.length_singleton]
  · rfl

variable {room k : ℕ}

theorem length_grow_le {dict : List (List α)} (h : dict.length ≤ room) (w : List α) :
    (grow room dict w).length ≤ room := by
  rw [length_grow]
  split_ifs <;> omega

/-! ## The encoder -/

section Encoder

variable [DecidableEq α]

def tokenOf (dict : List (List α)) : List α → Token α
  | [a] => .literal a
  | w => .entry (dict.idxOf w)

/-- The tokens of a text, with the dictionary, the phrase that was begun, and the places (by what
    follows them) at which the dictionary is emptied. -/
def encodeFrom (room : ℕ) (clears : List α → Bool) :
    List (List α) → List α → List α → List (Token α)
  | dict, w, [] => [tokenOf dict w]
  | dict, w, c :: rest =>
    if w ++ [c] ∈ dict then encodeFrom room clears dict (w ++ [c]) rest
    else if clears rest then tokenOf dict w :: .clear :: encodeFrom room clears [] [c] rest
    else tokenOf dict w :: encodeFrom room clears (grow room dict (w ++ [c])) [c] rest

def encode (room : ℕ) (clears : List α → Bool) : List α → List (Token α)
  | [] => []
  | a :: rest => encodeFrom room clears [] [a] rest

end Encoder

/-! ## The decoder -/

/-- The state of the decoder: its dictionary and the phrase it read last. -/
structure Decoder (α : Type*) where
  dict : List (List α) := []
  previous : Option (List α) := none

/-- The phrase of a token; one entry may be used before it is there. -/
def Decoder.phrase (d : Decoder α) : Token α → Option (List α)
  | .literal a => some [a]
  | .entry i =>
    if i < d.dict.length then d.dict[i]?
    else if i = d.dict.length then d.previous.map fun v => v ++ v.take 1
    else none
  | .clear => none

def Decoder.next (room : ℕ) (d : Decoder α) (w : List α) : Decoder α where
  dict := match d.previous with
    | none => d.dict
    | some v => grow room d.dict (v ++ w.take 1)
  previous := some w

def decode (room : ℕ) : Decoder α → List (Token α) → Option (List α)
  | _, [] => some []
  | _, .clear :: ts => decode room {} ts
  | d, t :: ts => do
    let w ← d.phrase t
    let text ← decode room (d.next room w) ts
    return w ++ text

/-! ## Decoding undoes encoding -/

/-- A phrase that was begun: a letter or a phrase of the dictionary. -/
structure Begun (dict : List (List α)) (w : List α) : Prop where
  ne_nil : w ≠ []
  known : w.length = 1 ∨ w ∈ dict

theorem begun_letter (dict : List (List α)) (a : α) : Begun dict [a] :=
  ⟨List.cons_ne_nil _ _, .inl rfl⟩

/-- The dictionary of the encoder is that of the decoder, with the phrase read last and the first
    letter of the phrase that was begun. -/
def Lags (room : ℕ) (d : Decoder α) (dict : List (List α)) (w : List α) : Prop :=
  match d.previous with
  | none => dict = d.dict
  | some v => v ≠ [] ∧ dict = grow room d.dict (v ++ w.take 1)

theorem Lags.next_dict {d : Decoder α} {dict : List (List α)} {w : List α}
    (h : Lags room d dict w) : (d.next room w).dict = dict := by
  unfold Lags at h
  unfold Decoder.next
  cases hp : d.previous with
  | none =>
    rw [hp] at h
    exact h.symm
  | some v =>
    rw [hp] at h
    exact h.2.symm

theorem decode_phrase (room : ℕ) {d : Decoder α} {t : Token α} {w : List α} (ht : t ≠ .clear)
    (h : d.phrase t = some w) (ts : List (Token α)) :
    decode room d (t :: ts) = (decode room (d.next room w) ts).map (w ++ ·) := by
  cases t with
  | literal a => simp [decode, h, Option.map_eq_bind]
  | entry i => simp [decode, h, Option.map_eq_bind]
  | clear => exact absurd rfl ht

variable [DecidableEq α]

/-- The decoder finds the phrase that the encoder meant. -/
theorem Lags.phrase_tokenOf {d : Decoder α} {dict : List (List α)} {w : List α}
    (h : Lags room d dict w) (hw : Begun dict w) : d.phrase (tokenOf dict w) = some w := by
  match w with
  | [] => exact absurd rfl hw.ne_nil
  | [a] => rfl
  | a :: b :: t =>
    have hmem : a :: b :: t ∈ dict := by
      rcases hw.known with hlen | hmem
      · simp at hlen
      · exact hmem
    show d.phrase (.entry (dict.idxOf (a :: b :: t))) = _
    have hlt := List.idxOf_lt_length_of_mem hmem
    have hget : dict[dict.idxOf (a :: b :: t)]? = some (a :: b :: t) := by
      rw [List.getElem?_eq_getElem hlt, List.getElem_idxOf]
    generalize dict.idxOf (a :: b :: t) = i at hlt hget
    unfold Lags at h
    unfold Decoder.phrase
    cases hp : d.previous with
    | none =>
      rw [hp] at h
      subst h
      simp only
      rw [if_pos hlt, hget]
    | some v =>
      rw [hp] at h
      obtain ⟨hv, rfl⟩ := h
      simp only
      by_cases hi : i < d.dict.length
      · rw [if_pos hi, ← hget, grow]
        split_ifs
        · rw [List.getElem?_append_left hi]
        · rfl
      · -- the entry that the decoder does not have yet: it starts with the letter it ends with
        rw [length_grow] at hlt
        have hroom : d.dict.length < room := by
          by_contra hroom
          rw [if_neg hroom] at hlt
          exact hi hlt
        rw [if_pos hroom] at hlt
        have hlast : i = d.dict.length := by omega
        rw [grow, if_pos hroom, hlast, List.getElem?_concat_length] at hget
        have hvw : v ++ [a] = a :: b :: t := Option.some.inj hget
        obtain ⟨c, u, rfl⟩ := List.exists_cons_of_ne_nil hv
        obtain ⟨rfl, -⟩ := List.cons.inj hvw
        rw [if_neg hi, if_pos hlast, Option.map_some, ← hvw]
        rfl

theorem tokenOf_ne_clear (dict : List (List α)) : ∀ w, tokenOf dict w ≠ .clear
  | [] => nofun
  | [_] => nofun
  | _ :: _ :: _ => nofun

/-- Decoding goes on as encoding does. -/
theorem decode_encodeFrom (room : ℕ) (clears : List α → Bool) (rest : List α) :
    ∀ {d : Decoder α} {dict : List (List α)} {w : List α}, Lags room d dict w → Begun dict w →
      decode room d (encodeFrom room clears dict w rest) = some (w ++ rest) := by
  induction rest with
  | nil =>
    intro d dict w h hw
    rw [encodeFrom, decode_phrase room (tokenOf_ne_clear dict w) (h.phrase_tokenOf hw), decode]
    rfl
  | cons c rest ih =>
    intro d dict w h hw
    have hphrase := decode_phrase room (tokenOf_ne_clear dict w) (h.phrase_tokenOf hw)
    rw [encodeFrom]
    split_ifs with hmem hclear
    · have hlags : Lags room d dict (w ++ [c]) := by
        have htake : (w ++ [c]).take 1 = w.take 1 := by
          obtain ⟨a, u, rfl⟩ := List.exists_cons_of_ne_nil hw.ne_nil
          rfl
        unfold Lags at h ⊢
        rwa [htake]
      rw [ih hlags ⟨by simp, .inr hmem⟩, List.append_assoc, List.singleton_append]
    · have hlags : Lags room {} [] [c] := rfl
      rw [hphrase, decode, ih hlags (begun_letter _ c)]
      rfl
    · have hlags : Lags room (d.next room w) (grow room dict (w ++ [c])) [c] := by
        refine ⟨hw.ne_nil, ?_⟩
        rw [h.next_dict]
        rfl
      rw [hphrase, ih hlags (begun_letter _ c)]
      rfl

/-- **Decoding undoes encoding.** -/
theorem decode_encode (room : ℕ) (clears : List α → Bool) (text : List α) :
    decode room {} (encode room clears text) = some text := by
  cases text with
  | nil => rfl
  | cons a rest => exact decode_encodeFrom room clears rest rfl (begun_letter _ a)

/-! ## The last phrase -/

/-- A decoder without empty phrases. -/
structure Decoder.Solid (d : Decoder α) : Prop where
  dict : ∀ w ∈ d.dict, w ≠ []
  previous : ∀ v, d.previous = some v → v ≠ []

omit [DecidableEq α] in
theorem solid_start : ({} : Decoder α).Solid := ⟨nofun, nofun⟩

omit [DecidableEq α] in
theorem Decoder.Solid.phrase {d : Decoder α} (h : d.Solid) {t : Token α} {w : List α}
    (hw : d.phrase t = some w) : w ≠ [] := by
  cases t with
  | literal a =>
    obtain rfl := Option.some.inj hw
    exact List.cons_ne_nil _ _
  | entry i =>
    simp only [Decoder.phrase] at hw
    split_ifs at hw
    · exact h.dict w (List.mem_of_getElem? hw)
    · obtain ⟨v, hv, rfl⟩ := Option.map_eq_some_iff.1 hw
      exact List.append_ne_nil_of_left_ne_nil (h.previous v hv) _
  | clear => cases hw

omit [DecidableEq α] in
theorem Decoder.Solid.next {d : Decoder α} (h : d.Solid) {w : List α} (hw : w ≠ []) (room : ℕ) :
    (d.next room w).Solid := by
  refine ⟨fun u hu => ?_, fun v hv => ?_⟩
  · simp only [Decoder.next] at hu
    split at hu
    · exact h.dict u hu
    · next v hv =>
      rw [grow] at hu
      split_ifs at hu
      · rcases List.mem_append.1 hu with hu | hu
        · exact h.dict u hu
        · obtain rfl := List.mem_singleton.1 hu
          exact List.append_ne_nil_of_left_ne_nil (h.previous v hv) _
      · exact h.dict u hu
  · obtain rfl := Option.some.inj hv
    exact hw

omit [DecidableEq α] in
/-- Without its last token, a text misses its end. -/
theorem decode_concat {t : Token α} (ht : t ≠ .clear) (ts : List (Token α)) :
    ∀ {d : Decoder α} {x : List α}, d.Solid → decode room d (ts ++ [t]) = some x →
      ∃ u w, decode room d ts = some u ∧ x = u ++ w ∧ w ≠ [] := by
  induction ts with
  | nil =>
    intro d x hd h
    cases hphrase : d.phrase t with
    | none =>
      cases t with
      | literal a => cases hphrase
      | entry i => simp [decode, hphrase] at h
      | clear => exact absurd rfl ht
    | some w =>
      rw [List.nil_append, decode_phrase _ ht hphrase] at h
      obtain ⟨u, hu, rfl⟩ := Option.map_eq_some_iff.1 h
      exact ⟨[], w ++ u, rfl, rfl, List.append_ne_nil_of_left_ne_nil (hd.phrase hphrase) _⟩
  | cons s ts ih =>
    intro d x hd h
    by_cases hclear : s = .clear
    · subst hclear
      exact ih solid_start h
    · cases hphrase : d.phrase s with
      | none =>
        cases s with
        | literal a => cases hphrase
        | entry i => simp [decode, hphrase] at h
        | clear => exact absurd rfl hclear
      | some w =>
        rw [List.cons_append, decode_phrase _ hclear hphrase] at h
        obtain ⟨v, hv, rfl⟩ := Option.map_eq_some_iff.1 h
        obtain ⟨u, w', hu, rfl, hw'⟩ := ih (hd.next (hd.phrase hphrase) room) hv
        refine ⟨w ++ u, w', ?_, (List.append_assoc _ _ _).symm, hw'⟩
        rw [decode_phrase _ hclear hphrase, hu]
        rfl

/-! ## The tokens that are written -/

/-- A token that an encoder may write which empties the dictionary only if it is allowed to. -/
def Token.Valid (room : ℕ) (mayClear : Prop) : Token α → Prop
  | .literal _ => True
  | .entry i => i < room
  | .clear => mayClear

theorem tokenOf_valid {mayClear : Prop} {dict : List (List α)}
    (hdict : dict.length ≤ room) {w : List α} (hw : Begun dict w) :
    (tokenOf dict w).Valid room mayClear := by
  match w with
  | [] => exact absurd rfl hw.ne_nil
  | [a] => trivial
  | a :: b :: t =>
    rcases hw.known with hlen | hmem
    · simp at hlen
    · exact lt_of_lt_of_le (List.idxOf_lt_length_of_mem hmem) hdict

theorem encodeFrom_valid {mayClear : Prop} {clears : List α → Bool}
    (hclears : ∀ rest, clears rest = true → mayClear) (rest : List α) :
    ∀ {dict : List (List α)} {w : List α}, dict.length ≤ room → Begun dict w →
      ∀ t ∈ encodeFrom room clears dict w rest, t.Valid room mayClear := by
  induction rest with
  | nil =>
    intro dict w hdict hw t ht
    obtain rfl := List.mem_singleton.1 ht
    exact tokenOf_valid hdict hw
  | cons c rest ih =>
    intro dict w hdict hw
    rw [encodeFrom]
    split_ifs with hmem hclear
    · exact ih hdict ⟨by simp, .inr hmem⟩
    · rw [List.forall_mem_cons, List.forall_mem_cons]
      exact ⟨tokenOf_valid hdict hw, hclears rest hclear, ih (Nat.zero_le _) (begun_letter _ c)⟩
    · rw [List.forall_mem_cons]
      exact ⟨tokenOf_valid hdict hw, ih (length_grow_le hdict _) (begun_letter _ c)⟩

theorem encode_valid {mayClear : Prop} {clears : List α → Bool}
    (hclears : ∀ rest, clears rest = true → mayClear) (text : List α) :
    ∀ t ∈ encode room clears text, t.Valid room mayClear := by
  cases text with
  | nil => exact nofun
  | cons a rest => exact encodeFrom_valid hclears rest (Nat.zero_le _) (begun_letter _ a)

/-! ## A text of one letter -/

/-- The dictionary behind `k` phrases of the same letter. -/
def ladder (a : α) (k : ℕ) : List (List α) := (List.range k).map fun i => List.replicate (i + 2) a

omit [DecidableEq α] in
theorem mem_ladder {a : α} {j : ℕ} :
    List.replicate (j + 1) a ∈ ladder a k ↔ 1 ≤ j ∧ j ≤ k := by
  simp only [ladder, List.mem_map, List.mem_range]
  constructor
  · rintro ⟨i, hi, heq⟩
    have := congrArg List.length heq
    simp only [List.length_replicate] at this
    omega
  · rintro ⟨h1, h2⟩
    exact ⟨j - 1, by omega, by rw [show j - 1 + 2 = j + 1 by omega]⟩

omit [DecidableEq α] in
theorem grow_ladder (hk : k < room) (a : α) :
    grow room (ladder a k) (List.replicate (k + 1) a ++ [a]) = ladder a (k + 1) := by
  have hlen : (ladder a k).length = k := by rw [ladder, List.length_map, List.length_range]
  rw [grow, hlen, if_pos hk, ladder, ladder, List.range_succ, List.map_append,
    ← List.replicate_succ']
  rfl

/-- A phrase of one letter is begun as long as the dictionary has it. -/
theorem encodeFrom_ladder_extend (room : ℕ) (clears : List α → Bool) (a : α) (m : ℕ) :
    ∀ j, j + m ≤ k → ∀ rest,
      encodeFrom room clears (ladder a k) (List.replicate (j + 1) a) (List.replicate m a ++ rest) =
        encodeFrom room clears (ladder a k) (List.replicate (j + m + 1) a) rest := by
  induction m with
  | zero => exact fun _ _ _ => rfl
  | succ m ih =>
    intro j hj rest
    have happend : List.replicate (j + 1) a ++ [a] = List.replicate (j + 1 + 1) a :=
      List.replicate_succ'.symm
    have hsplit : List.replicate (m + 1) a ++ rest = a :: (List.replicate m a ++ rest) := rfl
    rw [hsplit, encodeFrom, happend,
      if_pos (mem_ladder.2 ⟨by omega, by omega⟩), ih (j + 1) (by omega),
      show j + 1 + m + 1 = j + (m + 1) + 1 by omega]

/-- A text of one letter has one phrase of each length. -/
theorem length_encodeFrom_ladder (room : ℕ) (a : α) (n : ℕ) : ∀ {k m : ℕ}, k + n < room →
    2 * m = n * (2 * k + n + 1) →
    (encodeFrom room (fun _ => false) (ladder a k) [a] (List.replicate m a)).length = n + 1 := by
  induction n with
  | zero =>
    intro k m _ hm
    obtain rfl : m = 0 := by omega
    rfl
  | succ n ih =>
    intro k m hroom hm
    have hle : k + 1 ≤ m := by nlinarith [Nat.zero_le (n * k), Nat.zero_le (n * n)]
    obtain ⟨m', rfl⟩ : ∃ m', m = k + (1 + m') := ⟨m - k - 1, by omega⟩
    have hm' : 2 * m' = n * (2 * (k + 1) + n + 1) := by nlinarith [hm]
    have hnot : List.replicate (k + 1 + 1) a ∉ ladder a k := fun h => by
      have := (mem_ladder.1 h).2
      omega
    have happend : List.replicate (k + 1) a ++ [a] = List.replicate (k + 1 + 1) a :=
      List.replicate_succ'.symm
    rw [List.replicate_add, List.replicate_add]
    have hextend := encodeFrom_ladder_extend room (fun _ => false) a k 0
      (by omega : 0 + k ≤ k) (List.replicate 1 a ++ List.replicate m' a)
    rw [show 0 + k + 1 = k + 1 by omega] at hextend
    rw [show ([a] : List α) = List.replicate (0 + 1) a from rfl, hextend, List.replicate_one,
      List.singleton_append, encodeFrom, happend, if_neg hnot, if_neg Bool.false_ne_true,
      List.length_cons, ← happend, grow_ladder (by omega), ih (by omega) hm']

end Lzw
