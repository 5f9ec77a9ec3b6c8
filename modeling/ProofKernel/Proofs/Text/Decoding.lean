import ProofKernel.Text.Symbol

/-!
# Bytes and their symbols

Reading bytes as symbols loses nothing, and the symbols before any place in a text are what the
bytes before it are read as.

* `Symbol.Spells` lists the bytes a character is read from; they are its UTF-8 encoding, and
  `Symbol.decodeChar?` reads nothing else.
* `Symbol.encode_decode`: a text is read from its bytes.
* `Symbol.Legible` is a text that its own bytes are read as.  A part of one is one
  (`Symbol.Legible.of_append`).
-/

set_option autoImplicit false
namespace ProofKernel
namespace Symbol

/-! ## One character -/

/-- The bytes a character is read from. -/
inductive Spells : List UInt8 → Char → Prop
  | one {a : UInt8} (ha : a < 0x80) : Spells [a] (Char.ofNat a.toNat)
  | two {a b : UInt8} (ha : 0xC2 ≤ a) (ha' : a ≤ 0xDF) (hb : isTail b = true) :
      Spells [a, b] (Char.ofNat (a.toNat % 32 * 64 + tailBits b))
  | three {a b c : UInt8} (ha : 0xE0 ≤ a) (ha' : a ≤ 0xEF)
      (hb : (if a = 0xE0 then 0xA0 else 0x80) ≤ b) (hb' : b ≤ if a = 0xED then 0x9F else 0xBF)
      (hc : isTail c = true) :
      Spells [a, b, c] (Char.ofNat ((a.toNat % 16 * 64 + tailBits b) * 64 + tailBits c))
  | four {a b c d : UInt8} (ha : 0xF0 ≤ a) (ha' : a ≤ 0xF4)
      (hb : (if a = 0xF0 then 0x90 else 0x80) ≤ b) (hb' : b ≤ if a = 0xF4 then 0x8F else 0xBF)
      (hc : isTail c = true) (hd : isTail d = true) :
      Spells [a, b, c, d]
        (Char.ofNat (((a.toNat % 8 * 64 + tailBits b) * 64 + tailBits c) * 64 + tailBits d))

/-- A byte in the range of a longer form is in no range of a shorter one. -/
theorem not_le_of_lt_of_le {a low high : UInt8} (hlow : low ≤ a) (h : high < low) : ¬ a ≤ high := by
  simp only [UInt8.le_iff_toNat_le, UInt8.lt_iff_toNat_lt] at *
  omega

theorem not_lt_of_le_of_le {a low high : UInt8} (hlow : low ≤ a) (h : high ≤ low) : ¬ a < high := by
  simp only [UInt8.le_iff_toNat_le, UInt8.lt_iff_toNat_lt] at *
  omega

theorem Spells.decodeChar? {p : List UInt8} {c : Char} (h : Spells p c) (rest : List UInt8) :
    decodeChar? (p ++ rest) = some (c, rest) := by
  cases h with
  | one ha => simp [Symbol.decodeChar?, ha]
  | @two a _ ha ha' hb =>
    have h1 : ¬ a < 0x80 := not_lt_of_le_of_le ha (by decide)
    simp [Symbol.decodeChar?, ha, ha', hb, h1]
  | @three a _ _ ha ha' hb hb' hc =>
    have h1 : ¬ a < 0x80 := not_lt_of_le_of_le ha (by decide)
    have h2 : ¬ a ≤ 0xDF := not_le_of_lt_of_le ha (by decide)
    simp [Symbol.decodeChar?, ha, ha', hb, hb', hc, h1, h2]
  | @four a _ _ _ ha ha' hb hb' hc hd =>
    have h1 : ¬ a < 0x80 := not_lt_of_le_of_le ha (by decide)
    have h2 : ¬ a ≤ 0xDF := not_le_of_lt_of_le ha (by decide)
    have h3 : ¬ a ≤ 0xEF := not_le_of_lt_of_le ha (by decide)
    simp [Symbol.decodeChar?, ha, ha', hb, hb', hc, hd, h1, h2, h3]

theorem spells_of_decodeChar? {bytes rest : List UInt8} {c : Char}
    (h : decodeChar? bytes = some (c, rest)) : ∃ p, Spells p c ∧ bytes = p ++ rest := by
  unfold Symbol.decodeChar? at h
  split at h
  · cases h
  next a tail =>
  split at h
  · next ha =>
    cases h
    exact ⟨_, .one ha, rfl⟩
  split at h
  · next ha =>
    simp only [Bool.and_eq_true, decide_eq_true_eq] at ha
    split at h
    · rw [Option.ite_none_right_eq_some] at h
      obtain ⟨hb, h⟩ := h
      cases h
      exact ⟨_, .two ha.1 ha.2 hb, rfl⟩
    · cases h
  split at h
  · next ha =>
    simp only [Bool.and_eq_true, decide_eq_true_eq] at ha
    split at h
    · simp only [Option.ite_none_right_eq_some, Bool.and_eq_true, decide_eq_true_eq,
        beq_iff_eq] at h
      obtain ⟨⟨⟨hb, hb'⟩, hc⟩, h⟩ := h
      cases h
      exact ⟨_, .three ha.1 ha.2 hb hb' hc, rfl⟩
    · cases h
  split at h
  · next ha =>
    simp only [Bool.and_eq_true, decide_eq_true_eq] at ha
    split at h
    · simp only [Option.ite_none_right_eq_some, Bool.and_eq_true, decide_eq_true_eq,
        beq_iff_eq] at h
      obtain ⟨⟨⟨⟨hb, hb'⟩, hc⟩, hd⟩, h⟩ := h
      cases h
      exact ⟨_, .four ha.1 ha.2 hb hb' hc hd, rfl⟩
    · cases h
  · cases h

/-! ## The encoding of a character -/

theorem isTail_iff {b : UInt8} : isTail b = true ↔ 0x80 ≤ b.toNat ∧ b.toNat ≤ 0xBF := by
  simp only [isTail, Bool.and_eq_true, decide_eq_true_eq, UInt8.le_iff_toNat_le]
  rfl

/-- The range of a second byte may begin later after one of the first bytes. -/
theorem low_le {a first low b : UInt8} (h : (if a = first then low else 0x80) ≤ b)
    (hlow : 0x80 ≤ low) :
    0x80 ≤ b.toNat ∧ (a.toNat = first.toNat → low.toNat ≤ b.toNat) := by
  split at h
  · exact ⟨Nat.le_trans hlow h, fun _ => h⟩
  · next ha => exact ⟨h, fun heq => absurd (UInt8.toNat_inj.1 heq) ha⟩

/-- The range of a second byte may end sooner after one of the first bytes. -/
theorem le_high {a first high b : UInt8} (h : b ≤ if a = first then high else 0xBF)
    (hhigh : high ≤ 0xBF) :
    b.toNat ≤ 0xBF ∧ (a.toNat = first.toNat → b.toNat ≤ high.toNat) := by
  split at h
  · exact ⟨Nat.le_trans h hhigh, fun _ => h⟩
  · next ha => exact ⟨h, fun heq => absurd (UInt8.toNat_inj.1 heq) ha⟩

theorem val_ofNat {n : Nat} (h : n.isValidChar) : (Char.ofNat n).val.toNat = n := by
  rw [Char.ofNat, dif_pos h]
  rfl

/-- The bytes a character is read from are its encoding. -/
theorem Spells.eq_utf8EncodeChar {p : List UInt8} {c : Char} (h : Spells p c) :
    p = String.utf8EncodeChar c := by
  cases h with
  | @one a ha =>
    have ha : a.toNat < 0x80 := ha
    have hval := val_ofNat (n := a.toNat) (.inl (by omega))
    simp only [String.utf8EncodeChar, hval]
    rw [if_pos (by omega)]
    simp
  | @two a b ha ha' hb =>
    have ha : 0xC2 ≤ a.toNat := ha
    have ha' : a.toNat ≤ 0xDF := ha'
    obtain ⟨hb, hb'⟩ := isTail_iff.1 hb
    have hval := val_ofNat (n := a.toNat % 32 * 64 + tailBits b) (.inl (by unfold tailBits; omega))
    simp only [String.utf8EncodeChar, hval]
    unfold tailBits
    rw [if_neg (by omega), if_pos (by omega)]
    simp [← UInt8.toNat_inj]
    omega
  | @three a b c ha ha' hb hb' hc =>
    have ha : 0xE0 ≤ a.toNat := ha
    have ha' : a.toNat ≤ 0xEF := ha'
    obtain ⟨hb, hlow⟩ := low_le hb (by decide)
    obtain ⟨hb', hhigh⟩ := le_high hb' (by decide)
    obtain ⟨hc, hc'⟩ := isTail_iff.1 hc
    have hval := val_ofNat (n := (a.toNat % 16 * 64 + tailBits b) * 64 + tailBits c) <| by
      unfold Nat.isValidChar tailBits
      simp at hlow hhigh
      omega
    simp only [String.utf8EncodeChar, hval]
    simp at hlow
    unfold tailBits
    rw [if_neg (by omega), if_neg (by omega), if_pos (by omega)]
    simp [← UInt8.toNat_inj]
    omega
  | @four a b c d ha ha' hb hb' hc hd =>
    have ha : 0xF0 ≤ a.toNat := ha
    have ha' : a.toNat ≤ 0xF4 := ha'
    obtain ⟨hb, hlow⟩ := low_le hb (by decide)
    obtain ⟨hb', hhigh⟩ := le_high hb' (by decide)
    obtain ⟨hc, hc'⟩ := isTail_iff.1 hc
    obtain ⟨hd, hd'⟩ := isTail_iff.1 hd
    have hval := val_ofNat
        (n := ((a.toNat % 8 * 64 + tailBits b) * 64 + tailBits c) * 64 + tailBits d) <| by
      unfold Nat.isValidChar tailBits
      simp at hlow hhigh
      omega
    simp only [String.utf8EncodeChar, hval]
    simp at hlow
    unfold tailBits
    rw [if_neg (by omega), if_neg (by omega), if_neg (by omega)]
    simp [← UInt8.toNat_inj]
    omega

/-- **A character is read from its encoding**, and then from the encoding before anything else. -/
theorem decodeChar?_eq_some {bytes rest : List UInt8} {c : Char}
    (h : decodeChar? bytes = some (c, rest)) :
    bytes = Symbol.bytes (.char c) ++ rest ∧
      ∀ rest', decodeChar? (Symbol.bytes (.char c) ++ rest') = some (c, rest') := by
  obtain ⟨p, hp, rfl⟩ := spells_of_decodeChar? h
  obtain rfl := hp.eq_utf8EncodeChar
  exact ⟨rfl, hp.decodeChar?⟩

/-- What no character begins, no character begins when it is cut short. -/
theorem decodeChar?_eq_none_of_append {bytes rest : List UInt8}
    (h : decodeChar? (bytes ++ rest) = none) : decodeChar? bytes = none := by
  cases hbytes : decodeChar? bytes with
  | none => rfl
  | some found =>
    obtain ⟨c, after⟩ := found
    obtain ⟨rfl, hagain⟩ := decodeChar?_eq_some hbytes
    rw [List.append_assoc, hagain] at h
    cases h

/-! ## Texts -/

@[simp] theorem encode_nil : encode [] = [] := rfl

@[simp] theorem encode_cons (s : Symbol) (text : Text) :
    encode (s :: text) = s.bytes ++ encode text :=
  List.flatMap_cons

@[simp] theorem encode_append (text more : Text) :
    encode (text ++ more) = encode text ++ encode more :=
  List.flatMap_append

theorem length_bytes (s : Symbol) : s.bytes.length = s.width := by
  cases s with
  | char c => exact String.length_utf8EncodeChar c
  | stray b => rfl

theorem width_pos (s : Symbol) : 0 < s.width := by
  cases s with
  | char c => exact c.utf8Size_pos
  | stray b => exact Nat.one_pos

theorem decode_nil : decode [] = [] := by
  rw [decode]

theorem decode_char {bytes rest : List UInt8} {c : Char} (h : decodeChar? bytes = some (c, rest)) :
    decode bytes = .char c :: decode rest := by
  rw [decode.eq_def]
  split
  · cases h
  · split
    · next heq =>
      rw [h] at heq
      cases heq
      rfl
    · next heq =>
      rw [h] at heq
      cases heq

theorem decode_stray {b : UInt8} {tail : List UInt8} (h : decodeChar? (b :: tail) = none) :
    decode (b :: tail) = .stray b :: decode tail := by
  rw [decode]
  split
  · next heq =>
    rw [h] at heq
    cases heq
  · rfl

/-- **Reading bytes as symbols loses nothing.** -/
theorem encode_decode (bytes : List UInt8) : encode (decode bytes) = bytes := by
  fun_induction decode bytes with
  | case1 => rfl
  | case2 b tail c rest h ih => rw [encode_cons, ih, ← (decodeChar?_eq_some h).1]
  | case3 b tail h ih => rw [encode_cons, ih, bytes, List.singleton_append]

/-- A text that its own bytes are read as. -/
def Legible (text : Text) : Prop :=
  decode (encode text) = text

instance (text : Text) : Decidable (Legible text) :=
  inferInstanceAs (Decidable (decode (encode text) = text))

theorem legible_decode (bytes : List UInt8) : Legible (decode bytes) := by
  rw [Legible, encode_decode]

/-- The symbols before and after a place are read from the bytes before and after it. -/
theorem Legible.of_append {before after : Text} (h : Legible (before ++ after)) :
    Legible before ∧ Legible after := by
  induction before with
  | nil => exact ⟨decode_nil, h⟩
  | cons s before ih =>
    rw [Legible, List.cons_append, encode_cons] at h
    cases hbytes : decodeChar? (s.bytes ++ encode (before ++ after)) with
    | some found =>
      obtain ⟨c, rest⟩ := found
      rw [decode_char hbytes] at h
      obtain ⟨rfl, hrest⟩ := List.cons.inj h
      obtain ⟨hsplit, hagain⟩ := decodeChar?_eq_some hbytes
      obtain rfl := List.append_cancel_left hsplit
      obtain ⟨hbefore, hafter⟩ := ih hrest
      refine ⟨?_, hafter⟩
      rw [Legible, encode_cons, decode_char (hagain _), hbefore]
    | none =>
      obtain ⟨b, tail, hcons⟩ : ∃ b tail, s.bytes = b :: tail :=
        List.exists_cons_of_length_pos (by rw [length_bytes]; exact width_pos s)
      rw [hcons, List.cons_append] at h hbytes
      rw [decode_stray hbytes] at h
      obtain ⟨rfl, hrest⟩ := List.cons.inj h
      obtain ⟨_, rfl⟩ := List.cons.inj hcons
      obtain ⟨hbefore, hafter⟩ := ih hrest
      refine ⟨?_, hafter⟩
      rw [encode_append, List.nil_append, ← List.cons_append] at hbytes
      rw [Legible, encode_cons, bytes, List.singleton_append,
        decode_stray (decodeChar?_eq_none_of_append hbytes), hbefore]

end Symbol
end ProofKernel
