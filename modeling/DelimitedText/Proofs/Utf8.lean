import DelimitedText.Text.Utf8
import Mathlib.Tactic.SplitIfs

/-!
# Decoding is the inverse of encoding

`decodeChar` takes from the front of some bytes exactly what `String.utf8EncodeChar` writes for a character
(`decodeChar_append`, `eq_append_of_decodeChar`). Hence bytes decode to a text iff they are its encoding
(`decode_eq_ok_iff`), and distinct texts have distinct encodings.
-/

namespace DelimitedText.Utf8

/-! ## The first two bytes of a sequence -/

/-- `b` and `second` begin the sequence of a character, `more` bytes follow them, and the bits of `b` are `value`. -/
structure Begins (b second value more : Nat) : Prop where
  range : 0x80 ≤ second ∧ second ≤ 0xbf
  shape : more = 0 ∧ b = 0xc0 + value ∧ 2 ≤ value ∧ value < 0x20 ∨
    more = 1 ∧ b = 0xe0 + value ∧ value < 0x10 ∧ (value = 0 → 0xa0 ≤ second) ∧ (value = 0xd → second ≤ 0x9f) ∨
    more = 2 ∧ b = 0xf0 + value ∧ value < 5 ∧ (value = 0 → 0x90 ≤ second) ∧ (value = 4 → second ≤ 0x8f)

theorem begins_of_lead {b second : Nat} {lead : Lead} (h : lead? b = some lead) (hl : lead.low ≤ second)
    (hh : second ≤ lead.high) : Begins b second lead.value lead.more := by
  unfold lead? at h
  split_ifs at h <;> rw [Option.some.injEq] at h <;> subst h <;> dsimp only at hl hh ⊢ <;>
    exact ⟨by omega, by omega⟩

theorem Begins.exists_lead {b second value more : Nat} (h : Begins b second value more) :
    ∃ lead, lead? b = some lead ∧ lead.value = value ∧ lead.more = more ∧ lead.low ≤ second ∧
      second ≤ lead.high := by
  obtain ⟨ht, hs⟩ := h
  unfold lead?
  split_ifs <;> first | omega | exact ⟨_, rfl, by dsimp only; omega⟩

theorem decodeChar_of_begins {first second : UInt8} {value more : Nat}
    (h : Begins first.toNat second.toNat value more) (rest : List UInt8) :
    decodeChar first (second :: rest) =
      (trail (value * 64 + (second.toNat - 0x80)) 2 more rest).map fun (v, rest) => (Char.ofNat v, rest) := by
  obtain ⟨lead, hl, rfl, rfl, hlow, hhigh⟩ := h.exists_lead
  have hb : ¬ first.toNat < 0x80 := by have := h.shape; omega
  simp only [decodeChar, hb, if_false, hl, hlow, hhigh, decide_true, Bool.and_self, if_true]

theorem trail_cons {value seen n : Nat} {b : UInt8} (h : 0x80 ≤ b.toNat ∧ b.toNat ≤ 0xbf) (rest : List UInt8) :
    trail value seen (n + 1) (b :: rest) = trail (value * 64 + (b.toNat - 0x80)) (seen + 1) n rest := by
  simp [trail, isTrail, h]

theorem trail_succ_eq_ok {value seen n : Nat} {bytes : List UInt8} {r : Nat × List UInt8}
    (h : trail value seen (n + 1) bytes = .ok r) : ∃ b rest, bytes = b :: rest ∧
      (0x80 ≤ b.toNat ∧ b.toNat ≤ 0xbf) ∧ trail (value * 64 + (b.toNat - 0x80)) (seen + 1) n rest = .ok r := by
  cases bytes with
  | nil => cases h
  | cons b rest =>
    rw [trail] at h
    split at h
    · rename_i ht
      exact ⟨b, rest, rfl, by simpa [isTrail] using ht, h⟩
    · cases h

/-! ## The bytes of a character -/

section Bytes

variable {c : Char}

theorem isScalar (c : Char) : c.val.toNat < 0xd800 ∨ 0xdfff < c.val.toNat ∧ c.val.toNat < 0x110000 := by
  have := c.valid
  simpa [UInt32.isValidChar, Nat.isValidChar] using this

theorem utf8EncodeChar_one (h : c.val.toNat < 0x80) : String.utf8EncodeChar c = [UInt8.ofNat c.val.toNat] := by
  unfold String.utf8EncodeChar
  rw [if_pos (by omega)]

theorem utf8EncodeChar_two (h : 0x80 ≤ c.val.toNat) (h' : c.val.toNat < 0x800) : String.utf8EncodeChar c =
    [UInt8.ofNat (c.val.toNat / 64 % 0x20 + 0xc0), UInt8.ofNat (c.val.toNat % 0x40 + 0x80)] := by
  unfold String.utf8EncodeChar
  rw [if_neg (by omega), if_pos (by omega)]

theorem utf8EncodeChar_three (h : 0x800 ≤ c.val.toNat) (h' : c.val.toNat < 0x10000) : String.utf8EncodeChar c =
    [UInt8.ofNat (c.val.toNat / 4096 % 0x10 + 0xe0), UInt8.ofNat (c.val.toNat / 64 % 0x40 + 0x80),
      UInt8.ofNat (c.val.toNat % 0x40 + 0x80)] := by
  unfold String.utf8EncodeChar
  rw [if_neg (by omega), if_neg (by omega), if_pos (by omega)]

theorem utf8EncodeChar_four (h : 0x10000 ≤ c.val.toNat) : String.utf8EncodeChar c =
    [UInt8.ofNat (c.val.toNat / 262144 % 0x08 + 0xf0), UInt8.ofNat (c.val.toNat / 4096 % 0x40 + 0x80),
      UInt8.ofNat (c.val.toNat / 64 % 0x40 + 0x80), UInt8.ofNat (c.val.toNat % 0x40 + 0x80)] := by
  unfold String.utf8EncodeChar
  rw [if_neg (by omega), if_neg (by omega), if_neg (by omega)]

/-- A character is taken from the front of its bytes. -/
theorem decodeChar_append {first : UInt8} {tail : List UInt8} (h : String.utf8EncodeChar c = first :: tail)
    (rest : List UInt8) : decodeChar first (tail ++ rest) = .ok (c, rest) := by
  have scalar := isScalar c
  have back : ∀ v, v = c.val.toNat → Char.ofNat v = c := by rintro v rfl; exact Char.ofNat_toNat c
  by_cases h₁ : c.val.toNat < 0x80
  · rw [utf8EncodeChar_one h₁] at h
    obtain ⟨rfl, rfl⟩ := List.cons.inj h
    have hb : (UInt8.ofNat c.val.toNat).toNat = c.val.toNat := by rw [UInt8.toNat_ofNat']; omega
    simp only [decodeChar, hb, h₁, if_true, List.nil_append, back _ rfl]
  by_cases h₂ : c.val.toNat < 0x800
  · rw [utf8EncodeChar_two (by omega) h₂] at h
    obtain ⟨rfl, rfl⟩ := List.cons.inj h
    have hb : Begins (UInt8.ofNat (c.val.toNat / 64 % 0x20 + 0xc0)).toNat
        (UInt8.ofNat (c.val.toNat % 0x40 + 0x80)).toNat (c.val.toNat / 64) 0 := by
      simp only [UInt8.toNat_ofNat']
      exact ⟨by omega, by omega⟩
    rw [List.cons_append, decodeChar_of_begins hb]
    simp only [trail, Except.map, UInt8.toNat_ofNat', List.nil_append]
    rw [back _ (by omega)]
  by_cases h₃ : c.val.toNat < 0x10000
  · rw [utf8EncodeChar_three (by omega) h₃] at h
    obtain ⟨rfl, rfl⟩ := List.cons.inj h
    have hb : Begins (UInt8.ofNat (c.val.toNat / 4096 % 0x10 + 0xe0)).toNat
        (UInt8.ofNat (c.val.toNat / 64 % 0x40 + 0x80)).toNat (c.val.toNat / 4096) 1 := by
      simp only [UInt8.toNat_ofNat']
      exact ⟨by omega, by omega⟩
    rw [List.cons_append, decodeChar_of_begins hb, List.cons_append, trail_cons (by rw [UInt8.toNat_ofNat']; omega)]
    simp only [trail, Except.map, UInt8.toNat_ofNat', List.nil_append]
    rw [back _ (by omega)]
  · rw [utf8EncodeChar_four (by omega)] at h
    obtain ⟨rfl, rfl⟩ := List.cons.inj h
    have hb : Begins (UInt8.ofNat (c.val.toNat / 262144 % 0x08 + 0xf0)).toNat
        (UInt8.ofNat (c.val.toNat / 4096 % 0x40 + 0x80)).toNat (c.val.toNat / 262144) 2 := by
      simp only [UInt8.toNat_ofNat']
      exact ⟨by omega, by omega⟩
    rw [List.cons_append, decodeChar_of_begins hb, List.cons_append, trail_cons (by rw [UInt8.toNat_ofNat']; omega),
      List.cons_append, trail_cons (by rw [UInt8.toNat_ofNat']; omega)]
    simp only [trail, Except.map, UInt8.toNat_ofNat', List.nil_append]
    rw [back _ (by omega)]

/-- The value of a character gives the character. -/
theorem toNat_of_ofNat {v : Nat} (hv : v < 0xd800 ∨ 0xdfff < v ∧ v < 0x110000) (hc : Char.ofNat v = c) :
    c.val.toNat = v := by
  subst hc
  have : v.isValidChar := by simpa [Nat.isValidChar] using hv
  rw [Char.ofNat, dif_pos this]
  rfl

/-- The bytes of a sequence are those of the character that it spells. -/
theorem eq_append_of_begins {first second : UInt8} {value more v : Nat} {tail rest : List UInt8}
    (h : Begins first.toNat second.toNat value more)
    (ht : trail (value * 64 + (second.toNat - 0x80)) 2 more tail = .ok (v, rest)) (hc : Char.ofNat v = c) :
    first :: second :: tail = String.utf8EncodeChar c ++ rest := by
  have byte : ∀ (b : UInt8) (n : Nat), b.toNat = n → UInt8.ofNat n = b := by
    rintro b n rfl
    simp
  obtain ⟨hr, shape⟩ := h
  rcases shape with ⟨rfl, hf, hv⟩ | ⟨rfl, hf, hv⟩ | ⟨rfl, hf, hv⟩
  · simp only [trail, Except.ok.injEq, Prod.mk.injEq] at ht
    obtain ⟨rfl, rfl⟩ := ht
    have hv := toNat_of_ofNat (by omega) hc
    rw [utf8EncodeChar_two (by omega) (by omega), byte first _ (by omega), byte second _ (by omega)]
    rfl
  · obtain ⟨b₃, tail, rfl, h₃, ht⟩ := trail_succ_eq_ok ht
    simp only [trail, Except.ok.injEq, Prod.mk.injEq] at ht
    obtain ⟨rfl, rfl⟩ := ht
    have hv := toNat_of_ofNat (by omega) hc
    rw [utf8EncodeChar_three (by omega) (by omega), byte first _ (by omega), byte second _ (by omega),
      byte b₃ _ (by omega)]
    rfl
  · obtain ⟨b₃, tail, rfl, h₃, ht⟩ := trail_succ_eq_ok ht
    obtain ⟨b₄, tail, rfl, h₄, ht⟩ := trail_succ_eq_ok ht
    simp only [trail, Except.ok.injEq, Prod.mk.injEq] at ht
    obtain ⟨rfl, rfl⟩ := ht
    have hv := toNat_of_ofNat (by omega) hc
    rw [utf8EncodeChar_four (by omega), byte first _ (by omega), byte second _ (by omega), byte b₃ _ (by omega),
      byte b₄ _ (by omega)]
    rfl

/-- What is taken as a character is the bytes of that character. -/
theorem eq_append_of_decodeChar {first : UInt8} {tail rest : List UInt8} (h : decodeChar first tail = .ok (c, rest)) :
    first :: tail = String.utf8EncodeChar c ++ rest := by
  unfold decodeChar at h
  split at h
  · rename_i h₁
    simp only [Except.ok.injEq, Prod.mk.injEq] at h
    obtain ⟨hc, rfl⟩ := h
    have hv := toNat_of_ofNat (by omega) hc
    have byte : UInt8.ofNat c.val.toNat = first := by
      rw [hv]
      simp
    rw [utf8EncodeChar_one (by omega), byte]
    rfl
  split at h
  · cases h
  · cases h
  rename_i lead second tail hl
  split at h
  · rename_i hs
    simp only [Bool.and_eq_true, decide_eq_true_eq] at hs
    cases ht : trail (lead.value * 64 + (second.toNat - 0x80)) 2 lead.more tail with
    | error fault => rw [ht] at h; cases h
    | ok spelled =>
      rw [ht] at h
      obtain ⟨hc, rfl⟩ := Prod.mk.inj (Except.ok.inj h)
      exact eq_append_of_begins (begins_of_lead hl hs.1 hs.2) ht hc
  · cases h

end Bytes

/-! ## Whole texts -/

theorem encode_cons (c : Char) (text : List Char) : encode (c :: text) = String.utf8EncodeChar c ++ encode text := rfl

theorem encode_append (a b : List Char) : encode (a ++ b) = encode a ++ encode b := List.flatMap_append

theorem encode_eq_nil {text : List Char} : encode text = [] ↔ text = [] := by
  constructor
  · intro h
    cases text with
    | nil => rfl
    | cons c text =>
      rw [encode_cons] at h
      exact absurd (List.append_eq_nil_iff.1 h).1 String.utf8EncodeChar_ne_nil
  · intro h
    rw [h]
    rfl

theorem decodeFrom_encode (text : List Char) (index : Nat) : decodeFrom index (encode text) = .ok text := by
  induction text generalizing index with
  | nil => rw [encode, List.flatMap_nil, decodeFrom]
  | cons c text ih =>
    obtain ⟨first, tail, h⟩ : ∃ first tail, String.utf8EncodeChar c = first :: tail :=
      List.exists_cons_of_ne_nil String.utf8EncodeChar_ne_nil
    rw [encode_cons, h, List.cons_append, decodeFrom]
    split
    · rename_i hd; rw [decodeChar_append h] at hd; cases hd
    · rename_i hd
      rw [decodeChar_append h] at hd
      cases hd
      rw [ih]
      rfl

theorem eq_encode_of_decodeFrom {index : Nat} {bytes : List UInt8} {text : List Char}
    (h : decodeFrom index bytes = .ok text) : bytes = encode text := by
  fun_induction decodeFrom index bytes generalizing text with
  | case1 => cases h; rfl
  | case2 => cases h
  | case3 index first tail c rest hc ih =>
    cases hr : decodeFrom (index + (tail.length + 1 - rest.length)) rest with
    | error e => rw [hr] at h; cases h
    | ok more =>
      rw [hr] at h
      cases h
      rw [eq_append_of_decodeChar hc, ih hr, encode_cons]

/-- **Decoding is the inverse of encoding.** -/
theorem decode_eq_ok_iff {bytes : List UInt8} {text : List Char} : decode bytes = .ok text ↔ bytes = encode text := by
  constructor
  · exact eq_encode_of_decodeFrom
  · intro h
    rw [h]
    exact decodeFrom_encode text 0

theorem encode_injective {a b : List Char} (h : encode a = encode b) : a = b := by
  have := decodeFrom_encode a 0
  rw [h, decodeFrom_encode] at this
  exact (Except.ok.inj this).symm

end DelimitedText.Utf8
