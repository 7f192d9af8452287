/-!
# Bytes as text

`encode` writes a text in UTF-8 and `decode` reads it. A fault in the bytes is reported by the place where the longest
valid beginning ends and, unless the bytes end there too early, by how many bytes make up the faulty sequence.
-/

namespace DelimitedText.Utf8

/-- Where bytes stop being UTF-8. -/
structure Fault where
  /-- the number of bytes before the fault -/
  index : Nat
  /-- the length of the faulty sequence; `none` if the bytes end within a sequence that could go on -/
  length : Option Nat
  deriving Repr, DecidableEq

/-- The wording of a fault. -/
def Fault.message (f : Fault) : String :=
  let index := f.index
  match f.length with
  | some length => s!"invalid utf-8 sequence of {length} bytes from index {index}"
  | none => s!"incomplete utf-8 byte sequence from index {index}"

/-- The bytes of a text. -/
def encode (text : List Char) : List UInt8 :=
  text.flatMap String.utf8EncodeChar

/-! ## Reading one character -/

/-- What the first byte of a sequence of several bytes says about the rest. -/
structure Lead where
  /-- the bits that it contributes -/
  value : Nat
  /-- the least second byte, so that no shorter sequence would do -/
  low : Nat
  /-- the greatest second byte, so that the sequence stands for a character -/
  high : Nat
  /-- the number of bytes after the second -/
  more : Nat
  deriving Repr, DecidableEq

/-- The first byte `b` of a sequence of two to four bytes. -/
def lead? (b : Nat) : Option Lead :=
  if b < 0xc2 then none
  else if b ≤ 0xdf then some ⟨b - 0xc0, 0x80, 0xbf, 0⟩
  else if b = 0xe0 then some ⟨0x0, 0xa0, 0xbf, 1⟩
  else if b = 0xed then some ⟨0xd, 0x80, 0x9f, 1⟩
  else if b ≤ 0xef then some ⟨b - 0xe0, 0x80, 0xbf, 1⟩
  else if b = 0xf0 then some ⟨0x0, 0x90, 0xbf, 2⟩
  else if b = 0xf4 then some ⟨0x4, 0x80, 0x8f, 2⟩
  else if b ≤ 0xf3 then some ⟨b - 0xf0, 0x80, 0xbf, 2⟩
  else none

/-- Whether `b` may stand at the third or fourth place of a sequence. -/
def isTrail (b : Nat) : Bool :=
  0x80 ≤ b && b ≤ 0xbf

/-- Takes the last `n` bytes of a sequence of which `seen` bytes gave `value`; on a fault, how long the sequence is. -/
def trail (value seen : Nat) : Nat → List UInt8 → Except (Option Nat) (Nat × List UInt8)
  | 0, rest => .ok (value, rest)
  | _ + 1, [] => .error none
  | n + 1, b :: rest =>
    if isTrail b.toNat then trail (value * 64 + (b.toNat - 0x80)) (seen + 1) n rest else .error (some seen)

/-- Takes the character whose first byte is `first`; on a fault, how long the faulty sequence is. -/
def decodeChar (first : UInt8) (rest : List UInt8) : Except (Option Nat) (Char × List UInt8) :=
  if first.toNat < 0x80 then .ok (Char.ofNat first.toNat, rest)
  else
    match lead? first.toNat, rest with
    | none, _ => .error (some 1)
    | some _, [] => .error none
    | some lead, second :: rest =>
      if lead.low ≤ second.toNat && second.toNat ≤ lead.high then
        (trail (lead.value * 64 + (second.toNat - 0x80)) 2 lead.more rest).map fun (value, rest) =>
          (Char.ofNat value, rest)
      else .error (some 1)

theorem length_trail {value seen n : Nat} {bytes : List UInt8} {value' : Nat} {rest : List UInt8}
    (h : trail value seen n bytes = .ok (value', rest)) : rest.length ≤ bytes.length := by
  induction n generalizing value seen bytes with
  | zero => simp only [trail, Except.ok.injEq, Prod.mk.injEq] at h; simp [h.2]
  | succ n ih =>
    cases bytes with
    | nil => simp [trail] at h
    | cons b bytes =>
      simp only [trail] at h
      split at h
      · exact Nat.le_succ_of_le (ih h)
      · simp at h

theorem length_decodeChar {first : UInt8} {bytes : List UInt8} {c : Char} {rest : List UInt8}
    (h : decodeChar first bytes = .ok (c, rest)) : rest.length ≤ bytes.length := by
  unfold decodeChar at h
  split at h
  · simp only [Except.ok.injEq, Prod.mk.injEq] at h; simp [h.2]
  · split at h
    · simp at h
    · simp at h
    · split at h
      · rename_i lead second bytes _ _
        cases ht : trail (lead.value * 64 + (second.toNat - 0x80)) 2 lead.more bytes with
        | error e => simp [ht, Except.map] at h
        | ok p =>
          simp only [ht, Except.map, Except.ok.injEq, Prod.mk.injEq] at h
          have := length_trail ht
          simp only [List.length_cons, ← h.2]
          omega
      · simp at h

/-! ## Reading a text -/

/-- The text of bytes that begin `index` bytes into the whole. -/
def decodeFrom (index : Nat) (bytes : List UInt8) : Except Fault (List Char) :=
  match bytes with
  | [] => .ok []
  | first :: tail =>
    match h : decodeChar first tail with
    | .error length => .error ⟨index, length⟩
    | .ok (c, rest) => (decodeFrom (index + (tail.length + 1 - rest.length)) rest).map (c :: ·)
  termination_by bytes.length
  decreasing_by
    have := length_decodeChar h
    simp only [List.length_cons]
    omega

/-- The text of the bytes. -/
def decode (bytes : List UInt8) : Except Fault (List Char) :=
  decodeFrom 0 bytes

theorem length_decodeFrom {index : Nat} {bytes : List UInt8} {text : List Char}
    (h : decodeFrom index bytes = .ok text) : text.length ≤ bytes.length := by
  fun_induction decodeFrom index bytes generalizing text with
  | case1 => simp only [Except.ok.injEq] at h; simp [← h]
  | case2 => simp at h
  | case3 index first tail c rest hc ih =>
    cases hr : decodeFrom (index + (tail.length + 1 - rest.length)) rest with
    | error e => simp [hr, Except.map] at h
    | ok more =>
      simp only [hr, Except.map, Except.ok.injEq] at h
      have := ih hr
      have := length_decodeChar hc
      simp only [← h, List.length_cons]
      omega

/-- A text has no more characters than bytes. -/
theorem length_decode {bytes : List UInt8} {text : List Char} (h : decode bytes = .ok text) :
    text.length ≤ bytes.length :=
  length_decodeFrom h

end DelimitedText.Utf8
