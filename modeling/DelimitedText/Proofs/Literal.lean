import DelimitedText.Line.Format

/-!
# Line breaks and their literals

A literal is a backslash with `n` or `r`, which stands for a line feed or a carriage return. `decodeLiterals` puts line
breaks for literals and `encodeBreaks` literals for line breaks; decoding does not tell an encoded break from a literal
that was there before (`decodeLiterals_encodeBreaks`), and leaves exactly the texts without literals as they are
(`decodeLiterals_eq_self_iff`).
-/

namespace DelimitedText

/-- A text with a line break in place of each literal. -/
def decodeLiterals : List Char → List Char
  | '\\' :: 'n' :: rest => '\n' :: decodeLiterals rest
  | '\\' :: 'r' :: rest => '\r' :: decodeLiterals rest
  | c :: rest => c :: decodeLiterals rest
  | [] => []

/-- A text with a literal in place of each line break. -/
def encodeBreaks (value : List Char) : List Char :=
  value.flatMap fun c => if c = '\r' then ['\\', 'r'] else if c = '\n' then ['\\', 'n'] else [c]

/-- Whether a literal occurs in a text. -/
def HasLiteral (value : List Char) : Prop :=
  ['\\', 'n'] <:+: value ∨ ['\\', 'r'] <:+: value

instance (value : List Char) : Decidable (HasLiteral value) :=
  inferInstanceAs (Decidable (_ ∨ _))

namespace LineBreaks

/-- What a policy makes of the text between quotes when it reads. -/
def decode : LineBreaks → List Char → List Char
  | .escaped => decodeLiterals
  | .raw => id

/-- What a policy makes of a text when it writes it between quotes. -/
def encode : LineBreaks → List Char → List Char
  | .escaped => encodeBreaks
  | .raw => id

end LineBreaks

/-! ## Decoding character by character -/

theorem decodeLiterals_cons {c : Char} (hc : c ≠ '\\') (rest : List Char) :
    decodeLiterals (c :: rest) = c :: decodeLiterals rest :=
  decodeLiterals.eq_3 c rest (fun _ h => absurd h hc) (fun _ h => absurd h hc)

theorem decodeLiterals_backslash {rest : List Char} (hn : rest.head? ≠ some 'n') (hr : rest.head? ≠ some 'r') :
    decodeLiterals ('\\' :: rest) = '\\' :: decodeLiterals rest :=
  decodeLiterals.eq_3 '\\' rest (fun _ _ h => hn (by simp [h])) (fun _ _ h => hr (by simp [h]))

theorem encodeBreaks_cons (c : Char) (rest : List Char) : encodeBreaks (c :: rest) =
    (if c = '\r' then ['\\', 'r'] else if c = '\n' then ['\\', 'n'] else [c]) ++ encodeBreaks rest := rfl

/-- The first character of an encoded text is a backslash or that of the text. -/
theorem head?_encodeBreaks {value : List Char} {c : Char} (h : (encodeBreaks value).head? = some c) :
    c = '\\' ∨ value.head? = some c := by
  cases value with
  | nil => cases h
  | cons x value =>
    rw [encodeBreaks_cons] at h
    by_cases hr : x = '\r'
    · rw [if_pos hr] at h; cases h; exact .inl rfl
    · by_cases hn : x = '\n'
      · rw [if_neg hr, if_pos hn] at h; cases h; exact .inl rfl
      · rw [if_neg hr, if_neg hn] at h; exact .inr h

/-- Decoding does not see whether a line break was encoded before. -/
theorem decodeLiterals_encodeBreaks (value : List Char) :
    decodeLiterals (encodeBreaks value) = decodeLiterals value := by
  fun_induction decodeLiterals value with
  | case1 rest ih => simp [encodeBreaks_cons, decodeLiterals, ih]
  | case2 rest ih => simp [encodeBreaks_cons, decodeLiterals, ih]
  | case3 c rest hn hr ih =>
    rw [encodeBreaks_cons]
    by_cases h₁ : c = '\r'
    · simp [h₁, decodeLiterals, ih]
    by_cases h₂ : c = '\n'
    · simp [h₂, decodeLiterals, ih]
    rw [if_neg h₁, if_neg h₂, List.singleton_append]
    by_cases hc : c = '\\'
    · subst hc
      -- the letter that would make a literal of the backslash was behind it before encoding
      have letter : ∀ x, (∀ tail, '\\' = '\\' → rest = x :: tail → False) → x ≠ '\\' →
          (encodeBreaks rest).head? ≠ some x := by
        intro x hx hne h
        rcases head?_encodeBreaks h with rfl | h
        · exact hne rfl
        · obtain ⟨tail, ht⟩ := List.head?_eq_some_iff.1 h
          exact hx tail rfl ht
      rw [decodeLiterals_backslash (letter 'n' hn (by decide)) (letter 'r' hr (by decide)), ih]
    · rw [decodeLiterals_cons hc, ih]
  | case4 => rfl

/-! ## Texts without literals -/

theorem hasLiteral_cons {c : Char} {rest : List Char} (hn : ∀ tail, c = '\\' → rest = 'n' :: tail → False)
    (hr : ∀ tail, c = '\\' → rest = 'r' :: tail → False) : HasLiteral (c :: rest) ↔ HasLiteral rest := by
  have neither : ∀ x, (∀ tail, c = '\\' → rest = x :: tail → False) → ¬ ['\\', x] <+: c :: rest := by
    rintro x hx ⟨tail, ht⟩
    simp only [List.cons_append, List.nil_append, List.cons.injEq] at ht
    exact hx tail ht.1.symm ht.2.symm
  unfold HasLiteral
  rw [List.infix_cons_iff, List.infix_cons_iff]
  simp only [neither 'n' hn, neither 'r' hr, false_or]

/-- Decoding keeps a text iff no literal occurs in it. -/
theorem decodeLiterals_eq_self_iff (value : List Char) : decodeLiterals value = value ↔ ¬ HasLiteral value := by
  fun_induction decodeLiterals value with
  | case1 rest ih => simp [HasLiteral, List.infix_cons_iff]
  | case2 rest ih => simp [HasLiteral, List.infix_cons_iff]
  | case3 c rest hn hr ih =>
    rw [hasLiteral_cons (fun t => hn t) (fun t => hr t), ← ih, List.cons.injEq]
    simp only [true_and]
  | case4 => simp [HasLiteral]

end DelimitedText
