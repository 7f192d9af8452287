import DelimitedText.Proofs.Literal
import DelimitedText.Proofs.Run

/-!
# Scanning one written field

Inside quotes, `s.reading rest` is the text of the field if `rest` is what its body still holds, with each quote once.
Every character of the body keeps it (`InQuotes.feed_content`, `InQuotes.feed_doubled`), whatever backslash is pending,
so the closing quote leaves the decoded body (`scan_quoted`). A field without quotes is read as it is (`scan_bare`).
`reread` says how a field comes back that was written under one policy and is read under another.
-/

namespace DelimitedText

theorem ne_of_isDelimiter {d : Char} (hd : isDelimiter d = true) : d ≠ quote ∧ d ≠ '\n' ∧ d ≠ '\r' := by
  refine ⟨?_, ?_, ?_⟩
  · rintro rfl; cases hd
  · rintro rfl; cases hd
  · rintro rfl; cases hd

/-- The body of a quoted field: its text with each quote doubled. -/
def doubleQuotes (body : List Char) : List Char :=
  body.flatMap fun c => if c = quote then [quote, quote] else [c]

theorem doubleQuotes_cons (c : Char) (body : List Char) :
    doubleQuotes (c :: body) = (if c = quote then [quote, quote] else [c]) ++ doubleQuotes body := rfl

theorem doubleQuotes_quotedForm (p : LineBreaks) (c : Char) : quotedForm p c = doubleQuotes (p.encode [c]) := by
  unfold quotedForm
  by_cases hq : c = quote
  · subst hq; cases p <;> rfl
  rw [if_neg hq]
  cases p with
  | raw => simp [LineBreaks.encode, doubleQuotes, hq]
  | escaped =>
    by_cases hr : c = '\r'
    · subst hr; rfl
    by_cases hn : c = '\n'
    · subst hn; rfl
    simp [LineBreaks.encode, encodeBreaks, doubleQuotes, hq, hr, hn]

theorem encode_cons (p : LineBreaks) (c : Char) (value : List Char) :
    p.encode (c :: value) = p.encode [c] ++ p.encode value := by
  cases p with
  | raw => rfl
  | escaped => simp [LineBreaks.encode, encodeBreaks]

/-- Quoting encodes the line breaks of a field and doubles its quotes. -/
theorem enquote_eq (value : List Char) (p : LineBreaks) :
    enquote value p = quote :: doubleQuotes (p.encode value) ++ [quote] := by
  have body : value.flatMap (quotedForm p) = doubleQuotes (p.encode value) := by
    induction value with
    | nil => cases p <;> rfl
    | cons c value ih =>
      rw [List.flatMap_cons, ih, doubleQuotes_quotedForm, encode_cons p c value]
      simp [doubleQuotes]
  rw [enquote, body]

namespace Scanner

open Mode

variable {s s' : Scanner} {c : Char} {done : List String}

/-! ## Inside quotes -/

/-- The backslash that waits for the next character, if one does. -/
def carry (s : Scanner) : List Char :=
  if s.pendingBackslash then ['\\'] else []

/-- The text of the current quoted field if `rest` is the rest of its body. -/
def reading (s : Scanner) (rest : List Char) : List Char :=
  s.field.toList ++ s.lineBreaks.decode (s.carry ++ rest)

/-- Inside the quotes of a field, with the fields `done` behind it. -/
structure InQuotes (s : Scanner) (done : List String) : Prop where
  mode : s.mode = quoted
  fields : s.fields = done
  pending : s.pendingBackslash = true → s.lineBreaks = .escaped

@[simp] theorem carry_moved (s : Scanner) (c : Char) : (s.moved c).carry = s.carry := by
  unfold carry; rw [moved_pendingBackslash]

@[simp] theorem reading_moved (s : Scanner) (c : Char) (rest : List Char) :
    (s.moved c).reading rest = s.reading rest := by
  unfold reading; rw [moved_field, moved_lineBreaks, carry_moved]

/-- A body that ends here leaves the pending backslash as content. -/
theorem reading_nil (s : Scanner) : s.reading [] = s.field.toList ++ s.carry := by
  unfold reading carry
  cases s.lineBreaks <;> split <;> rfl

theorem carry_of_pending (h : s.pendingBackslash = false) : s.carry = [] := by rw [carry, h]; rfl

theorem reading_push (h : s.pendingBackslash = false) (c : Char) (rest : List Char) :
    (s.push c).reading rest = s.field.toList ++ c :: s.lineBreaks.decode rest := by
  have hc : (s.push c).carry = [] := carry_of_pending h
  rw [reading, hc]
  simp [push]

/-- Only a backslash can change its meaning by what follows. -/
theorem decode_cons {p : LineBreaks} (h : ¬ (c = '\\' ∧ p = .escaped)) (rest : List Char) :
    p.decode (c :: rest) = c :: p.decode rest := by
  cases p with
  | raw => rfl
  | escaped => exact decodeLiterals_cons (fun hc => h ⟨hc, rfl⟩) rest

namespace InQuotes

/-- A quote is content, and so is a backslash in front of it. -/
theorem reading_quote (h : InQuotes s done) (rest : List Char) :
    s.reading (quote :: rest) = s.reading [] ++ quote :: s.lineBreaks.decode rest := by
  have plain : s.lineBreaks.decode (quote :: rest) = quote :: s.lineBreaks.decode rest :=
    decode_cons (by simp [quote]) rest
  rw [reading_nil, reading, carry]
  cases hb : s.pendingBackslash with
  | false => simp [plain]
  | true =>
    rw [h.pending hb] at plain ⊢
    simp only [LineBreaks.decode, if_true] at plain ⊢
    rw [List.singleton_append, decodeLiterals_backslash (by simp [quote]) (by simp [quote]), plain]
    simp

theorem feedQuotedPlain (h : InQuotes s done) (hb : s.pendingBackslash = false) (hc : c ≠ quote) :
    InQuotes (s.feedQuotedPlain c) done ∧ ∀ rest, (s.feedQuotedPlain c).reading rest = s.reading (c :: rest) := by
  unfold Scanner.feedQuotedPlain
  rw [if_neg hc]
  by_cases he : c = '\\' ∧ s.lineBreaks = .escaped
  · obtain ⟨rfl, hl⟩ := he
    rw [if_pos (by simp [hl])]
    refine ⟨⟨h.mode, h.fields, fun _ => hl⟩, ?_⟩
    intro rest
    simp [reading, carry, hb]
  · rw [if_neg (by simpa using he)]
    refine ⟨⟨h.mode, h.fields, h.pending⟩, ?_⟩
    intro rest
    rw [reading_push hb, reading, carry_of_pending hb, List.nil_append, decode_cons he]

theorem feedQuoted (h : InQuotes s done) (hc : c ≠ quote) :
    InQuotes (s.feedQuoted c) done ∧ ∀ rest, (s.feedQuoted c).reading rest = s.reading (c :: rest) := by
  unfold Scanner.feedQuoted
  cases hb : s.pendingBackslash with
  | false => exact h.feedQuotedPlain hb hc
  | true =>
    have hl := h.pending hb
    have before : ∀ rest, s.reading rest = s.field.toList ++ decodeLiterals ('\\' :: rest) := by
      intro rest
      simp [reading, carry, hb, hl, LineBreaks.decode]
    dsimp only
    rw [if_pos rfl]
    by_cases hn : c = 'n'
    · subst hn
      refine ⟨⟨h.mode, h.fields, fun _ => hl⟩, ?_⟩
      intro rest
      rw [if_pos rfl, reading_push rfl, before, hl]
      rfl
    by_cases hr : c = 'r'
    · subst hr
      refine ⟨⟨h.mode, h.fields, fun _ => hl⟩, ?_⟩
      intro rest
      rw [if_neg hn, if_pos rfl, reading_push rfl, before, hl]
      rfl
    -- the backslash is content, and `c` is read afresh: it may be a backslash itself
    rw [if_neg hn, if_neg hr]
    obtain ⟨hq, hs⟩ := feedQuotedPlain (s := { s with pendingBackslash := false }.push '\\')
      ⟨h.mode, h.fields, fun _ => hl⟩ rfl hc
    refine ⟨hq, ?_⟩
    intro rest
    rw [hs, reading_push rfl, before, decodeLiterals_backslash (by simpa using hn) (by simpa using hr), hl]
    rfl

/-- A character of the body other than a quote is content or part of a literal. -/
theorem feed_content (h : InQuotes s done) (hc : c ≠ quote) :
    ∃ s', s.feed c = .more s' ∧ InQuotes s' done ∧ ∀ rest, s'.reading rest = s.reading (c :: rest) := by
  obtain ⟨hq, hr⟩ := h.feedQuoted hc
  refine ⟨(s.feedQuoted c).moved c, by simp only [feed, h.mode], ⟨?_, ?_, ?_⟩, ?_⟩
  · rw [moved_mode, hq.mode]
  · rw [moved_fields, hq.fields]
  · rw [moved_pendingBackslash, moved_lineBreaks]; exact hq.pending
  · intro rest
    rw [reading_moved, hr]

/-- A quote leaves the body as it was read, and is the last of it unless another one follows. -/
theorem feed_quote (h : InQuotes s done) :
    ∃ s', s.feed quote = .more s' ∧ s'.mode = quoteSeen ∧ s'.fields = done ∧ s'.pendingBackslash = false ∧
      s'.lineBreaks = s.lineBreaks ∧ s'.field.toList = s.reading [] := by
  refine ⟨(s.feedQuoted quote).moved quote, by simp only [feed, h.mode], ?_⟩
  rw [moved_mode, moved_fields, moved_pendingBackslash, moved_lineBreaks, moved_field, reading_nil]
  unfold Scanner.feedQuoted Scanner.feedQuotedPlain
  cases hb : s.pendingBackslash with
  | false => exact ⟨rfl, h.fields, rfl, rfl, by simp [carry, hb]⟩
  | true => exact ⟨rfl, h.fields, rfl, rfl, by simp [carry, hb, push, quote]⟩

end InQuotes

/-- Another quote behind a quote makes both of them one quote of the body, which goes on. -/
theorem feed_second_quote (hm : s.mode = quoteSeen) (hb : s.pendingBackslash = false) :
    ∃ s', s.feed quote = .more s' ∧ InQuotes s' s.fields ∧
      ∀ rest, s'.reading rest = s.field.toList ++ quote :: s.lineBreaks.decode rest := by
  refine ⟨({ s with mode := quoted }.push quote).moved quote, by simp only [feed, hm, if_true], ⟨?_, ?_, ?_⟩, ?_⟩
  · rw [moved_mode]; rfl
  · rw [moved_fields]; rfl
  · rw [moved_pendingBackslash]
    intro hp
    rw [show _ = false from hb] at hp
    cases hp
  · intro rest
    rw [reading_moved, reading_push (s := { s with mode := quoted }) hb]

/-- The quote that opens a field. -/
theorem AtField.feed_quote (h : AtField s done) :
    ∃ s', s.feed quote = .more s' ∧ InQuotes s' done ∧ ∀ rest, s'.reading rest = s.lineBreaks.decode rest := by
  refine ⟨{ s with mode := quoted }.moved quote, by simp only [feed, h.mode, if_true], ⟨?_, ?_, ?_⟩, ?_⟩
  · rw [moved_mode]
  · rw [moved_fields]; exact h.fields
  · rw [moved_pendingBackslash]
    intro hp
    rw [show _ = false from h.pending] at hp
    cases hp
  · intro rest
    rw [reading_moved, reading, carry_of_pending (s := { s with mode := quoted }) h.pending]
    simp [h.field]

namespace InQuotes

/-- A doubled quote is one quote of the body. -/
theorem feed_doubled (h : InQuotes s done) (text : List Char) :
    ∃ s', s.scan (quote :: quote :: text) = s'.scan text ∧ InQuotes s' done ∧
      ∀ rest, s'.reading rest = s.reading (quote :: rest) := by
  obtain ⟨s₁, h₁, hm, rfl, hb, hl, hr⟩ := h.feed_quote
  obtain ⟨s', h', hq, hs⟩ := feed_second_quote hm hb
  refine ⟨s', by rw [scan_cons h₁, scan_cons h'], hq, ?_⟩
  intro rest
  rw [hs, hr, hl, h.reading_quote]

/-- **The body of a quoted field**, read to its end. -/
theorem scan_body : ∀ (body : List Char) {s : Scanner}, InQuotes s done →
    ∃ s', s.scan (doubleQuotes body) = .unfinished s' ∧ InQuotes s' done ∧ s'.reading [] = s.reading body
  | [], s, h => ⟨s, rfl, h, rfl⟩
  | c :: body, s, h => by
    rw [doubleQuotes_cons]
    by_cases hc : c = quote
    · subst hc
      obtain ⟨s₁, h₁, hq, hr⟩ := h.feed_doubled (doubleQuotes body)
      obtain ⟨s', h', hq', hr'⟩ := scan_body body hq
      exact ⟨s', h₁.trans h', hq', hr'.trans (hr body)⟩
    · obtain ⟨s₁, h₁, hq, hr⟩ := h.feed_content hc
      obtain ⟨s', h', hq', hr'⟩ := scan_body body hq
      rw [if_neg hc, List.singleton_append, scan_cons h₁]
      exact ⟨s', h', hq', hr'.trans (hr body)⟩

end InQuotes

/-! ## Whole fields -/

/-- A quoted field is read as its decoded body. -/
theorem scan_quoted (h : AtField s done) (body : List Char) :
    ∃ s', s.scan (quote :: doubleQuotes body ++ [quote]) = .unfinished s' ∧
      Completes s' (done ++ [String.ofList (s.lineBreaks.decode body)]) := by
  obtain ⟨s₀, h₀, inside, hs⟩ := h.feed_quote
  obtain ⟨s₁, h₁, hq, hr⟩ := inside.scan_body body
  obtain ⟨s', h', hm, hf, hb, -, ht⟩ := hq.feed_quote
  refine ⟨s', ?_, ?_, ?_, hb⟩
  · rw [List.cons_append, scan_cons h₀, scan_append h₁, scan_cons h']
    rfl
  · rw [hm]; decide
  · rw [hf, ← hs, ← hr, ← ht, String.ofList_toList]

/-- A character that has no meaning outside quotes. -/
theorem feed_bare (hm : s.mode = fieldStart ∨ s.mode = bare) (hq : c ≠ quote) (hd : c ≠ s.delimiter)
    (hb : isLineBreak c = false) : s.feed c = .more (({ s with mode := bare }.push c).moved c) := by
  rcases hm with hm | hm
  · simp [feed, hm, hq, feedOutside, hd, hb]
  · simp [feed, hm, hq, feedOutside, hd, hb, push]

/-- A text that needs no quotes is read as it is. -/
theorem scan_bare : ∀ (value : List Char) {s : Scanner}, s.mode = fieldStart ∨ s.mode = bare →
    needsQuoting value s.delimiter = false →
    ∃ s', s.scan value = .unfinished s' ∧ (s'.mode = fieldStart ∨ s'.mode = bare) ∧ s'.fields = s.fields ∧
      s'.field.toList = s.field.toList ++ value ∧ s'.pendingBackslash = s.pendingBackslash
  | [], s, hm, _ => ⟨s, rfl, hm, rfl, by simp, rfl⟩
  | c :: value, s, hm, hv => by
    simp only [needsQuoting, List.any_cons, Bool.or_eq_false_iff, decide_eq_false_iff_not] at hv
    obtain ⟨⟨⟨hq, hb⟩, hd⟩, hv⟩ := hv
    have fed := feed_bare hm hq hd hb
    obtain ⟨s', h', hm', hf', ht', hp'⟩ := scan_bare value
      (s := ({ s with mode := bare }.push c).moved c) (.inr (by rw [moved_mode]; rfl))
      (by rw [moved_delimiter]; exact hv)
    refine ⟨s', (scan_cons fed value).trans h', hm', ?_, ?_, ?_⟩
    · rw [hf', moved_fields]; rfl
    · rw [ht', moved_field]; simp [push]
    · rw [hp', moved_pendingBackslash]; rfl

end Scanner

/-- A field as it is read back. If it was quoted, an escaping reader takes every literal for a line break, and a reader
that keeps backslashes finds the literals that an escaping writer put for line breaks. -/
def reread (delimiter : Char) (written read : LineBreaks) (value : List Char) : List Char :=
  if needsQuoting value delimiter then
    match written, read with
    | _, .escaped => decodeLiterals value
    | .escaped, .raw => encodeBreaks value
    | .raw, .raw => value
  else value

theorem decode_encode (w r : LineBreaks) (value : List Char) : r.decode (w.encode value) =
    match w, r with
    | _, .escaped => decodeLiterals value
    | .escaped, .raw => encodeBreaks value
    | .raw, .raw => value := by
  cases w <;> cases r
  · exact decodeLiterals_encodeBreaks value
  · rfl
  · rfl
  · rfl

end DelimitedText
