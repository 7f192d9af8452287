import DelimitedText.Line.Split
import DelimitedText.Proofs.Cell

/-!
# Splitting what was formatted

Over the written form of a list of fields the scanner reads the list back field by field (`scan_lineForm`), for any
policies of writer and reader. Hence splitting a formatted line gives as many fields as were formatted, each as `reread`
says (`splitLine_formatLine`); with line breaks kept as they are that is the list itself, and with line breaks escaped
it is the list iff no literal stands in a field that is quoted (`split_format`).
-/

namespace DelimitedText

/-- Fields as they are read back. -/
def rereadFields (delimiter : Char) (written read : LineBreaks) (fields : List String) : List String :=
  fields.map fun value => String.ofList (reread delimiter written read value.toList)

/-! ## Lines -/

/-- A list of fields is written as cells with the delimiter between them. -/
theorem lineForm_eq_joinCells (d : Char) (w : LineBreaks) :
    ∀ values : List (List Char), lineForm d w values = joinCells d (values.map (formCell d w))
  | [] => rfl
  | [value] => by
    rw [lineForm, List.map_singleton, joinCells_singleton, written_formCell]
  | value :: next :: rest => by
    have more := lineForm_eq_joinCells d w (next :: rest)
    rw [lineForm, more]
    · simp only [List.map_cons, joinCells_cons_cons, written_formCell]
    · simp

/-- **A line.** Over the written form of a list of fields the scanner reads the fields back. -/
theorem Scanner.scan_lineForm {w : LineBreaks} (values : List (List Char)) {s : Scanner} {done : List String}
    (h : AtField s done) (hd : 1 < values.length → s.delimiter ≠ quote) (hv : values ≠ []) :
    ∃ s', s.scan (lineForm s.delimiter w values) = .unfinished s' ∧
      Completes s' (done ++ values.map fun value => String.ofList (reread s.delimiter w s.lineBreaks value)) := by
  have valid : ∀ cell ∈ values.map (formCell s.delimiter w), cell.IsValid s.delimiter := by
    intro cell hc
    obtain ⟨value, -, rfl⟩ := List.mem_map.1 hc
    exact isValid_formCell _ _ value
  obtain ⟨s', h', completes⟩ := scan_cells _ h (by rwa [List.length_map]) (by simpa using hv) valid
  refine ⟨s', by rw [lineForm_eq_joinCells, h'], ?_⟩
  simpa only [cellFields, List.map_map, Function.comp_def, value_formCell] using completes

/-- A list of fields has an empty line only if it holds no more than an empty field. -/
theorem lineForm_eq_nil {d : Char} {w : LineBreaks} : ∀ {values : List (List Char)}, lineForm d w values = [] →
    values = [] ∨ values = [[]]
  | [], _ => .inl rfl
  | [value], h => by
    rw [lineForm, fieldForm] at h
    split at h
    · rw [enquote] at h; cases h
    · rw [h]; exact .inr rfl
  | value :: next :: rest, h => by simp [lineForm] at h

theorem splitLine_of_completes {text : List Char} {d : Char} {r : LineBreaks} {s : Scanner} {all : List String}
    (h : (Scanner.start d r 1).scan text = .unfinished s) (hc : s.Completes all) (ht : text ≠ []) :
    splitLine (String.ofList text) d r = .ok all := by
  have started : s.started = true := by
    rw [(Scanner.run_of_scan h).started]
    simpa [Scanner.start] using ht
  simp [splitLine, h, hc.isQuoteOpen, hc.finish started]

/-- A formatted line is split into the fields that were formatted, as they are read back. -/
theorem splitLine_formatLine {fields : List String} {d : Char} (hf : fields ≠ [""])
    (hd : 1 < fields.length → d ≠ quote) (w r : LineBreaks) :
    splitLine (formatLine fields d w) d r = .ok (rereadFields d w r fields) := by
  by_cases hn : fields = []
  · subst hn; rfl
  obtain ⟨s, h, hc⟩ : ∃ s, (Scanner.start d r 1).scan (lineForm d w (fields.map String.toList)) = .unfinished s ∧
      s.Completes ([] ++ (fields.map String.toList).map fun value => String.ofList (reread d w r value)) :=
    Scanner.scan_lineForm _ (Scanner.atField_start d r 1) (by rwa [List.length_map]) (by simpa using hn)
  have text : lineForm d w (fields.map String.toList) ≠ [] := by
    intro he
    rcases lineForm_eq_nil he with he | he
    · exact hn (by simpa using he)
    · obtain ⟨value, rfl, hv⟩ := List.map_eq_singleton_iff.1 he
      exact hf (by rw [String.toList_eq_nil_iff.1 hv])
  rw [formatLine, splitLine_of_completes h hc text, rereadFields, List.map_map]
  rfl

/-! ## When a list survives -/

theorem rereadFields_raw (d : Char) (fields : List String) : rereadFields d .raw .raw fields = fields := by
  simp [rereadFields, reread]

/-- Escaping loses exactly the literals of a field that is quoted. -/
theorem reread_escaped_eq_self_iff (d : Char) (value : List Char) :
    reread d .escaped .escaped value = value ↔ (needsQuoting value d = true → ¬ HasLiteral value) := by
  rw [← decodeLiterals_eq_self_iff, reread]
  cases needsQuoting value d <;> simp

/-- A list of fields survives iff each field does. -/
theorem rereadFields_eq_self_iff (d : Char) (w r : LineBreaks) (fields : List String) :
    rereadFields d w r fields = fields ↔ ∀ value ∈ fields, reread d w r value.toList = value.toList := by
  have field : ∀ value : String, String.ofList (reread d w r value.toList) = value ↔
      reread d w r value.toList = value.toList := by
    intro value
    rw [← String.toList_inj, String.toList_ofList]
  have pointwise : rereadFields d w r fields = fields.map id ↔ _ := List.map_inj_left
  rw [List.map_id] at pointwise
  exact pointwise.trans (forall_congr' fun value => imp_congr_right fun _ => field value)

theorem rereadFields_escaped_eq_self_iff (d : Char) (fields : List String) :
    rereadFields d .escaped .escaped fields = fields ↔
      ∀ value ∈ fields, needsQuoting value.toList d = true → ¬ HasLiteral value.toList := by
  rw [rereadFields_eq_self_iff]
  exact forall_congr' fun value => imp_congr_right fun _ => reread_escaped_eq_self_iff d value.toList

/-- **Formatting and splitting.** Except for the one empty field, whose line is empty, every list of fields comes back
from its line field by field, under any two policies. It comes back unchanged if both keep line breaks, and if both
escape them just when no field that is quoted contains a literal. -/
theorem split_format (fields : List String) (d : Char) (hf : fields ≠ [""]) (hd : d ≠ quote) :
    (∀ w r, splitLine (formatLine fields d w) d r = .ok (rereadFields d w r fields)) ∧
    splitLine (formatLine fields d .raw) d .raw = .ok fields ∧
    (splitLine (formatLine fields d .escaped) d .escaped = .ok fields ↔
      ∀ value ∈ fields, needsQuoting value.toList d = true → ¬ HasLiteral value.toList) := by
  have split := splitLine_formatLine hf fun _ => hd
  refine ⟨split, ?_, ?_⟩
  · rw [split, rereadFields_raw]
  · rw [split, Except.ok.injEq, rereadFields_escaped_eq_self_iff]

/-- A backslash survives in front of a line break, a quote or another backslash, even where it is the delimiter. -/
theorem split_format_backslashes : (["\\\n", "\\\"n", "\\\\", ""] ≠ [""] ∧ '\\' ≠ quote) ∧
    splitLine (formatLine ["\\\n", "\\\"n", "\\\\", ""] '\\') '\\' = .ok ["\\\n", "\\\"n", "\\\\", ""] :=
  ⟨by decide, (split_format _ '\\' (by decide) (by decide)).2.2.2 (by decide)⟩

end DelimitedText
