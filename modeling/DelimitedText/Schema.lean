import DelimitedText.Line.Format

/-!
# Names of columns

A schema is an ordered list of column names without duplicates. It gives the positions of a record their meaning, writes
the header line, and recognises that header among records.
-/

namespace DelimitedText

/-- Column names in order, each once. -/
structure Schema where
  names : List String
  nodup : names.Nodup
  deriving DecidableEq

namespace Schema

def empty : Schema := ⟨[], List.nodup_nil⟩

/-- Adds a name at the end, unless it is there. -/
def insert (s : Schema) (name : String) : Schema :=
  if h : name ∈ s.names then s
  else
    ⟨s.names ++ [name], by
      rw [List.nodup_append]
      refine ⟨s.nodup, by simp, fun a ha b hb => ?_⟩
      rw [List.mem_singleton] at hb
      rintro rfl
      exact h (hb ▸ ha)⟩

/-- The schema of a list of names; of equal names the first counts. -/
def ofList (names : List String) : Schema :=
  names.foldl insert empty

/-- The number of columns. -/
def size (s : Schema) : Nat :=
  s.names.length

/-- The position of a column. -/
def indexOf? (s : Schema) (name : String) : Option Nat :=
  s.names.idxOf? name

/-- The header line. Line breaks in names are escaped, whatever is done to those in fields. -/
def header (s : Schema) (delimiter : Char) : String :=
  formatLine s.names delimiter

/-- Whether a record is the header. -/
def isHeader (s : Schema) (fields : List String) : Bool :=
  fields == s.names

/-- The columns of a test sample. -/
def samples : Schema :=
  ofList
    ["timeStamp", "elapsed", "label", "responseCode", "responseMessage", "threadName", "dataType", "success",
      "failureMessage", "bytes", "sentBytes", "grpThreads", "allThreads", "URL", "Latency", "IdleTime", "Connect"]

instance : Inhabited Schema := ⟨samples⟩

end Schema

end DelimitedText
