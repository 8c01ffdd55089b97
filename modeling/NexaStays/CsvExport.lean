import NexaStays.CsvGrammar

/-!
# The export of bookings

`csv.util`: a cell is quoted where it holds a comma, a quote or a line break, lines end
with a line feed, and the text begins with a byte-order mark.
-/
namespace NexaStays.CsvExport

open NexaStays.CsvGrammar

def byteOrderMark : Char := Char.ofNat 0xFEFF

/-- `value.replace(/"/g, '""')`. -/
def doubleQuotes : List Char → List Char
  | [] => []
  | c :: cs => if c = '"' then '"' :: '"' :: doubleQuotes cs else c :: doubleQuotes cs

/-- A cell: nothing for `null` and `undefined`, else the text of the value. -/
def escapeCsv : Option String → List Char
  | none => []
  | some value =>
    let cs := value.toList
    if ',' ∈ cs ∨ '"' ∈ cs ∨ '\n' ∈ cs ∨ '\r' ∈ cs then '"' :: (doubleQuotes cs ++ ['"'])
    else cs

def csvLine (row : List (Option String)) : List Char := [','].intercalate (row.map escapeCsv)

def buildCsv (headers : List (Option String)) (rows : List (List (Option String))) :
    List Char :=
  byteOrderMark :: ['\n'].intercalate (csvLine headers :: rows.map csvLine)

/-- What a cell says: the text of the value, or nothing. -/
def cellText (cell : Option String) : List Char := (cell.getD "").toList

theorem quoted_doubleQuotes (cs : List Char) : Quoted (doubleQuotes cs) cs := by
  induction cs with
  | nil => exact .nil
  | cons c cs ih =>
    by_cases hc : c = '"'
    · rw [doubleQuotes, if_pos hc, hc]
      exact .quote ih
    · rw [doubleQuotes, if_neg hc]
      exact .char hc ih

/-- An escaped cell is a field that says the cell. -/
theorem field_escapeCsv (cell : Option String) : Field (escapeCsv cell) (cellText cell) := by
  cases cell with
  | none => exact .bare (by simp [escapeCsv])
  | some value =>
    by_cases hspecial : ',' ∈ value.toList ∨ '"' ∈ value.toList ∨ '\n' ∈ value.toList ∨
        '\r' ∈ value.toList
    · simp only [escapeCsv, if_pos hspecial, cellText, Option.getD_some]
      exact .quoted (quoted_doubleQuotes _)
    · simp only [escapeCsv, if_neg hspecial, cellText, Option.getD_some]
      push Not at hspecial
      obtain ⟨hcomma, hquote, hlf, hcr⟩ := hspecial
      refine .bare fun c hc => ?_
      have hne : ∀ d : Char, d ∉ value.toList → c ≠ d := fun d hd h => hd (h ▸ hc)
      simp [isTextData, hne _ hcomma, hne _ hquote, hne _ hlf, hne _ hcr]

theorem record_csvLine {row : List (Option String)} (hne : row ≠ []) :
    Record (csvLine row) (row.map cellText) := by
  induction row with
  | nil => exact absurd rfl hne
  | cons cell row ih =>
    cases row with
    | nil =>
      simpa [csvLine, List.intercalate] using Record.one (field_escapeCsv cell)
    | cons next row =>
      have hrest := ih (by simp)
      have htext : csvLine (cell :: next :: row) =
          escapeCsv cell ++ ',' :: csvLine (next :: row) := by
        simp [csvLine, List.intercalate]
      rw [htext, List.map_cons]
      exact .more (field_escapeCsv cell) hrest

theorem records_lines {rows : List (List (Option String))} (hne : ∀ row ∈ rows, row ≠ []) :
    List.Forall₂ Record (rows.map csvLine) (rows.map (List.map cellText)) := by
  induction rows with
  | nil => exact .nil
  | cons row rows ih =>
    exact .cons (record_csvLine (hne row (by simp))) (ih fun r hr => hne r (by simp [hr]))

/-- After its byte-order mark the export is read back, with a line feed as the line
break, cell by cell and in no other way. -/
theorem reads_buildCsv {headers : List (Option String)} {rows : List (List (Option String))}
    (hlength : ∀ row ∈ headers :: rows, 2 ≤ row.length) :
    ∃ text, buildCsv headers rows = byteOrderMark :: text ∧
      ∀ read, File ['\n'] text read ↔ read = (headers :: rows).map (List.map cellText) := by
  have hne : ∀ row ∈ headers :: rows, row ≠ [] := by
    rintro row hrow rfl
    simpa using hlength [] hrow
  have hrecords := records_lines hne
  refine ⟨_, rfl, fun read => ⟨fun h => ?_, ?_⟩⟩
  · refine File.unique (Or.inr rfl) hrecords (by simp) ?_ h
    simp only [List.mem_map]
    rintro r ⟨row, hrow, rfl⟩
    simpa using hlength row hrow
  · rintro rfl
    exact File.of_records hrecords (by simp)

theorem reads_buildCsv_sample :
    (∀ row ∈ [some "Guest", some "Total"] :: [[some "Zoe, \"Z\"", none]], 2 ≤ row.length) ∧
      ∃ text, buildCsv [some "Guest", some "Total"] [[some "Zoe, \"Z\"", none]] =
        byteOrderMark :: text ∧ ∀ read, File ['\n'] text read ↔
          read = ([some "Guest", some "Total"] :: [[some "Zoe, \"Z\"", none]]).map
            (List.map cellText) :=
  ⟨by decide, reads_buildCsv (by decide)⟩

/-- Under the grammar with its own line break an export of two lines is not read as two
records. -/
theorem not_reads_crlf :
    ¬File ['\r', '\n'] (buildCsv [some "Guest", some "Total"] [[some "Zoe", some "900"]])
      ([[some "Guest", some "Total"], [some "Zoe", some "900"]].map (List.map cellText)) := by
  intro h
  have hlength := h.length_le_one (by decide)
  simp at hlength

end NexaStays.CsvExport
