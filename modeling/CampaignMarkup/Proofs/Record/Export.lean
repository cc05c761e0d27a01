import CampaignMarkup.Proofs.Record.Blocks

/-! # Exported tables

Comma-separated values as RFC 4180 has them, by their grammar and by a reader that takes one
character at a time. A final line break ends the last line and begins no further one. Characters
that the standard does not name stand for themselves. An exported table has one reading, whatever
stands in its cells. -/
namespace CampaignMarkup

open Chars

namespace Csv

/-! ## The grammar -/

/-- A character that needs no quotes around it. -/
def isData (c : Char) : Bool :=
  c ≠ ',' && c ≠ '"' && c ≠ '\r' && c ≠ '\n'

/-- What stands between quotes, and how it is written. -/
inductive Escaped : List Char → List Char → Prop where
  | nil : Escaped [] []
  | quote {value text} : Escaped value text → Escaped ('"' :: value) ('"' :: '"' :: text)
  | other {c value text} : c ≠ '"' → Escaped value text → Escaped (c :: value) (c :: text)

inductive Field : String → List Char → Prop where
  | plain {value : String} : (∀ c ∈ value.toList, isData c) → Field value value.toList
  | quoted {value : String} {text} : Escaped value.toList text →
      Field value ('"' :: (text ++ ['"']))

/-- Fields with commas between them; there is always one. -/
inductive Row : List String → List Char → Prop where
  | last {value text} : Field value text → Row [value] text
  | more {value values text rest} : Field value text → Row values rest →
      Row (value :: values) (text ++ ',' :: rest)

/-- Lines, of which the last may lack its end. -/
inductive Rows : List (List String) → List Char → Prop where
  | nil : Rows [] []
  | unended {values text} : Row values text → text ≠ [] → Rows [values] text
  | line {values rows text rest} : Row values text → Rows rows rest →
      Rows (values :: rows) (text ++ '\r' :: '\n' :: rest)

/-! ## A reader -/

/-- What the reader has just read. -/
inductive Place where
  | separator
  | plain
  | quoted
  /-- A quote that ends a field or is the first of two. -/
  | quote
  | carriageReturn
deriving DecidableEq

/-- Goes on behind `field` in a line that has begun with `row`. -/
def read (place : Place) (row : List String) (field : List Char) :
    List Char → Option (List (List String))
  | [] =>
    match place with
    | .separator => some (if row = [] then [] else [row ++ [""]])
    | .plain | .quote => some [row ++ [String.ofList field]]
    | .quoted | .carriageReturn => none
  | c :: cs =>
    match place with
    | .quoted => if c = '"' then read .quote row field cs else read .quoted row (field ++ [c]) cs
    | .carriageReturn => if c = '\n' then (read .separator [] [] cs).map (row :: ·) else none
    | .separator | .plain | .quote =>
      if c = ',' then read .separator (row ++ [String.ofList field]) [] cs
      else if c = '\r' then read .carriageReturn (row ++ [String.ofList field]) [] cs
      else if c = '"' then
        match place with
        | .separator => read .quoted row [] cs
        | .quote => read .quoted row (field ++ ['"']) cs
        | _ => none
      else if c = '\n' ∨ place = .quote then none
      else read .plain row (field ++ [c]) cs

/-- The rows of a text, if it is one of comma-separated values. -/
def rows? (text : String) : Option (List (List String)) :=
  read .separator [] [] text.toList

section

variable {row : List String} {field rest text : List Char}

theorem read_plain {data : List Char} (h : ∀ c ∈ data, isData c) :
    read .plain row field (data ++ rest) = read .plain row (field ++ data) rest := by
  induction data generalizing field with
  | nil => simp
  | cons c data ih =>
    obtain ⟨hc, hdata⟩ := List.forall_mem_cons.mp h
    obtain ⟨hcomma, hquote, hreturn, hfeed⟩ : c ≠ ',' ∧ c ≠ '"' ∧ c ≠ '\r' ∧ c ≠ '\n' := by
      simpa [isData, and_assoc] using hc
    rw [List.cons_append, read]
    simp only [hcomma, hquote, hreturn, hfeed, if_false, reduceCtorEq, or_false]
    rw [ih hdata, List.append_assoc, List.singleton_append]

theorem read_escaped {value : List Char} (h : Escaped value text) :
    read .quoted row field (text ++ '"' :: rest) = read .quote row (field ++ value) rest := by
  induction h generalizing field with
  | nil => simp [read]
  | quote _ ih => simp [read, ih]
  | other hc _ ih =>
    rw [List.cons_append, read]
    simp [hc, ih]

/-- A field ends here. -/
def Delimited (rest : List Char) : Prop :=
  ∀ c ∈ rest.head?, c = ',' ∨ c = '\r'

theorem read_plain_delimited (h : Delimited rest) :
    read .plain row field rest = read .quote row field rest := by
  cases rest with
  | nil => rfl
  | cons c rest => rcases h c rfl with rfl | rfl <;> rfl

theorem read_separator_delimited (h : Delimited rest) (hne : rest ≠ [] ∨ row ≠ []) :
    read .separator row [] rest = read .quote row [] rest := by
  cases rest with
  | nil =>
    have hrow : row ≠ [] := hne.resolve_left (by simp)
    simp [read, hrow]
  | cons c rest => rcases h c rfl with rfl | rfl <;> rfl

theorem read_field {value : String} (h : Field value text) (hrest : Delimited rest)
    (hne : text ++ rest ≠ [] ∨ row ≠ []) :
    read .separator row [] (text ++ rest) = read .quote row value.toList rest := by
  cases h with
  | plain hdata =>
    cases hvalue : value.toList with
    | nil =>
      rw [hvalue] at hne
      exact read_separator_delimited hrest hne
    | cons c data =>
      rw [hvalue] at hdata
      obtain ⟨hc, hdata⟩ := List.forall_mem_cons.mp hdata
      have hstart : read .separator row [] (c :: data ++ rest) =
          read .plain row [c] (data ++ rest) := by
        obtain ⟨hcomma, hquote, hreturn, hfeed⟩ : c ≠ ',' ∧ c ≠ '"' ∧ c ≠ '\r' ∧ c ≠ '\n' := by
          simpa [isData, and_assoc] using hc
        rw [List.cons_append, read]
        simp [hcomma, hquote, hreturn, hfeed]
      rw [hstart, read_plain hdata, read_plain_delimited hrest]
      rfl
  | quoted hescaped =>
    rw [List.cons_append, List.append_assoc, List.singleton_append]
    exact read_escaped hescaped

/-- What is read from behind the last field of a line. -/
def readBehind (row : List String) : List Char → Option (List (List String))
  | [] => some [row]
  | _ :: cs => read .carriageReturn row [] cs

/-- By induction on the fields, each up to the comma behind it. -/
theorem read_row {values : List String} (h : Row values text) (hrest : ∀ c ∈ rest.head?, c = '\r')
    (hne : text ++ rest ≠ [] ∨ row ≠ []) :
    read .separator row [] (text ++ rest) = readBehind (row ++ values) rest := by
  induction h generalizing row with
  | last hfield =>
    rw [read_field hfield (fun c hc => .inr (hrest c hc)) hne]
    cases rest with
    | nil => simp [read, readBehind]
    | cons c rest =>
      obtain rfl : c = '\r' := hrest c rfl
      simp [read, readBehind]
  | @more value values text more hfield _ ih =>
    have hcomma : read .separator row [] (text ++ ',' :: more ++ rest) =
        read .separator (row ++ [value]) [] (more ++ rest) := by
      rw [List.append_assoc, List.cons_append, read_field hfield (by simp [Delimited]) (by simp)]
      simp [read]
    rw [hcomma, ih (.inr (by simp)), List.append_assoc, List.singleton_append]

theorem read_rows {rows : List (List String)} (h : Rows rows text) :
    read .separator [] [] text = some rows := by
  induction h with
  | nil => rfl
  | @unended values text hrow hne =>
    have hread := @read_row [] [] text values hrow (by simp) (by simp [hne])
    rw [List.append_nil] at hread
    exact hread
  | @line values rows text rest hrow _ ih =>
    rw [read_row hrow (by simp) (by simp)]
    simp [readBehind, read, ih]

end

/-- A text has no second reading. -/
theorem Rows.unique {rows rows' : List (List String)} {text : List Char} (h : Rows rows text)
    (h' : Rows rows' text) : rows = rows' :=
  Option.some.inj ((read_rows h).symm.trans (read_rows h'))

end Csv

namespace RecordTable

open Csv

/-! ## What is written -/

theorem escaped_doubleQuotes (cs : List Char) : Escaped cs (doubleQuotes cs) := by
  induction cs with
  | nil => exact .nil
  | cons c cs ih =>
    rw [doubleQuotes]
    split
    · next hc =>
      rw [hc]
      exact .quote ih
    · next hc => exact .other hc ih

theorem field_csvField (value : String) : Field value (csvField value).toList := by
  rw [csvField]
  split
  · rw [String.toList_ofList]
    exact .quoted (escaped_doubleQuotes _)
  · next hplain =>
    refine .plain fun c hc => ?_
    have hno : ¬ (c = ',' ∨ c = '"' ∨ c = '\r' ∨ c = '\n') := by
      intro hspecial
      apply hplain
      rw [needsQuotes, List.any_eq_true]
      exact ⟨c, hc, by simpa [or_assoc] using hspecial⟩
    simpa [isData, not_or, and_assoc] using hno

theorem row_intercalate (values : List String) (hne : values ≠ []) :
    Row values (String.intercalate "," (values.map csvField)).toList := by
  induction values with
  | nil => exact absurd rfl hne
  | cons value values ih =>
    cases values with
    | nil => simpa using Row.last (field_csvField value)
    | cons next values =>
      have hrow := Row.more (field_csvField value) (ih (List.cons_ne_nil _ _))
      simpa [String.intercalate_cons_cons] using hrow

/-- A line that would be empty is a pair of quotes, so every line has its fields. -/
theorem exists_row_csvRow (values : List String) (hne : values ≠ []) :
    ∃ text, Row values text ∧ (csvRow values).toList = text ++ ['\r', '\n'] := by
  rw [csvRow]
  split
  · next hempty =>
    obtain ⟨hall, hlength⟩ : (∀ v ∈ values, v = "") ∧ values.length ≤ 1 := by simpa using hempty
    obtain ⟨value, rest, rfl⟩ := List.exists_cons_of_ne_nil hne
    obtain rfl : rest = [] := by simpa using hlength
    obtain rfl : value = "" := hall value (by simp)
    have hnothing : Escaped "".toList [] := by
      rw [String.toList_empty]
      exact .nil
    exact ⟨['"', '"'], .last (.quoted hnothing), rfl⟩
  · exact ⟨_, row_intercalate values hne, String.toList_append⟩

theorem rows_csv {lines : List (List String)} (h : ∀ values ∈ lines, values ≠ []) :
    Rows lines (String.join (lines.map csvRow)).toList := by
  induction lines with
  | nil => exact .nil
  | cons values lines ih =>
    obtain ⟨hvalues, hlines⟩ := List.forall_mem_cons.mp h
    obtain ⟨text, hrow, htext⟩ := exists_row_csvRow values hvalues
    have hrows := Rows.line hrow (ih hlines)
    simpa [String.toList_append, htext] using hrows

/-- A table whose rows are as wide as its header is written. -/
theorem csv_eq_ok {t : RecordTable} (h : ∀ row ∈ t.rows, row.length = t.columns.length) :
    t.csv = .ok (String.join ((t.columns :: t.rows).map csvRow)) := by
  have hfind : t.rows.find? (·.length ≠ t.columns.length) = none := by
    rw [List.find?_eq_none]
    intro row hrow
    simp [h row hrow]
  rw [csv, hfind]

theorem length_of_mem_rows {records : List Record} {tag : String} {columns : List String} :
    ∀ row ∈ (project records tag columns).rows, row.length = columns.length := by
  intro row hrow
  obtain ⟨r, -, rfl⟩ := List.mem_map.mp hrow
  exact List.length_map _

/-- The records of a tag in their order, outer before inner, with the columns over them; where an
attribute is missing, the cell is empty. -/
def grid (records : List Record) (tag : String) (columns : List String) : List (List String) :=
  columns :: ((Record.preorderAll records).filter (·.tag = tag)).map fun r =>
    columns.map fun column =>
      match r.get? column with
      | some value => value.display
      | none => ""

theorem grid_eq (records : List Record) (tag : String) (columns : List String) :
    grid records tag columns = columns :: (project records tag columns).rows := by
  rw [grid, project, Record.findAllIn_eq_filter]
  congr 2
  funext r
  apply List.map_congr_left
  intro column _
  cases r.get? column <;> rfl

/-- A table with any column at all is exported, and whatever its cells hold, the text has one
reading, which a reader finds: the columns and a row for every record of the tag. -/
theorem exported_table_reads_back (records : List Record) (tag : String) {columns : List String}
    (hne : columns ≠ []) :
    ∃ text, (project records tag columns).csv = .ok text ∧
      Csv.rows? text = some (grid records tag columns) ∧
      ∀ rows, Csv.Rows rows text.toList ↔ rows = grid records tag columns := by
  let t := project records tag columns
  have hwidth : ∀ row ∈ t.rows, row.length = t.columns.length := length_of_mem_rows
  have hfilled : ∀ values ∈ t.columns :: t.rows, values ≠ [] := by
    intro values hvalues
    rcases List.mem_cons.mp hvalues with rfl | hvalues
    · exact hne
    · rw [← List.length_pos_iff, hwidth values hvalues]
      exact List.length_pos_iff.mpr hne
  have hrows := rows_csv hfilled
  have hgrid : t.columns :: t.rows = grid records tag columns := (grid_eq _ _ _).symm
  rw [hgrid] at hrows
  refine ⟨_, csv_eq_ok hwidth, ?_, fun rows => ?_⟩
  · rw [hgrid]
    exact read_rows hrows
  · rw [hgrid]
    constructor
    · intro h
      exact h.unique hrows
    · rintro rfl
      exact hrows

/-- A column of its own with all that needs quotes, and with a record that has nothing in it. -/
theorem awkward_column_reads_back :
    let records : List Record :=
      [⟨"unit", [("name", .string "a,\"b\"\r\n")], [⟨"race", [], [⟨"unit", [], []⟩]⟩]⟩]
    ["name"] ≠ [] ∧ ∃ text, (project records "unit" ["name"]).csv = .ok text ∧
      Csv.rows? text = some [["name"], ["a,\"b\"\r\n"], [""]] ∧
      ∀ rows, Csv.Rows rows text.toList ↔ rows = [["name"], ["a,\"b\"\r\n"], [""]] := by
  intro records
  have hne : ["name"] ≠ [] := by simp
  exact ⟨hne, exported_table_reads_back records "unit" hne⟩

end RecordTable

end CampaignMarkup
