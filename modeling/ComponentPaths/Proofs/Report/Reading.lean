/-
Reports are read back.

The reader is the one of RFC 4180. It goes through a table character by
character: a comma ends a field, a carriage return with a line feed after it
ends a record, and inside of quotes neither does. A quote opens only at the
start of a field, and inside of quotes it has to be doubled. Everything else is
refused, a line break of another kind as well as a quote in the middle of a
field, so that what it reads is never a guess.

Reading follows writing. A field, whatever characters it has, leaves the
reader where a field may end, with just that text in hand (`run_field`). So the
comma after it puts one field more into the record, the line break puts one
record more into the table, and a table of records that have a field is read
back as it was (`read?_table`). The rows of a report have eleven fields, or
fourteen, and are such records.
-/
import ComponentPaths.Proofs.Text.Encoding
import ComponentPaths.Report

namespace ComponentPaths

namespace Csv

-- ============================================================== the reader

/-- Where a reader stands: at the start of a field, in one without quotes, in
quotes, after a quote in quotes, which ends them or is the first of two, or
after the carriage return that ends a record. -/
inductive Place where
  | start
  | plain
  | quoted
  | closing
  | returned
  deriving DecidableEq, Repr

/-- Whether a field may end here. -/
def Place.mayEnd : Place → Bool
  | .start | .plain | .closing => true
  | .quoted | .returned => false

/-- A reader: its place, the text of the field under way, the fields before it
in its record, and the records before that. -/
structure Reader where
  place : Place
  text : Text
  fields : List Text
  records : List (List Text)
  deriving DecidableEq, Repr

namespace Reader

/-- The field under way is complete. -/
def endField (r : Reader) : Reader :=
  ⟨.start, [], r.fields ++ [r.text], r.records⟩

/-- The record under way is complete. -/
def endRecord (r : Reader) : Reader :=
  ⟨.start, [], [], r.records ++ [r.fields ++ [r.text]]⟩

/-- One character more of the field under way. -/
def add (r : Reader) (c : Char) (place : Place) : Reader :=
  { r with place := place, text := r.text ++ [c] }

/-- A character where a field may end: it ends the field or the record, or goes
on as `more` says. -/
def stepOut (r : Reader) (c : Char) (more : Option Reader) : Option Reader :=
  if c = ',' then some r.endField
  else if c = '\r' then some { r with place := .returned }
  else more

/-- The reader after one more character, unless it refuses it. -/
def step (r : Reader) (c : Char) : Option Reader :=
  match r.place with
  | .start =>
    if c = '"' then some { r with place := .quoted }
    else r.stepOut c (if c = '\n' then none else some (r.add c .plain))
  | .plain => r.stepOut c (if c = '\n' ∨ c = '"' then none else some (r.add c .plain))
  | .quoted =>
    if c = '"' then some { r with place := .closing } else some (r.add c .quoted)
  | .closing => if c = '"' then some (r.add c .quoted) else r.stepOut c none
  | .returned => if c = '\n' then some r.endRecord else none

/-- The reader after a text. -/
def run (r : Reader) : Text → Option Reader
  | [] => some r
  | c :: t => (r.step c).bind fun next => next.run t

/-- The records once the text is over. The last one may have no line break. -/
def finish (r : Reader) : Option (List (List Text)) :=
  if r.place = .start ∧ r.fields = [] then some r.records
  else if r.place.mayEnd then some r.endRecord.records
  else none

end Reader

/-- The records that a text is the table of. -/
def read? (t : Text) : Option (List (List Text)) :=
  (Reader.run ⟨.start, [], [], []⟩ t).bind Reader.finish

/-- The records that some bytes are the table of. -/
def readBytes? (bytes : Bytes) : Option (List (List Text)) :=
  (Bytes.toText? bytes).bind read?

-- ================================================================ one field

namespace Reader

theorem run_append (r : Reader) (t u : Text) :
    r.run (t ++ u) = (r.run t).bind fun next => next.run u := by
  induction t generalizing r with
  | nil => rfl
  | cons c t ih =>
      simp only [List.cons_append, run]
      cases r.step c with
      | none => rfl
      | some next => exact ih next

theorem run_append_of_run {r next : Reader} {t : Text} (h : r.run t = some next) (u : Text) :
    r.run (t ++ u) = next.run u := by
  rw [run_append, h]
  rfl

/-- Inside of quotes, the doubled form of a text adds that text. -/
theorem run_doubled (t v : Text) (fields : List Text) (records : List (List Text)) :
    run ⟨.quoted, t, fields, records⟩ (doubled v) = some ⟨.quoted, t ++ v, fields, records⟩ := by
  induction v generalizing t with
  | nil =>
      rw [List.append_nil]
      rfl
  | cons c v ih =>
      have hnext := ih (t ++ [c])
      rw [List.append_assoc, List.singleton_append] at hnext
      rw [← hnext]
      unfold doubled
      rw [List.flatMap_cons]
      by_cases hc : c = '"'
      · subst hc
        rfl
      · rw [if_neg hc]
        simp only [List.singleton_append, run, step, if_neg hc]
        rfl

/-- A field that needs no quotes, once it is under way. -/
theorem run_plain (t : Text) {v : Text} (h : v.any isSpecial = false) (fields : List Text)
    (records : List (List Text)) :
    run ⟨.plain, t, fields, records⟩ v = some ⟨.plain, t ++ v, fields, records⟩ := by
  induction v generalizing t with
  | nil =>
      rw [List.append_nil]
      rfl
  | cons c v ih =>
      rw [List.any_cons, Bool.or_eq_false_iff] at h
      have hnext := ih (t ++ [c]) h.2
      rw [List.append_assoc, List.singleton_append] at hnext
      rw [← hnext]
      have hc : (c ≠ ',' ∧ c ≠ '"') ∧ c ≠ '\n' ∧ c ≠ '\r' := by
        simpa [isSpecial, and_assoc] using h.1
      simp only [run, step, stepOut, if_neg hc.1.1, if_neg hc.2.2,
        if_neg (not_or.2 ⟨hc.2.1, hc.1.2⟩)]
      rfl

/-- A written field leaves the reader where a field may end, with the text of
the field in hand. -/
theorem run_field (v : Text) (fields : List Text) (records : List (List Text)) :
    ∃ place : Place, place.mayEnd = true
      ∧ run ⟨.start, [], fields, records⟩ (field v) = some ⟨place, v, fields, records⟩ := by
  unfold field
  split
  · refine ⟨.closing, rfl, ?_⟩
    rw [List.cons_append]
    change run ⟨.quoted, [], fields, records⟩ (doubled v ++ ['"']) = _
    rw [run_append_of_run (run_doubled [] v fields records), List.nil_append]
    rfl
  · rename_i hplain
    rw [Bool.not_eq_true] at hplain
    cases v with
    | nil => exact ⟨.start, rfl, rfl⟩
    | cons c v =>
        refine ⟨.plain, rfl, ?_⟩
        rw [List.any_cons, Bool.or_eq_false_iff] at hplain
        have hc : (c ≠ ',' ∧ c ≠ '"') ∧ c ≠ '\n' ∧ c ≠ '\r' := by
          simpa [isSpecial, and_assoc] using hplain.1
        simp only [run, step, stepOut, if_neg hc.1.1, if_neg hc.1.2, if_neg hc.2.1,
          if_neg hc.2.2]
        exact run_plain [c] hplain.2 fields records

/-- A field and a comma: one field more in the record. -/
theorem run_field_comma (v rest : Text) (fields : List Text) (records : List (List Text)) :
    run ⟨.start, [], fields, records⟩ (field v ++ ',' :: rest)
      = run ⟨.start, [], fields ++ [v], records⟩ rest := by
  obtain ⟨place, hend, hrun⟩ := run_field v fields records
  rw [run_append_of_run hrun]
  cases place with
  | quoted => cases hend
  | returned => cases hend
  | _ => rfl

/-- A field and a line break: one record more in the table. -/
theorem run_field_break (v : Text) (fields : List Text) (records : List (List Text)) :
    run ⟨.start, [], fields, records⟩ (field v ++ "\r\n")
      = some ⟨.start, [], [], records ++ [fields ++ [v]]⟩ := by
  obtain ⟨place, hend, hrun⟩ := run_field v fields records
  rw [run_append_of_run hrun]
  cases place with
  | quoted => cases hend
  | returned => cases hend
  | _ => rfl

-- ======================================================= records and tables

/-- A written record puts its fields after those that are there. -/
theorem run_row {row : List Text} (h : row ≠ []) (fields : List Text)
    (records : List (List Text)) :
    run ⟨.start, [], fields, records⟩ (Csv.row row)
      = some ⟨.start, [], [], records ++ [fields ++ row]⟩ := by
  induction row generalizing fields with
  | nil => exact absurd rfl h
  | cons v rest ih =>
      unfold Csv.row Text.join at ih ⊢
      by_cases hrest : rest = []
      · subst hrest
        rw [List.map_singleton, List.intercalate_singleton]
        exact run_field_break v fields records
      · have hmap : rest.map field ≠ [] := fun hnil => hrest (List.map_eq_nil_iff.1 hnil)
        rw [List.map_cons, List.intercalate_cons_of_ne_nil hmap, List.append_assoc,
          List.append_assoc, List.singleton_append, run_field_comma, ih hrest,
          List.append_assoc, List.singleton_append]

theorem run_table {rows : List (List Text)} (h : ∀ row ∈ rows, row ≠ [])
    (records : List (List Text)) :
    run ⟨.start, [], [], records⟩ (table rows) = some ⟨.start, [], [], records ++ rows⟩ := by
  induction rows generalizing records with
  | nil =>
      rw [List.append_nil]
      rfl
  | cons row rows ih =>
      unfold table at ih ⊢
      rw [List.flatMap_cons, run_append_of_run (run_row (h row List.mem_cons_self) [] records),
        ih fun other hother => h other (List.mem_cons_of_mem _ hother)]
      rw [List.nil_append, List.append_assoc, List.singleton_append]

end Reader

/-- A table is read back, if each of its records has a field. -/
theorem read?_table {rows : List (List Text)} (h : ∀ row ∈ rows, row ≠ []) :
    read? (table rows) = some rows := by
  unfold read?
  rw [Reader.run_table h]
  rfl

example : read? "a,\"b\r\n\"\",\"\r\n,c"
    = some [[("a" : Text), ("b\r\n\"," : Text)], [("" : Text), ("c" : Text)]] := by decide

/-- A quote in the middle of a field is refused, and so is a lone line feed. -/
example : read? "a\"b\"\r\n" = none ∧ read? "a\nb\r\n" = none := by decide

theorem readBytes?_table {rows : List (List Text)} (h : ∀ row ∈ rows, row ≠ []) :
    readBytes? (Bytes.ofText (table rows)) = some rows := by
  unfold readBytes?
  rw [Bytes.toText?_ofText]
  exact read?_table h

end Csv

-- ================================================================= reports

namespace Report

theorem length_pathFields (f : Finding) : (pathFields f).length = pathColumns.length := by
  unfold pathFields
  cases f.target with
  | none => rfl
  | some owner => rfl

theorem pathFields_ne_nil (f : Finding) : pathFields f ≠ [] :=
  List.ne_nil_of_length_pos (by rw [length_pathFields]; decide)

theorem auditFields_ne_nil (f : Finding) : auditFields f ≠ [] :=
  List.append_ne_nil_of_left_ne_nil (pathFields_ne_nil f) _

theorem take_auditFields (f : Finding) :
    (auditFields f).take pathColumns.length = pathFields f :=
  List.take_left' (length_pathFields f)

/-- A header and one record for each finding, all of which have a field. -/
theorem readBytes?_rows {header : List Text} (hheader : header ≠ [])
    {fields : Finding → List Text} (hfields : ∀ f, fields f ≠ []) (findings : List Finding) :
    Csv.readBytes? (Bytes.ofText (Csv.table (header :: findings.map fields)))
      = some (header :: findings.map fields) := by
  refine Csv.readBytes?_table fun row hrow => ?_
  rcases List.mem_cons.1 hrow with rfl | hrow
  · exact hheader
  · obtain ⟨f, -, rfl⟩ := List.mem_map.1 hrow
    exact hfields f

/-- Both reports are read back from their bytes: the header, and one record for
each finding with the fields that were written, whatever they hold. The first
eleven columns of the audit report are the path report. -/
theorem reports_read_back (findings : List Finding) :
    Csv.readBytes? (Bytes.ofText (paths findings))
        = some (pathColumns :: findings.map pathFields)
      ∧ Csv.readBytes? (Bytes.ofText (audit findings))
        = some ((pathColumns ++ auditColumns) :: findings.map auditFields)
      ∧ (Csv.readBytes? (Bytes.ofText (audit findings))).map
          (fun records => records.map (List.take 11))
        = Csv.readBytes? (Bytes.ofText (paths findings)) := by
  have hpaths : Csv.readBytes? (Bytes.ofText (paths findings))
      = some (pathColumns :: findings.map pathFields) :=
    readBytes?_rows (List.cons_ne_nil _ _) pathFields_ne_nil findings
  have haudit : Csv.readBytes? (Bytes.ofText (audit findings))
      = some ((pathColumns ++ auditColumns) :: findings.map auditFields) :=
    readBytes?_rows (List.cons_ne_nil _ _) auditFields_ne_nil findings
  refine ⟨hpaths, haudit, ?_⟩
  have hrows : (findings.map auditFields).map (List.take 11) = findings.map pathFields := by
    rw [List.map_map]
    exact List.map_congr_left fun f _ => take_auditFields f
  rw [hpaths, haudit, Option.map_some, List.map_cons, hrows]
  rfl

end Report

end ComponentPaths
