/-
Reports: a table with one row for each finding. The audit report adds what
was decided to the columns of the path report.
-/
import ComponentPaths.Csv
import ComponentPaths.Finding

namespace ComponentPaths.Report

/-- The columns of the path report. -/
def pathColumns : List Text :=
  ["file", "component", "start_line", "end_line", "source", "symbolic_path", "target_type",
    "target_name", "target_relative_path", "category", "review"]

/-- The columns that the audit report adds. -/
def auditColumns : List Text :=
  ["replacement", "explanation", "worth_investigating"]

/-- A truth value in a report. -/
def truth : Bool → Text
  | true => "true"
  | false => "false"

/-- The type, name and path of a target; all empty when there is none. -/
def targetFields : Option Owner → List Text
  | some target =>
    [target.component.typeName, target.component.name?.getD [], target.relativePath]
  | none => [[], [], []]

/-- The row of a finding in the path report. -/
def pathFields (f : Finding) : List Text :=
  [f.file, f.fileOwner.component.display, Text.ofNat f.expression.startLine,
    Text.ofNat f.expression.endLine, f.expression.source, f.expression.symbolic]
    ++ targetFields f.target
    ++ [(f.category.map Category.name).getD [], truth f.needsReview]

/-- The row of a finding in the audit report. -/
def auditFields (f : Finding) : List Text :=
  pathFields f
    ++ [f.decision.replacement.getD [], f.decision.explanation,
      truth f.decision.worthInvestigating]

/-- The path report of some findings. -/
def paths (findings : List Finding) : Text :=
  Csv.table (pathColumns :: findings.map pathFields)

/-- The audit report of some findings. -/
def audit (findings : List Finding) : Text :=
  Csv.table ((pathColumns ++ auditColumns) :: findings.map auditFields)

end ComponentPaths.Report
