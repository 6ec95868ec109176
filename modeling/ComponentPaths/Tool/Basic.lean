/-
The tools: report the path expressions of a codebase, change them, and
extract a component.
-/
import ComponentPaths.Extract
import ComponentPaths.Report
import ComponentPaths.Tool.Session

namespace ComponentPaths

/-- What can be done with a codebase. -/
inductive Tool where
  /-- A report on all path expressions. -/
  | findPaths
  /-- All decisions carried out. -/
  | applyDecisions
  /-- One component copied out. -/
  | extractComponent
  deriving DecidableEq, Repr

namespace Tool

/-- The name of a tool, after what all have in common. -/
def suffix : Tool → Text
  | .findPaths => "find-paths"
  | .applyDecisions => "rewrite"
  | .extractComponent => "extract-component"

/-- The full name of a tool. -/
def name (t : Tool) : Text :=
  "deroot-" ++ t.suffix

/-- Every tool. -/
def all : List Tool :=
  [.findPaths, .applyDecisions, .extractComponent]

/-- The tool with a name, full or not. -/
def ofName? (n : Text) : Option Tool :=
  all.find? fun t => t.suffix == n || t.name == n

-- =================================================================== arguments

/-- Options that all tools take. -/
def commonOptions : List Arguments.OptionSpec :=
  [⟨"settings", some 's', true⟩, ⟨"dump-dir", none, true⟩]

/-- What a tool takes. -/
def spec : Tool → Arguments.Spec
  | .findPaths => ⟨[⟨"root", true, true⟩, ⟨"output", false, true⟩], commonOptions⟩
  | .applyDecisions =>
    ⟨[⟨"root", true, true⟩],
      [⟨"audit", some 'a', true⟩, ⟨"dry-run", some 'd', false⟩] ++ commonOptions⟩
  | .extractComponent =>
    ⟨[⟨"root", true, true⟩, ⟨"component", true, false⟩, ⟨"output", true, true⟩], commonOptions⟩

-- ======================================================================== work

/-- How many findings somebody should look at. -/
def reviewCount (analyses : List Analysis) : Nat :=
  (analyses.flatMap Analysis.findings).countP Finding.needsReview

/-- How many files could not be parsed. -/
def failedCount (analyses : List Analysis) : Nat :=
  analyses.countP Analysis.parseFailed

/-- The settings that the arguments ask for. -/
def settingsOf (args : Arguments.Given) : Run Settings :=
  Session.loadSettings (args.option? "settings") (args.option? "dump-dir")

/-- The analyses of all PHP files of a codebase. -/
def analyzeAll (programs : Programs) (args : Arguments.Given) : Run (List Analysis) := do
  let settings ← settingsOf args
  let codebase ← Session.loadCodebase programs (args.place 0) settings
  let disk ← Session.currentDisk
  let files := Discovery.phpFiles disk codebase.root settings.skipDirs
  let analyses ← Session.onDisk (codebase.analyzeFiles files).perform none
  for analysis in analyses do
    Session.absorb analysis.log
  return analyses

/-- The report on all path expressions, printed. -/
def printPaths (programs : Programs) (args : Arguments.Given) : Run Unit := do
  let analyses ← analyzeAll programs args
  Session.printText (Report.paths (analyses.flatMap Analysis.findings))

/-- The report on all path expressions, in a file. -/
def writePaths (programs : Programs) (args : Arguments.Given) (output : Text) : Run Text := do
  let analyses ← analyzeAll programs args
  let findings := analyses.flatMap Analysis.findings
  Session.writeFile output (Report.paths findings)
  Session.log ("Report written to " ++ output)
  return "Summary: " ++ Text.ofNat analyses.length ++ " files, " ++ Text.ofNat findings.length
    ++ " path expressions, " ++ Text.ofNat (reviewCount analyses) ++ " need review, "
    ++ Text.ofNat (failedCount analyses) ++ " parse failures"

/-- All decisions carried out. -/
def applyAll (programs : Programs) (args : Arguments.Given) : Run Text := do
  let settings ← settingsOf args
  let codebase ← Session.loadCodebase programs (args.place 0) settings
  let disk ← Session.currentDisk
  let files := (Discovery.phpFiles disk codebase.root settings.skipDirs).filter fun file =>
    !settings.isExcluded file
  Session.log ("Analyzing " ++ Text.ofNat files.length ++ " files...")
  let analyses ← Session.onDisk (codebase.analyzeFiles files).perform none
  for analysis in analyses do
    Session.absorb analysis.log
  let dryRun := args.hasOption "dry-run"
  let outcome ← Session.onDisk (Batch.apply Disk.store codebase.root analyses dryRun) none
  Session.absorb outcome.log
  match args.option? "audit" with
  | some audit =>
    Session.writeFile audit (Report.audit (analyses.flatMap Analysis.findings))
    Session.log ("Audit written to " ++ audit)
  | none => pure ()
  return "Summary: " ++ Text.ofNat files.length ++ " files, " ++ Text.ofNat outcome.editsApplied
    ++ " edits in " ++ Text.ofNat outcome.filesChanged ++ " files, "
    ++ Text.ofNat (reviewCount analyses) ++ " need review, "
    ++ Text.ofNat (failedCount analyses) ++ " parse failures, "
    ++ Text.ofNat outcome.writeFailures ++ " write failures, "
    ++ Text.ofNat (← get).warnings ++ " warnings"

/-- One component copied out. -/
def extractOne (programs : Programs) (args : Arguments.Given) : Run Text := do
  let settings ← settingsOf args
  let codebase ← Session.loadCodebase programs (args.place 0) settings
  let component := args.place 1
  let output := args.place 2
  Session.log ("Extracting " ++ component ++ " to " ++ output)
  let outcome ← Session.onDisk (Extract.extract codebase component output).perform
    (some ("Failed to extract " ++ component))
  for analysis in outcome.analyses do
    Session.absorb analysis.log
  return "Summary: " ++ Text.ofNat outcome.filesCopied ++ " files copied, "
    ++ Text.ofNat outcome.editsApplied ++ " edits in " ++ Text.ofNat outcome.filesUpdated
    ++ " files, " ++ Text.ofNat (reviewCount outcome.analyses) ++ " need review"

/-- The work of a tool, up to the summary. A report that is printed has none, so
that nothing else is printed with it. -/
def work (t : Tool) (programs : Programs) (beginning : Beginning) (args : Arguments.Given) :
    Run (Option Text) :=
  let opening := Session.opening t.name (args.place 0) beginning
  match t with
  | .findPaths =>
    match args.place? 1 with
    | none => do
      printPaths programs args
      return none
    | some output => do
      opening
      return some (← writePaths programs args output)
  | .applyDecisions => do
    opening
    return some (← applyAll programs args)
  | .extractComponent => do
    opening
    return some (← extractOne programs args)

-- ======================================================================== runs

/-- What a run leaves. -/
structure Result where
  exitCode : Nat
  output : Text
  errors : Text
  disk : Disk

/-- A run whose work is done or has failed. -/
structure Progress where
  summary : Except Failure (Option Text)
  session : Session

/-- The use of a tool, in one line. -/
def usage (t : Tool) : Text :=
  let places : List Text := t.spec.places.map fun place =>
    if place.required then '<' :: place.name ++ ['>'] else '[' :: place.name ++ [']']
  let options : List Text := t.spec.options.map fun o => ['[', '-', '-'] ++ o.long ++ [']']
  "Usage: " ++ Text.join " " (t.name :: options ++ places) ++ "\n"

/-- A run that does not start: help ends well, and misuse with the code 2. -/
def refuse (t : Tool) (disk : Disk) : Arguments.Stop → Result
  | .help => ⟨0, t.usage, [], disk⟩
  | .misuse => ⟨2, [], t.usage, disk⟩

/-- The work of a run. -/
def start (t : Tool) (programs : Programs) (beginning : Beginning) (args : Arguments.Given)
    (disk : Disk) : Progress :=
  let (summary, session) := (t.work programs beginning args).run.run (Session.start disk)
  ⟨summary, session⟩

/-- The end of a run: a failure ends it with the code 1. -/
def finish (beginning : Beginning) (ending : Ending) (p : Progress) : Result :=
  match p.summary with
  | .error failure =>
    ⟨1, p.session.output, p.session.errors ++ failure.report, p.session.disk⟩
  | .ok none => ⟨0, p.session.output, p.session.errors, p.session.disk⟩
  | .ok (some summary) =>
    let (_, s) := (Session.closing beginning ending summary).run.run p.session
    ⟨0, s.output, s.errors, s.disk⟩

/-- A whole run of a tool on a disk. -/
def run (t : Tool) (programs : Programs) (beginning : Beginning) (ending : Ending)
    (arguments : List Text) (disk : Disk) : Result :=
  match Arguments.read t.spec arguments with
  | .error stop => t.refuse disk stop
  | .ok args => finish beginning ending (t.start programs beginning args disk)

end Tool

end ComponentPaths
