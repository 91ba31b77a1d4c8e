import BuildMender.Json.Writer
import BuildMender.Report.Encoding
import BuildMender.Report.Reading
import BuildMender.Request.Encoding
import BuildMender.Yaml

/-!
# The forms of a report

Every result can be shown in three forms: as JSON or YAML of one and the same value, for programs, and
as text for a reader.
-/

namespace BuildMender

/-- The forms of a report. -/
inductive ReportForm where
  | json
  | yaml
  | human
deriving DecidableEq, Inhabited

/-- The word for a form. -/
def ReportForm.label : ReportForm → Text
  | .json => "json"
  | .yaml => "yaml"
  | .human => "human"

/-- What can be reported. -/
inductive Report where
  | build (r : BuildResult)
  | fix (r : FixReport)
  | diagnostics (ds : List Diagnostic)
  | check (cs : List FileCheck)
  | dependencies (dir : Path) (c : DependencyCheck)
  | buildDirs (dirs : List Path)
  | envelope (e : Envelope)
  | patch (s : PatchSummary)
  | settings (s : ToolSettings)

namespace Report

/-- A report as a value. -/
def value : Report → Json
  | .build r => r.toJson
  | .fix r => r.toJson
  | .diagnostics ds => Diagnostic.listToJson ds
  | .check cs => .array (cs.map FileCheck.toJson)
  | .dependencies dir c => c.toJsonIn dir
  | .buildDirs dirs => .array (dirs.map .path)
  | .envelope e => e.toJson
  | .patch s => s.toJson
  | .settings s => .object (s.entries.map fun e => (e.1, .string e.2))

/-- A report for a reader. -/
def reading : Report → Text
  | .build r => Reading.build r
  | .fix r => Reading.fix r
  | .diagnostics ds => Reading.diagnostics ds
  | .check cs => cs.flatMap Reading.check
  | .dependencies dir c => Reading.dependenciesOf dir c
  | .buildDirs dirs => Reading.buildDirs dirs
  | .envelope e => Reading.envelope e
  | .patch s => Reading.patch s
  | .settings s => s.display

/-- **A report in a form.** -/
def render (form : ReportForm) (r : Report) : Text :=
  match form with
  | .json => r.value.pretty
  | .yaml => Yaml.write r.value
  | .human => r.reading

end Report

end BuildMender
