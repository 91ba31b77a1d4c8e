import BuildMender.Convention.Encoding
import BuildMender.Request

/-!
# Envelopes in JSON

An envelope without a build log is written without that field.
-/

namespace BuildMender

open Json

/-- A piece of a file as an object. -/
def FileContext.toJson (c : FileContext) : Json :=
  .object [("path", .string c.path), ("kind", .string c.kind.label), ("content", .string c.content),
    ("start_line", .word c.startLine), ("end_line", .word c.endLine), ("truncated", .bool c.truncated)]

/-- A summary of the project as an object. -/
def ProjectStructure.toJson (p : ProjectStructure) : Json :=
  .object [("build_dirs", texts p.buildDirs), ("presets", texts p.presets),
    ("ui_dir", .string p.interfaceDir), ("deps_dir", .string p.depsDir)]

/-- **An envelope as an object.** -/
def Envelope.toJson (e : Envelope) : Json :=
  .record
    [[("intent", .string e.intent.label), ("system_prompt", .string e.systemPrompt),
        ("user_prompt", .string e.userPrompt),
        ("file_context", .array (e.fileContext.map FileContext.toJson))],
      optionalField "build_log" .string e.buildLog,
      [("conventions", e.conventions.toJson), ("project_structure", e.projectStructure.toJson)]]

end BuildMender
