import BuildMender.Patch.EditStep
import BuildMender.Proofs.Path.Components
import BuildMender.Proofs.Path.Normalize

/-!
# The names of files in edit steps

The file of a step is named on a line of the patch's text, and the name is not taken as it stands there:
the blanks and ticks around it go, backslashes become slashes, and dots at its front are dropped. This
can make a name that escapes out of one that does not, and never the other way round
(`BuildMender.SourceFile.escapes_dropHere`). And it leaves no dot in front of a name, so that two steps
for one file name it alike up to idle slashes and dots (`BuildMender.EditStep.lead_of_mem_parse`).
-/

namespace BuildMender

/-! ### Names that escape -/

namespace SourceFile

/-- A dot in front of a path does not keep it from escaping. -/
theorem escapes_of_here {rest : Text} (h : Path.escapes ⟨'.' :: '/' :: rest⟩) : Path.escapes ⟨rest⟩ := by
  by_contra hc
  obtain ⟨-, hup⟩ := Path.escapes_eq_false.mp (eq_false_of_ne_true hc)
  have : Path.escapes ⟨'.' :: '/' :: rest⟩ = false := by
    refine Path.escapes_eq_false.mpr ⟨nofun, ?_⟩
    rwa [Path.body_here]
  rw [this] at h
  cases h

/-- **A path that escapes still does** when the dots at its front are dropped. -/
theorem escapes_dropHere {t : Text} (h : Path.escapes ⟨t⟩) : Path.escapes ⟨dropHere t⟩ := by
  induction t using dropHere.induct with
  | case1 rest ih => exact ih (escapes_of_here h)
  | case2 t hne =>
    rw [dropHere]
    · exact h
    · exact hne

/-- A name that is normalized starts with a dot only if it says nothing else. -/
theorem lead_normalize {raw : Text} (h : Path.body ⟨normalize raw⟩ ≠ []) :
    Path.lead ⟨normalize raw⟩ ≠ .here := by
  intro hl
  rw [Path.lead] at hl
  split at hl
  · cases hl
  · rename_i ht
    simp only at ht
    rw [ht] at h
    exact h rfl
  · rename_i rest ht
    exact dropHere_ne_here _ rest ht
  · cases hl

end SourceFile

namespace EditStep

variable {file : Option Text} {place : Place} {ls : List Text} {step : EditStep} {text raw : Text}

/-- The file of a step was in force before, or is named on a line. -/
theorem file_of_mem_ofLines (h : step ∈ ofLines file place ls) :
    file = some step.file ∨ ∃ line ∈ ls, fileNamed? line = some step.file := by
  induction ls generalizing file place with
  | nil => cases place <;> cases h
  | cons line rest ih =>
    have hmore : ∀ {place}, step ∈ ofLines file place rest →
        file = some step.file ∨ ∃ line' ∈ line :: rest, fileNamed? line' = some step.file := by
      intro place h
      exact (ih h).imp_right fun ⟨line', hl, hn⟩ => ⟨line', List.mem_cons_of_mem _ hl, hn⟩
    -- the file in force changes between blocks only
    cases place with
    | between =>
      rw [ofLines] at h
      split at h
      · rename_i name hname
        rcases ih h with hf | ⟨line', hl, hn⟩
        · exact Or.inr ⟨line, List.mem_cons_self, hname.trans hf⟩
        · exact Or.inr ⟨line', List.mem_cons_of_mem _ hl, hn⟩
      · split at h <;> exact hmore h
    | searching found =>
      rw [ofLines] at h
      split at h <;> exact hmore h
    | replacing found given =>
      rw [ofLines] at h
      split at h
      · rcases List.mem_append.mp h with h | h
        · cases file with
          | none => cases h
          | some name =>
            obtain rfl : step = _ := List.mem_singleton.mp h
            exact Or.inl rfl
        · exact hmore h
      · exact hmore h

/-- **The name that a line of a text gives to the file of a step**, as it is written there. -/
def WrittenAs (text : Text) (step : EditStep) (raw : Text) : Prop :=
  ∃ line ∈ Text.lines text, written? (Text.dropEnd (· = '\r') line) = some raw ∧
    step.file = SourceFile.normalize raw

theorem exists_writtenAs (h : step ∈ parse text) : ∃ raw, WrittenAs text step raw := by
  rcases file_of_mem_ofLines h with hf | ⟨line, hl, hn⟩
  · cases hf
  · obtain ⟨line, hline, rfl⟩ := List.mem_map.mp hl
    obtain ⟨raw, hraw, hname⟩ := Option.map_eq_some_iff.mp hn
    exact ⟨raw, line, hline, hraw, hname.symm⟩

theorem trim_of_written? {line : Text} (h : written? line = some raw) : Text.trim raw = raw := by
  rw [written?] at h
  dsimp only at h
  split at h
  · cases h
  · split at h
    · cases h
    · rw [← Option.some.inj h, Text.trim_trim]

/-- A step whose file is written with backslashes escapes if it would with slashes. -/
theorem WrittenAs.escapes (h : WrittenAs text step raw)
    (hraw : Path.escapes ⟨Text.replace '\\' '/' raw⟩) : Path.escapes ⟨step.file⟩ := by
  obtain ⟨line, -, hw, hfile⟩ := h
  rw [hfile, SourceFile.normalize, trim_of_written? hw]
  exact SourceFile.escapes_dropHere hraw

/-- The file of a step that names something has no lead, unless it escapes. -/
theorem lead_of_mem_parse (h : step ∈ parse text) (hesc : Path.escapes ⟨step.file⟩ = false)
    (hb : Path.body ⟨step.file⟩ ≠ []) : Path.lead ⟨step.file⟩ = .bare := by
  obtain ⟨raw, line, -, -, hfile⟩ := exists_writtenAs h
  have hroot := (Path.escapes_eq_false.mp hesc).1
  rw [hfile] at hb hroot ⊢
  have hhere := SourceFile.lead_normalize hb
  cases hl : Path.lead ⟨SourceFile.normalize raw⟩ with
  | root => exact absurd hl hroot
  | here => exact absurd hl hhere
  | bare => rfl

end EditStep

end BuildMender
