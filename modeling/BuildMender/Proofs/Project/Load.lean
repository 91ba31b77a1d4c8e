import BuildMender.Build.Builder
import BuildMender.Project.Load
import BuildMender.Proofs.Build.Watch
import BuildMender.Proofs.CommandLine
import BuildMender.Proofs.Diagnostic.Seam
import BuildMender.Request.Assemble
import Mathlib.Data.List.Nodup

/-!
# What a loaded project can be relied on for

A description is checked once, when it is loaded, and four others rely on that check
(`BuildMender.Project.load_relied_on`): who looks up a preset by its id, who picks a preset without being given
an id, who runs a preset's command, and who picks the prompts. None of them checks again, and what each of them
does with a description that was not checked is a fallback that a loaded one never takes.

For commands this rests on two notions of a blank text being the same: the check trims the command, and the
reader of commands splits it at blanks outside quotes. A command that is not blank begins a word at its first
character that is no blank, even if that is a quote that is never closed
(`BuildMender.CommandLine.isSome_parse_iff`).
-/

namespace BuildMender

open Text

namespace CommandLine

/-- **A line is a command** exactly if there is more on it than blanks. -/
theorem isSome_parse_iff {line : Text} : (parse line).isSome ↔ ∃ c ∈ line, isBlank c = false := by
  have hwords : (parse line).isSome ↔ words line ≠ [] := by
    rw [parse]
    split <;> simp_all
  rw [hwords, words]
  clear hwords
  induction line with
  | nil => simp [wordsFrom]
  | cons c line ih =>
    -- once a word has begun, there is a first word, however the line goes on
    have hbegun (quotes : Quotes) (w t : Text) : wordsFrom quotes (some w) t ≠ [] := by
      obtain ⟨first, more, hfirst, -⟩ := exists_wordsFrom quotes List.prefix_rfl t (v := w)
      rw [hfirst]
      exact List.cons_ne_nil first more
    rw [wordsFrom]
    split
    · rename_i hc
      exact iff_of_true (hbegun _ _ _) ⟨c, List.mem_cons_self, hc ▸ by decide⟩
    split
    · rename_i hc
      exact iff_of_true (hbegun _ _ _) ⟨c, List.mem_cons_self, hc ▸ by decide⟩
    split
    · rename_i hc
      simpa [hc] using ih
    · rename_i hc
      exact iff_of_true (hbegun _ _ _) ⟨c, List.mem_cons_self, by simpa using hc⟩

end CommandLine

/-! ### Running a preset -/

namespace Builder

variable {b : Builder} {preset : Preset} {action : BuildAction} {command : Text} {line : CommandLine}

/-- What a build reports whose command is empty. -/
def emptyCommand (preset : Preset) (action : BuildAction) : Text :=
  "Preset " ++ preset.id ++ " has an empty " ++ action.label ++ " command"

/-- Only an empty command is reported as empty. One that is not may fail to start, but for another reason. -/
theorem launchBy_eq_emptyCommand_iff {ρ : Type} (start : CommandLine → Except Text ρ) :
    launchBy start preset action command = .error (emptyCommand preset action) ↔
      CommandLine.parse command = none := by
  rw [launchBy]
  cases CommandLine.parse command with
  | none => exact iff_of_true rfl rfl
  | some line =>
    refine iff_of_false ?_ (by simp)
    -- the two reasons differ in their first letter
    have hempty : (emptyCommand preset action).head? = some 'P' := by
      unfold emptyCommand
      rw [List.append_assoc, List.append_assoc, List.append_assoc, List.head?_append,
        show ("Preset " : Text).head? = some 'P' by decide, Option.some_or]
    have hfailed (t : Text) : (("Failed to start " : Text) ++ t).head? = some 'F' := by
      rw [List.head?_append, show ("Failed to start " : Text).head? = some 'F' by decide,
        Option.some_or]
    dsimp only
    cases start line with
    | ok started =>
      intro heq
      cases heq
    | error e =>
      intro heq
      injection heq with heq
      rw [← heq, List.append_assoc, List.append_assoc, hfailed] at hempty
      exact absurd hempty (by decide)

/-- **A preset's command that is not empty** is run, in whatever way commands are, and its result is not that
of an empty command. -/
theorem exists_runBy {running : Running} {root : Path} {w : Workspace}
    (hcommand : preset.command? action = some command) (h : CommandLine.parse command = some line) :
    ∃ r after, b.runBy running root preset action w = .ok (r, after) ∧
      ¬(r.termination = .spawnFailed ∧ r.stderr = emptyCommand preset action) := by
  have hrun : b.runBy running root preset action w =
      .ok (b.runCommandBy running root preset action command w) := by
    rw [runBy, commandOf, hcommand]
    rfl
  refine ⟨(b.runCommandBy running root preset action command w).1, _, hrun, ?_⟩
  obtain ⟨check, hresult⟩ := b.exists_runCommandBy running root preset action command w
  rw [hresult]
  cases hlaunched : launchBy (running w.disk root) preset action command with
  | error reason =>
    rintro ⟨-, hempty⟩
    have hnone := (launchBy_eq_emptyCommand_iff _).mp (hlaunched.trans (congrArg Except.error hempty))
    cases h.symm.trans hnone
  | ok started =>
    rintro ⟨hrefused, -⟩
    have hwatched := Watch.ofSignals_ne_spawnFailed b.timeout started.2
    obtain ⟨termination, hended⟩ := Option.isSome_iff_exists.mp
      (Watch.isSome_termination_ofSignals b.timeout started.2)
    have htermination : (Watch.ofSignals b.timeout started.2).termination.getD .exited = .spawnFailed :=
      hrefused
    rw [hended, Option.getD_some] at htermination
    exact hwatched (htermination ▸ hended)

end Builder

/-! ### Presets without a flaw -/

namespace Project

variable {c : Project} {seen : List Text} {ps : List Preset}

theorem presetFlaw?_eq_none : presetFlaw? seen ps = none ↔
    (ps.map Preset.id).Nodup ∧ ∀ p ∈ ps, p.id ∉ seen ∧
      ∀ t ∈ [p.id, p.configure, p.build], ∃ c ∈ t, isBlank c = false := by
  induction ps generalizing seen with
  | nil => simp [presetFlaw?]
  | cons p ps ih =>
    have hstep : presetFlaw? seen (p :: ps) = none ↔ p.id ∉ seen ∧
        (∀ t ∈ [p.id, p.configure, p.build], allBlank t = false) ∧ presetFlaw? (p.id :: seen) ps = none := by
      rw [presetFlaw?, isEmpty_trim, isEmpty_trim, isEmpty_trim]
      grind
    rw [hstep, ih, List.map_cons, List.nodup_cons,
      List.forall_mem_cons (p := fun q : Preset => q.id ∉ seen ∧ _)]
    simp only [allBlank_eq_false, List.mem_map, List.mem_cons, not_or]
    grind

/-- **Without a flaw** there are different ids, nothing blank where there must be something, a known template,
and a suffix. -/
theorem flaw?_eq_none : c.flaw? = none ↔
    (c.presets.map Preset.id).Nodup ∧
    (∀ p ∈ c.presets, ∀ t ∈ [p.id, p.configure, p.build], ∃ c ∈ t, isBlank c = false) ∧
    (Prompt.ofTemplate? c.template).isSome ∧ c.conventions.suffix ≠ [] := by
  have hpresets := @presetFlaw?_eq_none [] c.presets
  simp only [List.not_mem_nil, not_false_eq_true, true_and] at hpresets
  rw [← and_assoc, ← hpresets, flaw?]
  cases presetFlaw? [] c.presets with
  | some flaw => simp
  | none =>
    cases Prompt.ofTemplate? c.template <;> cases c.conventions.suffix <;> simp

/-- A project that says nothing has no flaw. -/
theorem flaw?_default : ({} : Project).flaw? = none := by
  decide

/-- A description that is loaded has no flaw. -/
theorem flaw?_of_load {disk : Disk} {root : Path} (h : load disk root = .ok c) : c.flaw? = none := by
  rw [load] at h
  split at h
  · cases hread : disk.readText (root.join ⟨fileName⟩) with
    | error e =>
      rw [hread] at h
      cases h
    | ok t =>
      rw [hread] at h
      change ofText _ t = .ok c at h
      rw [ofText] at h
      split at h
      · cases h
      · split at h
        · cases h
        · rename_i hflaw
          cases h
          exact hflaw
  · cases h
    exact flaw?_default

/-! ### Finding a preset -/

/-- With different ids, a preset is found by its own. -/
theorem preset?_of_nodup (h : (c.presets.map Preset.id).Nodup) {p : Preset} (hp : p ∈ c.presets) :
    c.preset? p.id = some p := by
  obtain ⟨q, hq⟩ : ∃ q, c.preset? p.id = some q :=
    Option.isSome_iff_exists.mp (List.find?_isSome.mpr ⟨p, hp, beq_self_eq_true p.id⟩)
  have hid : q.id = p.id := by simpa using List.find?_some hq
  rw [hq, List.inj_on_of_nodup_map h (List.mem_of_find?_eq_some hq) hp hid]

theorem mem_of_defaultPreset? {p : Preset} (h : c.defaultPreset? = some p) : p ∈ c.presets := by
  rw [defaultPreset?, Option.orElse_eq_or, Option.or_eq_some_iff] at h
  rcases h with hplatform | ⟨-, hfirst⟩
  · exact List.mem_of_find?_eq_some hplatform
  · exact List.mem_of_head? hfirst

theorem defaultPreset?_eq_none : c.defaultPreset? = none ↔ c.presets = [] := by
  rw [defaultPreset?, Option.orElse_eq_or, Option.or_eq_none_iff, List.head?_eq_none_iff, and_iff_right_iff_imp]
  intro hnone
  rw [hnone]
  rfl

/-- **What a loaded project can be relied on for.** Its commands are run in whatever way commands are. -/
theorem load_relied_on {disk : Disk} {root : Path} (h : load disk root = .ok c) :
    (c.presets.map Preset.id).Nodup ∧
    (∀ p ∈ c.presets, (∃ x ∈ p.id, isBlank x = false) ∧ c.preset? p.id = some p) ∧
    (c.defaultPreset? = none ↔ c.presets = []) ∧ (∀ p, c.defaultPreset? = some p → p ∈ c.presets) ∧
    (∀ p ∈ c.presets, ∀ action, action ≠ .clean → ∃ command line,
      p.command? action = some command ∧ CommandLine.parse command = some line ∧
      ∀ (b : Builder) (running : Builder.Running) (at_ : Path) (w : Workspace), ∃ r after,
        b.runBy running at_ p action w = .ok (r, after) ∧
        ¬(r.termination = .spawnFailed ∧ r.stderr = Builder.emptyCommand p action)) ∧
    ∃ prompt, Prompt.ofTemplate? c.template = some prompt ∧
      ∀ a : Assembler, a.project = c → ∀ intent presetId, a.systemPrompt intent presetId =
        Template.interpolate (Template.ofPairs (a.holes presetId))
          (if intent = .fix then prompt.fix else prompt.general) := by
  obtain ⟨hnodup, htexts, htemplate, -⟩ := flaw?_eq_none.mp (flaw?_of_load h)
  refine ⟨hnodup, fun p hp => ⟨htexts p hp p.id List.mem_cons_self, preset?_of_nodup hnodup hp⟩,
    defaultPreset?_eq_none, fun p => mem_of_defaultPreset?, fun p hp action haction => ?_, ?_⟩
  · have hcommand : ∃ command, p.command? action = some command ∧ command ∈ [p.id, p.configure, p.build] := by
      cases action with
      | clean => exact absurd rfl haction
      | _ => exact ⟨_, rfl, by simp⟩
    obtain ⟨command, hcommand, hmem⟩ := hcommand
    obtain ⟨line, hline⟩ := Option.isSome_iff_exists.mp
      (CommandLine.isSome_parse_iff.mpr (htexts p hp command hmem))
    exact ⟨command, line, hcommand, hline, fun b running at_ w => Builder.exists_runBy hcommand hline⟩
  · obtain ⟨prompt, hprompt⟩ := Option.isSome_iff_exists.mp htemplate
    refine ⟨prompt, hprompt, ?_⟩
    rintro a rfl intent presetId
    unfold Assembler.systemPrompt
    rw [hprompt]
    cases intent <;> rfl

/-- A preset with blanks around its id, whose commands are a quote and a word of nothing between quotes. -/
theorem load_relied_on_with_quotes : ∃ (disk : Disk) (c : Project) (p : Preset), load disk ⟨"/p"⟩ = .ok c ∧
    c.presets = [p] ∧ p.id = " a ".toList ∧ c.preset? p.id = some p ∧ c.defaultPreset? ≠ none ∧
    (∃ line, CommandLine.parse "\"" = some line) ∧ (∃ line, CommandLine.parse " \x27\x27" = some line) ∧
    ∃ prompt, Prompt.ofTemplate? c.template = some prompt := by
  let p : Preset := { id := " a ", configure := "\"", build := " \x27\x27", buildDir := ⟨"b"⟩ }
  let t : Text := "\x7b\"presets\": [\x7b\"id\": \" a \", \"name\": \"\", \"configure\": \"\\\"\", " ++
    "\"build\": \" \x27\x27\", \"build_dir\": \"b\"\x7d], \"template\": \" cmake-library \"\x7d"
  let disk : Disk := { nodes := [(["p"], .directory), (["p", "plugwright.json"], .file (Text.toBytes t))] }
  have hfacts : (load disk ⟨"/p"⟩).toOption.map (fun c => decide (c.presets = [p])) = some true := by
    decide +kernel
  cases h : load disk ⟨"/p"⟩ with
  | error e =>
    rw [h] at hfacts
    cases hfacts
  | ok c =>
    rw [h] at hfacts
    have hpresets : c.presets = [p] := of_decide_eq_true (Option.some.inj hfacts)
    have hmem : p ∈ c.presets := hpresets ▸ List.mem_singleton_self p
    obtain ⟨-, hpreset, hdefault, -, hcommand, prompt, hprompt, -⟩ := load_relied_on h
    obtain ⟨_, line, hconfigure, hline, -⟩ := hcommand p hmem .configure (by decide)
    obtain ⟨_, line', hbuild, hline', -⟩ := hcommand p hmem .build (by decide)
    obtain rfl := Option.some.inj hconfigure
    obtain rfl := Option.some.inj hbuild
    exact ⟨disk, c, p, h, hpresets, rfl, (hpreset p hmem).2, fun hnone => List.cons_ne_nil p []
      (hpresets.symm.trans (hdefault.mp hnone)), ⟨line, hline⟩, ⟨line', hline'⟩, prompt, hprompt⟩

end Project

end BuildMender
