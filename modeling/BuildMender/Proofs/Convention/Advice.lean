import BuildMender.Convention.Check
import BuildMender.Proofs.Project.Load
import BuildMender.Proofs.SourceFile
import BuildMender.Proofs.Text.Class

/-!
# When following the advice helps

A header with a suffix of its own is to be renamed, and user interface code outside its directory is to be
moved. Whether the file is fine then depends on two readings of one setting. Who renames puts the *whole*
suffix behind the stem, and who checks looks at what stands behind the *last* dot. Who moves takes the setting
for a path, and who checks takes a backslash for a slash and says of no file that it lies in a directory
without names.

So the advice helps unless the setting reads differently (`BuildMender.Convention.advice_clears_iff`). What has to
be seen for the suffix is that letter case makes no difference: extensions are compared in the lower case of the
Unicode standard, suffixes in that of ASCII, and these agree on the extensions of headers
(`BuildMender.Convention.sameAscii_lowercase`).
-/

namespace BuildMender

namespace Convention

open Text SourceFile

variable {settings : Settings} {p : Path} {content dir suffix e : Text} {k : Convention}

/-- A file is reported for a convention. -/
def Reported (settings : Settings) (k : Convention) (p : Path) (content : Text) : Prop :=
  ∃ v ∈ check settings p content, v.kind = k

instance (settings : Settings) (k : Convention) (p : Path) (content : Text) :
    Decidable (Reported settings k p content) :=
  inferInstanceAs (Decidable (∃ v ∈ check settings p content, v.kind = k))

theorem reported_iff : Reported settings k p content ↔
    (isHeader p ∨ isImplementation p) ∧ breaks settings p content k := by
  have hall : k ∈ all := by cases k <;> decide
  rw [Reported, check, ← Bool.or_eq_true]
  split
  · rename_i hsource
    simp [hsource, hall, violation]
  · rename_i hsource
    simp [hsource]

/-! ### Renaming a header -/

/-- Only ASCII letters have the extension of a header for their lower case. -/
theorem sameAscii_lowercase (h : lowercase suffix ∈ headerExtensions) :
    sameAscii (lowercase suffix) suffix := by
  have hletters : ∀ e ∈ headerExtensions, e.all fun c => isAsciiLetter c && c != 'k' := by decide
  have hsmall : ∀ e ∈ headerExtensions, e.map asciiLower = e := by decide
  have hascii : ∀ c ∈ lowercase suffix, isAsciiLetter c ∧ c ≠ 'k' := by
    simpa using hletters _ h
  rw [sameAscii, hsmall _ h, ← lowercase_eq_map hascii, beq_self_eq_true]

/-- A suffix with a dot or a slash in it is the extension of no header. -/
theorem sameAscii_eq_false (he : e ∈ headerExtensions) (hsuffix : '.' ∈ suffix ∨ '/' ∈ suffix) :
    sameAscii e suffix = false := by
  have hplain : ∀ e ∈ headerExtensions,
      asciiLower '.' ∉ e.map asciiLower ∧ asciiLower '/' ∉ e.map asciiLower := by decide
  rw [sameAscii, beq_eq_false_iff_ne]
  intro heq
  obtain ⟨hdot, hslash⟩ := hplain e he
  rw [heq] at hdot hslash
  exact hsuffix.elim (fun h => hdot (List.mem_map_of_mem h)) fun h => hslash (List.mem_map_of_mem h)

/-- **A renamed header is reported again** just if it still is one and its suffix is not an extension, but holds
a dot or a slash. -/
theorem reported_renamed_iff (hs : settings.suffix ≠ []) (h : Reported settings .headerSuffix p content) :
    Reported settings .headerSuffix (renamed settings p) content ↔
      isHeader (renamed settings p) ∧ ('.' ∈ settings.suffix ∨ '/' ∈ settings.suffix) := by
  obtain ⟨hsource, hbreaks⟩ := reported_iff.mp h
  obtain ⟨n, hn⟩ := exists_fileName? hsource
  have hcheck : settings.checkHeaderSuffix := by
    simp only [breaks, breaksSuffix, Bool.and_eq_true] at hbreaks
    exact hbreaks.1.1
  rw [reported_iff, breaks, breaksSuffix, hcheck, Bool.true_and, Bool.and_eq_true, Bool.not_eq_true']
  constructor
  · rintro ⟨-, hheader, hsuffix⟩
    refine ⟨hheader, ?_⟩
    by_contra hplain
    obtain ⟨hdot, hslash⟩ := not_or.mp hplain
    -- otherwise its extension is the suffix, up to letter case
    rcases Path.extension?_withExtension (Path.body_ne_nil_of_fileName? hn) hs hdot hslash with hnone | hext
    · obtain ⟨m, hm⟩ := exists_fileName? (Or.inl hheader)
      exact absurd (hm.symm.trans hnone) (by simp)
    · have hlower : extension (renamed settings p) = lowercase settings.suffix := by
        rw [extension, renamed, hext]
        rfl
      rw [isHeader, List.contains_iff_mem, hlower] at hheader
      rw [hlower, sameAscii_lowercase hheader] at hsuffix
      cases hsuffix
  · rintro ⟨hheader, hsuffix⟩
    exact ⟨Or.inl hheader, hheader, sameAscii_eq_false (List.contains_iff_mem.mp hheader) hsuffix⟩

/-! ### Moving user interface code -/

/-- The path of a file that is moved into the directory for user interface code. -/
def moved (settings : Settings) (p : Path) : Path :=
  Path.join ⟨settings.interfaceDir⟩ ⟨p.fileName?.getD []⟩

/-- The names of a directory, taken for a path: only slashes separate them. -/
def pathNames (dir : Text) : List Text := (Path.body ⟨dir⟩).map Path.Component.text

/-- Without a backslash there is one way to read a directory. -/
theorem directoryNames_eq (h : '\\' ∉ dir) : directoryNames dir = pathNames dir := by
  have hsplit : Text.split (fun c => c = '/' || c = '\\') dir = Path.slashed dir := by
    rw [Path.slashed]
    induction dir with
    | nil => rfl
    | cons c cs ih =>
      obtain ⟨hc, hcs⟩ := not_or.mp (mt List.mem_cons.mpr h)
      rw [Text.split, Text.split, ih hcs]
      simp [Ne.symm hc]
  rw [directoryNames, hsplit, pathNames, Path.body, List.map_map]
  exact ((List.map_congr_left fun piece _ => Path.text_component piece).trans (List.map_id _)).symm

/-- A moved file keeps its name, and the directories it lies in are those of the setting. -/
theorem moved_keeps (settings : Settings) {n : Text} (hn : p.fileName? = some n) :
    (moved settings p).fileName? = p.fileName? ∧ (moved settings p).body ≠ [] ∧
      parentNames (moved settings p) = pathNames settings.interfaceDir := by
  obtain ⟨hbody, hlead⟩ := Path.body_of_fileName? hn
  have hmoved : moved settings p = Path.join ⟨settings.interfaceDir⟩ ⟨n⟩ := by rw [moved, hn]; rfl
  have hjoin : (Path.join ⟨settings.interfaceDir⟩ ⟨n⟩).body =
      Path.body ⟨settings.interfaceDir⟩ ++ [.name n] := by
    rw [Path.body_join hlead, hbody]
  rw [hmoved, hn, fileName?_join hlead (by simp [hbody]), Path.fileName?_eq, hbody, parentNames, hjoin,
    List.dropLast_concat]
  exact ⟨rfl, by simp, rfl⟩

/-- **A moved file is reported again** just if its directory has no names, or other ones for the check than for
the path. -/
theorem reported_moved_iff (h : Reported settings .interfaceDir p content) :
    Reported settings .interfaceDir (moved settings p) content ↔
      directoryNames settings.interfaceDir = [] ∨ '\\' ∈ settings.interfaceDir ∧
        ¬directoryNames settings.interfaceDir <:+: pathNames settings.interfaceDir := by
  obtain ⟨hsource, hbreaks⟩ := reported_iff.mp h
  obtain ⟨n, hn⟩ := exists_fileName? hsource
  obtain ⟨hname, hbody, hnames⟩ := moved_keeps settings hn
  simp only [breaks, breaksInterfaceDir, Bool.and_eq_true] at hbreaks
  have hunder : isUnder settings.interfaceDir (moved settings p) = false ↔
      directoryNames settings.interfaceDir = [] ∨
        ¬directoryNames settings.interfaceDir <:+: pathNames settings.interfaceDir := by
    rw [← Bool.not_eq_true, isUnder_iff hbody, hnames, not_and_or, ne_eq, not_not]
  rw [reported_iff, isHeader_congr hname, isImplementation_congr hname, breaks, breaksInterfaceDir,
    hbreaks.1.1, hbreaks.1.2, Bool.true_and, Bool.true_and, Bool.not_eq_true', hunder]
  constructor
  · rintro ⟨-, hnone | hrun⟩
    · exact Or.inl hnone
    · refine Or.inr ⟨?_, hrun⟩
      by_contra hplain
      exact hrun (directoryNames_eq hplain ▸ List.infix_rfl)
  · rintro (hnone | ⟨-, hrun⟩)
    · exact ⟨hsource, Or.inl hnone⟩
    · exact ⟨hsource, Or.inr hrun⟩

/-! ### The advice -/

/-- **Following the advice clears a report**, with the settings of any project without a flaw, except in these
cases. A renamed header is reported again if its suffix holds a dot, or a slash, which is one of the path then
(`BuildMender.Path.replaceExtension`), and it still is a header; a moved file is if the directory has no names,
or is spelled with a backslash and has names for the check that do not stand in a row among those of the
path. -/
theorem advice_clears_iff {project : Project} (h : project.flaw? = none) (p : Path) (content : Text) :
    (Reported project.conventions .headerSuffix p content →
      (Reported project.conventions .headerSuffix (renamed project.conventions p) content ↔
        isHeader (renamed project.conventions p) ∧
          ('.' ∈ project.conventions.suffix ∨ '/' ∈ project.conventions.suffix))) ∧
    (Reported project.conventions .interfaceDir p content →
      (Reported project.conventions .interfaceDir (moved project.conventions p) content ↔
        directoryNames project.conventions.interfaceDir = [] ∨
          '\\' ∈ project.conventions.interfaceDir ∧
            ¬directoryNames project.conventions.interfaceDir <:+:
              pathNames project.conventions.interfaceDir)) :=
  ⟨reported_renamed_iff (Project.flaw?_eq_none.mp h).2.2.2, reported_moved_iff⟩

/-- With the settings of a project that says nothing, a header that is renamed and a dialog that is moved are
reported no more. -/
theorem default_advice_clears :
    ({} : Project).flaw? = none ∧
    Reported {} .headerSuffix "src/a.h" "#pragma once\n" ∧
    ¬Reported {} .headerSuffix (renamed {} "src/a.h") "#pragma once\n" ∧
    Reported {} .interfaceDir "src/a.cpp" "QDialog d;\n" ∧
    ¬Reported {} .interfaceDir (moved {} "src/a.cpp") "QDialog d;\n" := by
  have hheader : Reported {} .headerSuffix "src/a.h" "#pragma once\n" := by decide
  have hdialog : Reported {} .interfaceDir "src/a.cpp" "QDialog d;\n" := by decide
  have hflaw : ({} : Project).flaw? = none := by decide
  refine ⟨hflaw, hheader, ?_, hdialog, ?_⟩
  · exact fun h => absurd (((advice_clears_iff hflaw _ _).1 hheader).mp h) (by decide)
  · exact fun h => absurd (((advice_clears_iff hflaw _ _).2 hdialog).mp h) (by decide)

/-- A project whose headers are to end with `.gen.h`. -/
def generated : Project := { conventions := { headerSuffix := "gen.h" } }

/-- **A suffix with a dot in it** is found on no header: the file that was renamed as advised is reported as the
one before it was. -/
theorem dotted_suffix_reported_again :
    generated.flaw? = none ∧
    Reported generated.conventions .headerSuffix "src/a.hpp" "#pragma once\n" ∧
    renamed generated.conventions "src/a.hpp" = ("src/a.gen.h" : Path) ∧
    Reported generated.conventions .headerSuffix "src/a.gen.h" "#pragma once\n" := by
  decide

end Convention

end BuildMender
