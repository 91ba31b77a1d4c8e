import BuildMender.Cli
import BuildMender.Proofs.Convention.Mend
import BuildMender.Proofs.Disk.Name
import BuildMender.Proofs.Patch.Edits

/-!
# Checking and mending files comes to rest

Files that are checked and mended are settled when the run is over, and a second run finds what the first
one left and writes nothing (`BuildMender.Cli.World.check_check`). The files may be named in any way and as
often as one likes.

The whole point is that a settled file is never written again, under whatever spelling it comes up next
(`BuildMender.Cli.Tended.read`): whether a file is settled is a matter of its name and its content, and all
spellings of a file end in its name. So what is reported about a file when it is checked is still true when
the run is over (`BuildMender.Cli.Tended.reports`), and a run in which everything that is to be reported is
true from the start reports just that (`BuildMender.Cli.World.checkFiles_of_reports`).

What is written are headers and implementations. The description of the project is neither, so the second
run checks against the conventions of the first.

All this needs that what has to be written may be. A file that is not settled and may not be written over is
*barred* (`BuildMender.Cli.Barred`), and the first one of these in the list ends the run with its error. Files
are barred or not before the run begins: what is mended on the way is no file that is barred, under whatever
spelling (`BuildMender.Cli.Tended.barred`), and bars none (`BuildMender.Cli.Tended.barred_before`).
-/

namespace BuildMender

namespace Cli

open Convention (Settled Settings)
open Disk (Rewritten)
open Path (IsName assemble)
open World (fullPath shownPath)

/-! ### Roots and the files named from there -/

/-- A directory spelled out from the root of the disk. -/
def IsRoot (d : Disk) (root : Path) : Prop :=
  ∃ r, root = assemble .root r ∧ (∀ n ∈ r, IsName n) ∧ d.node? r = some .directory

variable {d d' d'' : Disk} {root p file : Path} {files : List Path} {t : Text} {c : Project}
  {settings : Settings} {at_ : Place} {w : World} {s : Subject} {e : FileError}

theorem IsRoot.lead (h : IsRoot d root) : root.lead = .root := by
  obtain ⟨r, rfl, -, -⟩ := h
  rfl

theorem IsRoot.text_ne_nil (h : IsRoot d root) : root.text ≠ [] := by
  obtain ⟨r, rfl, -, -⟩ := h
  exact List.cons_ne_nil _ _

theorem IsRoot.of_rewritten (h : IsRoot d root) (hd : Rewritten d d') : IsRoot d' root := by
  obtain ⟨r, hr, hnames, hn⟩ := h
  exact ⟨r, hr, hnames, (hd.directories r).mp hn⟩

theorem lead_fullPath (h : IsRoot d root) (file : Path) : (fullPath root file).lead = .root := by
  rw [fullPath]
  split
  · rename_i ha
    simpa [Path.isAbsolute] using ha
  · rename_i ha
    rw [Path.lead_join (by simpa [Path.isAbsolute] using ha) h.text_ne_nil, h.lead]

/-- A root leads to no file. -/
theorem IsRoot.readText_ne (h : IsRoot d root) (hc : p.components = root.components) :
    d.readText p ≠ .ok t := by
  intro hread
  obtain ⟨-, -, q, b, hf, hn, -, -⟩ := Disk.readText_eq_ok_iff.mp hread
  obtain ⟨r, rfl, hnames, hdir⟩ := h
  rw [hc] at hf
  rw [Disk.eq_of_follow_assemble hnames hf, hdir] at hn
  cases hn

/-- **A file is reported under its name.** -/
theorem fileName?_shownPath (h : IsRoot d root) (hread : d.readText (fullPath root file) = .ok t) :
    (shownPath root file).fileName? = (fullPath root file).fileName? := by
  have hroot : root.components ≠ [] := by simp [Path.components_eq, h.lead, Path.Lead.components]
  by_cases hpre : root.components <+: (fullPath root file).components
  · -- what is left of the path names something, since the root itself is no file
    obtain ⟨rel, hrel, hlead, hcomponents⟩ := Path.exists_relativeTo? hpre fun hc => absurd hc hroot
    have hbody : rel.body ≠ [] := fun hb => by
      rw [hb, List.append_nil] at hcomponents
      exact h.readText_ne hcomponents.symm hread
    have hjoin : (root.join rel).components = (fullPath root file).components := by
      rw [Path.components_join_of_bare hlead, hcomponents]
    have hname : (root.join rel).fileName? = rel.fileName? :=
      SourceFile.fileName?_join (by simp [hlead]) hbody
    rw [shownPath, hrel, Option.getD_some, ← hname, Path.fileName?_eq, Path.fileName?_eq,
      (Path.components_inj.mp hjoin).2]
  · have hnone : root.relativeTo? (fullPath root file) = none := by
      rw [Path.relativeTo?, if_neg (by rwa [List.isPrefixOf_iff_prefix])]
    -- a relative path is taken from the root, so this one is not
    have habsolute : file.isAbsolute := by
      by_contra ha
      refine hpre ?_
      rw [fullPath, if_neg ha, Path.components_join (by simpa [Path.isAbsolute] using ha)
        (Or.inl h.text_ne_nil)]
      exact List.prefix_append _ _
    rw [shownPath, hnone, Option.getD_none, fullPath, if_pos habsolute]

/-- **All spellings of a file** read the same text, and end in the same name. -/
theorem alike_of_place {p' : Path} {t' : Text} (hf : d.follow [] p.components = .ok at_)
    (hf' : d.follow [] p'.components = .ok at_) (hread : d.readText p = .ok t)
    (hread' : d.readText p' = .ok t') : t' = t ∧ p'.fileName? = p.fileName? := by
  obtain ⟨-, -, q, b, hq, hn, -, hb⟩ := Disk.readText_eq_ok_iff.mp hread
  obtain rfl := Except.ok.inj (hf.symm.trans hq)
  obtain ⟨-, -, q, b', hq', hn', -, hb'⟩ := Disk.readText_eq_ok_iff.mp hread'
  obtain rfl := Except.ok.inj (hf'.symm.trans hq')
  obtain rfl : b' = b := Node.file.inj (Option.some.inj (hn'.symm.trans hn))
  exact ⟨Option.some.inj (hb'.symm.trans hb),
    (Disk.fileName?_of_file hf' hn).trans (Disk.fileName?_of_file hf hn).symm⟩

/-! ### Disks on which files were mended -/

/-- **A disk on which some of the files were mended**: nothing but headers and implementations among them
has another content, and no file that was settled. -/
structure Tended (settings : Settings) (root : Path) (files : List Path) (d d' : Disk) : Prop where
  rewritten : Rewritten d d'
  changed : ∀ q, d'.node? q ≠ d.node? q →
    (∃ f ∈ files, d.follow [] (fullPath root f).components = .ok q) ∧
      ∀ p : Path, d.follow [] p.components = .ok q → SourceFile.isHeader p ∨ SourceFile.isImplementation p
  read : ∀ p t, d.readText p = .ok t → ∃ t', d'.readText p = .ok t' ∧ (Settled settings p t → t' = t)

theorem Tended.refl : Tended settings root files d d :=
  ⟨.refl d, fun _ h => absurd rfl h, fun _ t h => ⟨t, h, fun _ => rfl⟩⟩

theorem Tended.trans (h : Tended settings root [file] d d') (h' : Tended settings root files d' d'') :
    Tended settings root (file :: files) d d'' where
  rewritten := h.rewritten.trans h'.rewritten
  changed q hq := by
    by_cases hfirst : d'.node? q = d.node? q
    · obtain ⟨⟨f, hf, hlead⟩, hsource⟩ := h'.changed q (hfirst ▸ hq)
      simp only [h.rewritten.directories.follow_iff] at hlead hsource
      exact ⟨⟨f, List.mem_cons_of_mem file hf, hlead⟩, hsource⟩
    · obtain ⟨⟨f, hf, hlead⟩, hsource⟩ := h.changed q hfirst
      rw [List.mem_singleton.mp hf] at hlead
      exact ⟨⟨file, List.mem_cons_self, hlead⟩, hsource⟩
  read p t ht := by
    obtain ⟨t', ht', hsame⟩ := h.read p t ht
    obtain ⟨t'', ht'', hsame'⟩ := h'.read p t' ht'
    refine ⟨t'', ht'', fun hs => ?_⟩
    obtain rfl := hsame hs
    exact hsame' hs

/-- What no file that was asked for leads to is as it was. -/
theorem Tended.node?_of_ne (h : Tended settings root files d d')
    (hq : ∀ f ∈ files, d.follow [] (fullPath root f).components ≠ .ok at_) : d'.node? at_ = d.node? at_ := by
  by_contra hc
  obtain ⟨⟨f, hf, hlead⟩, -⟩ := h.changed at_ hc
  exact hq f hf hlead

/-- A file that is neither a header nor an implementation is read as it was. -/
theorem Tended.readText_iff (h : Tended settings root files d d')
    (hp : ¬(SourceFile.isHeader p ∨ SourceFile.isImplementation p)) :
    d'.readText p = .ok t ↔ d.readText p = .ok t := by
  refine h.rewritten.readText_iff fun q hf => ?_
  by_contra hc
  exact hp ((h.changed q hc).2 p hf)

/-- **A file that is not settled, given another content.** -/
theorem tended_replace (hread : d.readText (fullPath root file) = .ok t)
    (hs : ¬Settled settings (fullPath root file) t) (mended : Text) :
    Tended settings root [file] d (d.replace (fullPath root file) mended) ∧
      (d.replace (fullPath root file) mended).readText (fullPath root file) = .ok mended := by
  obtain ⟨hspelled, hasks, q, b, hf, hn, hrefuses, -⟩ := Disk.readText_eq_ok_iff.mp hread
  have hfind : d.find [] (fullPath root file) = .ok (q, .file b) :=
    Disk.find_file_eq_ok.mpr ⟨hspelled, hasks, hf, hn⟩
  have hname := Disk.fileName?_of_file hf hn
  have hsame := Disk.rewritten_replace d (fullPath root file) mended
  -- every spelling of the file reads the new content
  have hnew {p : Path} (hp : Disk.Spelled p) (ha : Disk.asksDirectory p = false)
      (hpq : d.follow [] p.components = .ok q) :
      (d.replace (fullPath root file) mended).readText p = .ok mended := by
    refine Disk.readText_eq_ok_iff.mpr ⟨hp, ha, q, Text.toBytes mended, hsame.directories.follow hpq, ?_, ?_,
      Text.ofBytes?_toBytes mended⟩
    · rw [Disk.node?_replace hfind, if_pos rfl]
    · rw [Disk.refuses_replace]
      exact hrefuses
  refine ⟨⟨hsame, fun r hr => ?_, fun p t' ht' => ?_⟩, hnew hspelled hasks hf⟩
  · obtain rfl : r = q := by
      by_contra hc
      exact hr (by rw [Disk.node?_replace hfind, if_neg hc])
    refine ⟨⟨file, List.mem_singleton_self file, hf⟩, fun p hp => ?_⟩
    have hpname : p.fileName? = (fullPath root file).fileName? :=
      (Disk.fileName?_of_file hp hn).trans hname.symm
    rw [SourceFile.isHeader_congr hpname, SourceFile.isImplementation_congr hpname]
    exact Convention.source_of_not_settled hs
  · obtain ⟨hp, ha, r, -, hpr, -⟩ := Disk.readText_eq_ok_iff.mp ht'
    by_cases hr : r = q
    · -- another spelling of the file that is written, which is no more settled than the file is
      subst hr
      obtain ⟨rfl, hpname⟩ := alike_of_place hf hpr hread ht'
      exact ⟨mended, hnew hp ha hpr, fun hps => absurd ((Convention.settled_congr hpname).mp hps) hs⟩
    · refine ⟨t', (hsame.readText_iff fun r' hr' => ?_).mpr ht', fun _ => rfl⟩
      obtain rfl := Except.ok.inj (hpr.symm.trans hr')
      rw [Disk.node?_replace hfind, if_neg hr]

/-! ### Reports that stay true -/

/-- **A report that is true of a disk**: it has the violations of the file, and the file is settled. -/
def Reports (c : Project) (root : Path) (d : Disk) (file : Path) (check : FileCheck) : Prop :=
  check.path = shownPath root file ∧ ∃ t, d.readText (fullPath root file) = .ok t ∧
    Settled c.conventions (fullPath root file) t ∧
    check.violations = Convention.check c.conventions (shownPath root file) t

/-- **A report stays true** when other files are mended, and when the same file comes up again. -/
theorem Tended.reports {check : FileCheck} (h : Tended c.conventions root files d d')
    (hr : Reports c root d file check) : Reports c root d' file check := by
  obtain ⟨hpath, t, ht, hs, hviolations⟩ := hr
  obtain ⟨t', ht', hsame⟩ := h.read _ t ht
  obtain rfl := hsame hs
  exact ⟨hpath, t', ht', hs, hviolations⟩

/-- A report that is true says that the file is settled, under the path that is shown as well. -/
theorem Reports.settled {check : FileCheck} (hroot : IsRoot d root) (hr : Reports c root d file check) :
    ∃ t, d.readText (fullPath root file) = .ok t ∧ Settled c.conventions (shownPath root file) t ∧
      Settled c.conventions (fullPath root file) t := by
  obtain ⟨-, t, ht, hs, -⟩ := hr
  exact ⟨t, ht, (Convention.settled_congr (fileName?_shownPath hroot ht)).mpr hs, hs⟩

/-- Every file that reports are about has one. -/
theorem exists_reports {checks : List FileCheck} (h : List.Forall₂ (Reports c root d) files checks)
    (hf : file ∈ files) : ∃ check, Reports c root d file check := by
  induction h with
  | nil => cases hf
  | cons hr _ ih =>
    rcases List.mem_cons.mp hf with rfl | hf
    · exact ⟨_, hr⟩
    · exact ih hf

/-! ### Files that cannot be mended -/

/-- **A file that has to be mended and cannot be**: it is not settled, and it may not be written over. -/
def Barred (settings : Settings) (root : Path) (d : Disk) (file : Path) (e : FileError) : Prop :=
  ∃ t q, d.readText (fullPath root file) = .ok t ∧ ¬Settled settings (shownPath root file) t ∧
    d.follow [] (fullPath root file).components = .ok q ∧ d.overwriteError? q = some e

/-- Where any file may be written over, none is barred. -/
theorem not_barred (h : ∀ q, d.overwriteError? q = none) : ¬Barred settings root d file e := by
  rintro ⟨t, q, -, -, -, he⟩
  rw [h q] at he
  cases he

/-- All spellings of a file are barred, or none. -/
theorem Barred.of_place {file' : Path} (hroot : IsRoot d root) (h : Barred settings root d file e)
    (hf : d.follow [] (fullPath root file).components = .ok at_)
    (hf' : d.follow [] (fullPath root file').components = .ok at_)
    (hread : d.readText (fullPath root file') = .ok t) : Barred settings root d file' e := by
  obtain ⟨t', q, ht', hs, hq, he⟩ := h
  obtain rfl := Except.ok.inj (hf.symm.trans hq)
  obtain ⟨rfl, halike⟩ := alike_of_place hf hf' ht' hread
  have hname : (shownPath root file').fileName? = (shownPath root file).fileName? :=
    calc (shownPath root file').fileName?
      _ = (fullPath root file').fileName? := fileName?_shownPath hroot hread
      _ = (fullPath root file).fileName? := halike
      _ = (shownPath root file).fileName? := (fileName?_shownPath hroot ht').symm
  exact ⟨_, at_, hread, mt (Convention.settled_congr hname).mp hs, hf', he⟩

/-- A settled file is not barred. -/
theorem Reports.not_barred {check : FileCheck} (hroot : IsRoot d root) (hr : Reports c root d file check) :
    ¬Barred c.conventions root d file e := by
  rintro ⟨t, -, ht, hs, -⟩
  obtain ⟨t', ht', hs', -⟩ := hr.settled hroot
  obtain rfl := Except.ok.inj (ht.symm.trans ht')
  exact hs hs'

/-- **Mending bars no file**: one that is barred was so before. -/
theorem Tended.barred_before (h : Tended settings root files d d') (hroot : IsRoot d root)
    (hread : d.readText (fullPath root file) = .ok t) (hb : Barred settings root d' file e) :
    Barred settings root d file e := by
  obtain ⟨t', q, ht', hs, hf, he⟩ := hb
  obtain ⟨t'', ht'', hsame⟩ := h.read _ t hread
  obtain rfl := Except.ok.inj (ht'.symm.trans ht'')
  refine ⟨t, q, hread, fun hsettled => ?_, h.rewritten.directories.follow_iff.mp hf, ?_⟩
  · obtain rfl := hsame ((Convention.settled_congr (fileName?_shownPath hroot hread)).mp hsettled)
    exact hs hsettled
  · rwa [← h.rewritten.overwriteError?_eq]

/-- **A file that is barred stays so** when files are mended none of which is. -/
theorem Tended.barred (h : Tended settings root files d d') (hroot : IsRoot d root)
    (hread : ∀ f ∈ files, ∃ t, d.readText (fullPath root f) = .ok t)
    (hfree : ∀ f ∈ files, ∀ e, ¬Barred settings root d f e) (hb : Barred settings root d file e) :
    Barred settings root d' file e := by
  obtain ⟨t, q, ht, hs, hf, he⟩ := id hb
  have hsame : d'.node? q = d.node? q := h.node?_of_ne fun f hmem hlead => by
    obtain ⟨t', ht'⟩ := hread f hmem
    exact hfree f hmem e (hb.of_place hroot hf hlead ht')
  refine ⟨t, q, (h.rewritten.readText_iff fun q' hq' => ?_).mpr ht, hs,
    h.rewritten.directories.follow_iff.mpr hf, (h.rewritten.overwriteError?_eq q).trans he⟩
  obtain rfl := Except.ok.inj (hf.symm.trans hq')
  exact hsame

/-! ### One file -/

/-- A file that mending changes is written over. -/
theorem mending_of_ne {vs : List Violation} {b : ByteArray} (hp : p.lead = .root)
    (hread : d.readText p = .ok t) (hfind : d.find [] p = .ok (at_, .file b))
    (hne : vs.foldl (PatchManager.mend settings p) t ≠ t) :
    PatchManager.mending settings root p vs d =
      match d.overwrite at_ (Text.toBytes (vs.foldl (PatchManager.mend settings p) t)) with
      | (.ok (), d) => (.ok true, d)
      | (.error e, d) => (.error (.files p e), d) := by
  have habsolute : p.isAbsolute := by simp [Path.isAbsolute, hp]
  rcases hwritten : d.overwrite at_ (Text.toBytes (vs.foldl (PatchManager.mend settings p) t)) with
    ⟨e | u, d'⟩ <;>
  simp only [PatchManager.mending, if_pos habsolute, hread, if_neg hne, Disk.writeText_of_find hfind,
    hwritten]

namespace World

/-- The same world with another disk. -/
def onDisk (w : World) (d : Disk) : World := { w with workspace := { w.workspace with disk := d } }

theorem readText_eq_ok (hp : p.lead = .root) : w.readText p = .ok t ↔ w.disk.readText p = .ok t := by
  have hfind (at_ : Place) : w.disk.find at_ p = w.disk.find [] p := by
    simp only [Disk.find, Disk.locate, Path.components_eq, hp]
    rfl
  rw [readText, Disk.readText, Disk.readBytes, Disk.readBytes, hfind]
  cases w.disk.find [] p with
  | error e => simp
  | ok found =>
    obtain ⟨q, n⟩ := found
    cases n with
    | directory => simp
    | file b =>
      cases hr : w.disk.refuses (.read q) with
      | some e => simp [hr]
      | none => cases hb : Text.ofBytes? b <;> simp [hr, hb]

/-- **A file of which a true report can be made** is not written. -/
theorem checkFile_of_reports {check : FileCheck} (m : Bool) (hroot : IsRoot w.disk root)
    (hr : Reports c root w.disk file check) :
    w.checkFile root c m file = (.ok { check with fixed := false }, w.workspace) := by
  obtain ⟨hpath, t, ht, hs, hviolations⟩ := hr
  have hshown := (Convention.settled_congr (fileName?_shownPath hroot ht)).mpr hs
  have hidle : (Convention.check c.conventions (shownPath root file) t).any Violation.autoFixable = false :=
    List.any_eq_false.mpr fun v hv => by simp [hshown v hv]
  rw [checkFile]
  dsimp only
  rw [(readText_eq_ok (lead_fullPath hroot file)).mpr ht]
  dsimp only
  rw [hidle, Bool.and_false, if_neg Bool.false_ne_true, ← hviolations, ← hpath]

/-- **A file that is not settled** is written over with a text that settles it, and read again. -/
theorem checkFile_of_not_settled {b : ByteArray} (hroot : IsRoot w.disk root) (hs : c.conventions.Insertable)
    (hname : ∀ n ∈ (fullPath root file).fileName?, '\n' ∉ n)
    (hread : w.disk.readText (fullPath root file) = .ok t)
    (hsettled : ¬Settled c.conventions (shownPath root file) t)
    (hfind : w.disk.find [] (fullPath root file) = .ok (at_, .file b)) :
    ∃ mended, Settled c.conventions (shownPath root file) mended ∧
      w.checkFile root c true file = match w.disk.overwrite at_ (Text.toBytes mended) with
        | (.error e, d) => (.error (.patch (.files (fullPath root file) e)), { w.workspace with disk := d })
        | (.ok (), d) =>
          match (w.onDisk d).readText (fullPath root file) with
          | .error e => (.error e, { w.workspace with disk := d })
          | .ok t => (.ok ⟨shownPath root file, Convention.check c.conventions (shownPath root file) t, true⟩,
              { w.workspace with disk := d }) := by
  have hlead := lead_fullPath hroot file
  have hshown := fileName?_shownPath hroot hread
  have hbroken : (Convention.check c.conventions (shownPath root file) t).any Violation.autoFixable := by
    by_contra hc
    exact hsettled fun v hv => by simpa using fun h => hc (List.any_eq_true.mpr ⟨v, hv, h⟩)
  have hsettles := Convention.settled_foldl_mend (t := t) hs (hshown ▸ hname) hshown
  have hne : (Convention.check c.conventions (shownPath root file) t).foldl
      (PatchManager.mend c.conventions (fullPath root file)) t ≠ t := fun h => hsettled (h ▸ hsettles)
  refine ⟨_, hsettles, ?_⟩
  rw [checkFile]
  dsimp only
  rw [(readText_eq_ok hlead).mpr hread]
  dsimp only
  rw [hbroken, Bool.and_true, if_pos rfl, mending_of_ne hlead hread hfind hne]
  rcases w.disk.overwrite at_ _ with ⟨e | u, d⟩ <;> rfl

/-- **A file checked and mended**, if it is not barred: what is reported of it is true then. -/
theorem exists_checkFile (hroot : IsRoot w.disk root) (hs : c.conventions.Insertable)
    (hname : ∀ n ∈ (fullPath root file).fileName?, '\n' ∉ n)
    (hread : w.disk.readText (fullPath root file) = .ok t)
    (hfree : ∀ e, ¬Barred c.conventions root w.disk file e) :
    ∃ d check, w.checkFile root c true file = (.ok check, { w.workspace with disk := d }) ∧
      Tended c.conventions root [file] w.disk d ∧ Reports c root d file check := by
  have hlead := lead_fullPath hroot file
  have hshown := fileName?_shownPath hroot hread
  by_cases hsettled : Settled c.conventions (shownPath root file) t
  · have hr : Reports c root w.disk file
        ⟨shownPath root file, Convention.check c.conventions (shownPath root file) t, false⟩ :=
      ⟨rfl, t, hread, (Convention.settled_congr hshown).mp hsettled, rfl⟩
    exact ⟨w.disk, _, checkFile_of_reports true hroot hr, .refl, hr⟩
  · -- the file is written, and read again
    obtain ⟨q, b, hfind, -, -⟩ := Disk.readText_eq_ok.mp hread
    obtain ⟨-, -, hf, -⟩ := Disk.find_file_eq_ok.mp hfind
    obtain ⟨mended, hsettles, hcheck⟩ := checkFile_of_not_settled hroot hs hname hread hsettled hfind
    have hwritable : w.disk.overwriteError? q = none :=
      Option.eq_none_iff_forall_ne_some.mpr fun e he => hfree e ⟨t, q, hread, hsettled, hf, he⟩
    obtain ⟨htended, hnew⟩ :=
      tended_replace hread (mt (Convention.settled_congr hshown).mpr hsettled) mended
    have hagain : (w.onDisk (w.disk.replace (fullPath root file) mended)).readText (fullPath root file) =
        .ok mended := (readText_eq_ok hlead).mpr hnew
    refine ⟨w.disk.replace (fullPath root file) mended,
      ⟨shownPath root file, Convention.check c.conventions (shownPath root file) mended, true⟩, ?_, htended,
      rfl, mended, hnew, (Convention.settled_congr hshown).mp hsettles, rfl⟩
    rw [hcheck, Disk.overwrite_of_none hwritable, ← Disk.replace_of_find hfind]
    dsimp only
    rw [hagain]

/-- **A file that is barred** ends the run, and no other file is changed. -/
theorem exists_checkFile_of_barred (hroot : IsRoot w.disk root) (hs : c.conventions.Insertable)
    (hname : ∀ n ∈ (fullPath root file).fileName?, '\n' ∉ n)
    (hb : Barred c.conventions root w.disk file e) :
    ∃ d q, w.checkFile root c true file =
        (.error (.patch (.files (fullPath root file) e)), { w.workspace with disk := d }) ∧
      Rewritten w.disk d ∧ w.disk.follow [] (fullPath root file).components = .ok q ∧
      ∀ r, r ≠ q → d.node? r = w.disk.node? r := by
  obtain ⟨t, q, hread, hsettled, hf, he⟩ := hb
  obtain ⟨q', b, hfind, -, -⟩ := Disk.readText_eq_ok.mp hread
  obtain ⟨-, -, hf', hn⟩ := Disk.find_file_eq_ok.mp hfind
  obtain rfl := Except.ok.inj (hf.symm.trans hf')
  obtain ⟨mended, -, hcheck⟩ := checkFile_of_not_settled hroot hs hname hread hsettled hfind
  obtain ⟨d, hrefused, hrewritten, hother⟩ :=
    Disk.exists_overwrite_of_some hn he (Text.toBytes mended)
  exact ⟨d, q, by rw [hcheck, hrefused], hrewritten, hf, hother⟩

/-! ### All files, one after the other -/

/-- **Where true reports can be made of all files**, they are made, and nothing is written. -/
theorem checkFiles_of_reports {checks : List FileCheck} (m : Bool) (hroot : IsRoot w.disk root)
    (h : List.Forall₂ (Reports c root w.disk) files checks) :
    w.checkFiles root c m files =
      (.ok (checks.map fun check => { check with fixed := false }), w.workspace) := by
  induction h with
  | nil => rfl
  | cons hr _ ih =>
    rw [checkFiles, checkFile_of_reports m hroot hr]
    dsimp only
    rw [ih]
    rfl

/-- **Files checked and mended**, if none of them is barred: at the end all reports are true. -/
theorem exists_checkFiles (hroot : IsRoot w.disk root) (hs : c.conventions.Insertable)
    (hnames : ∀ f ∈ files, ∀ n ∈ (fullPath root f).fileName?, '\n' ∉ n)
    (hread : ∀ f ∈ files, ∃ t, w.disk.readText (fullPath root f) = .ok t)
    (hfree : ∀ f ∈ files, ∀ e, ¬Barred c.conventions root w.disk f e) :
    ∃ d checks, w.checkFiles root c true files = (.ok checks, { w.workspace with disk := d }) ∧
      Tended c.conventions root files w.disk d ∧ List.Forall₂ (Reports c root d) files checks := by
  induction files generalizing w with
  | nil => exact ⟨w.disk, [], rfl, .refl, .nil⟩
  | cons file more ih =>
    obtain ⟨hname, hnames⟩ := List.forall_mem_cons.mp hnames
    obtain ⟨⟨t, ht⟩, hread⟩ := List.forall_mem_cons.mp hread
    obtain ⟨hfirst, hfree⟩ := List.forall_mem_cons.mp hfree
    obtain ⟨d, check, hrun, htended, hr⟩ := exists_checkFile hroot hs hname ht hfirst
    have hread' (f : Path) (hf : f ∈ more) : ∃ t, d.readText (fullPath root f) = .ok t := by
      obtain ⟨t, ht⟩ := hread f hf
      obtain ⟨t', ht', -⟩ := htended.read _ t ht
      exact ⟨t', ht'⟩
    have hfree' (f : Path) (hf : f ∈ more) (e : FileError) : ¬Barred c.conventions root d f e := by
      obtain ⟨t, ht⟩ := hread f hf
      exact fun hb => hfree f hf e (htended.barred_before hroot ht hb)
    obtain ⟨d', checks, hmore, htended', hrs⟩ :=
      ih (w := w.onDisk d) (hroot.of_rewritten htended.rewritten) hnames hread' hfree'
    -- the first report has to stay true while the other files are mended
    refine ⟨d', check :: checks, ?_, htended.trans htended', .cons (htended'.reports hr) hrs⟩
    dsimp only [onDisk] at hmore
    rw [checkFiles, hrun]
    dsimp only
    rw [hmore]

/-- Files in front of one that ends the run. -/
theorem checkFiles_append {before after : List Path} {checks : List FileCheck} {ws ws' : Workspace}
    {m : Bool} {failure : Failure} (h : w.checkFiles root c m before = (.ok checks, ws))
    (hfile : { w with workspace := ws }.checkFile root c m file = (.error failure, ws')) :
    w.checkFiles root c m (before ++ file :: after) = (.error failure, ws') := by
  induction before generalizing w checks with
  | nil =>
    obtain ⟨-, rfl⟩ := Prod.mk.inj h
    rw [List.nil_append, checkFiles, hfile]
  | cons first before ih =>
    rw [checkFiles] at h
    rw [List.cons_append, checkFiles]
    rcases hfirst : w.checkFile root c m first with ⟨failure' | check, ws₁⟩
    · rw [hfirst] at h
      cases h
    · rw [hfirst] at h
      dsimp only at h ⊢
      rcases hmore : { w with workspace := ws₁ }.checkFiles root c m before with ⟨failure' | checks', ws₂⟩
      · rw [hmore] at h
        cases h
      · rw [hmore] at h
        obtain ⟨-, rfl⟩ := Prod.mk.inj h
        rw [ih hmore hfile]

/-- **The first file that is barred** ends the run. The files in front of it are settled then, and nothing
behind it has changed. -/
theorem exists_checkFiles_of_barred {before : List Path} (after : List Path) (hroot : IsRoot w.disk root)
    (hs : c.conventions.Insertable)
    (hnames : ∀ f ∈ before ++ [file], ∀ n ∈ (fullPath root f).fileName?, '\n' ∉ n)
    (hread : ∀ f ∈ before, ∃ t, w.disk.readText (fullPath root f) = .ok t)
    (hfree : ∀ f ∈ before, ∀ e, ¬Barred c.conventions root w.disk f e)
    (hb : Barred c.conventions root w.disk file e) :
    ∃ d, w.checkFiles root c true (before ++ file :: after) =
        (.error (.patch (.files (fullPath root file) e)), { w.workspace with disk := d }) ∧
      Rewritten w.disk d ∧
      (∀ at_, (∀ f ∈ before ++ [file], w.disk.follow [] (fullPath root f).components ≠ .ok at_) →
        d.node? at_ = w.disk.node? at_) ∧
      ∀ f ∈ before, ∃ t, d.readText (fullPath root f) = .ok t ∧
        Settled c.conventions (shownPath root f) t := by
  obtain ⟨hnames, hname⟩ := List.forall_mem_append.mp hnames
  obtain ⟨d, checks, hrun, htended, hreports⟩ := exists_checkFiles hroot hs hnames hread hfree
  have hroot' := hroot.of_rewritten htended.rewritten
  have hb' := htended.barred hroot hread hfree hb
  obtain ⟨d', q, hfile, hrewritten, hf, hother⟩ := exists_checkFile_of_barred (w := w.onDisk d) hroot' hs
    (hname file (List.mem_singleton_self file)) hb'
  refine ⟨d', checkFiles_append hrun hfile, htended.rewritten.trans hrewritten, fun at_ hne => ?_,
    fun f hmem => ?_⟩
  · obtain ⟨hne, hlast⟩ := List.forall_mem_append.mp hne
    have hq : at_ ≠ q := by
      rintro rfl
      exact hlast file (List.mem_singleton_self file) (htended.rewritten.directories.follow_iff.mp hf)
    exact (hother at_ hq).trans (htended.node?_of_ne hne)
  · -- the file that could not be written is another one, since it is not settled
    obtain ⟨check, hr⟩ := exists_reports hreports hmem
    obtain ⟨t, ht, hs, -⟩ := hr.settled hroot'
    refine ⟨t, (hrewritten.readText_iff fun r hr' => hother r ?_).mpr ht, hs⟩
    rintro rfl
    exact hr.not_barred hroot' (hb'.of_place hroot' hf hr' ht)

/-! ### The project -/

theorem rootOf_eq_ok : w.rootOf s = .ok root ↔
    ∃ r, w.disk.find w.here (s.root.getD w.directory) = .ok (r, .directory) ∧ assemble .root r = root := by
  rw [rootOf]
  split
  · rename_i r hr
    simp [hr, assemble]
  · rename_i hr
    refine ⟨nofun, ?_⟩
    rintro ⟨r, hfind, -⟩
    exact absurd hfind (hr r)

theorem projectOf_eq_ok : w.projectOf s = .ok (root, c) ↔
    w.rootOf s = .ok root ∧ Project.load w.disk root = .ok c := by
  rw [projectOf]
  cases hr : w.rootOf s with
  | error e => simp
  | ok r =>
    dsimp only
    cases hl : Project.load w.disk r with
    | error e =>
      refine ⟨nofun, ?_⟩
      rintro ⟨h, h'⟩
      cases h
      exact absurd (hl.symm.trans h') (by simp)
    | ok c' =>
      constructor
      · rintro h
        cases h
        exact ⟨rfl, hl⟩
      · rintro ⟨h, h'⟩
        cases h
        obtain rfl := Except.ok.inj (hl.symm.trans h')
        rfl

/-- The root of a project is a directory, spelled out. -/
theorem isRoot_of_rootOf (h : w.rootOf s = .ok root) : IsRoot w.disk root := by
  obtain ⟨r, hfind, rfl⟩ := rootOf_eq_ok.mp h
  obtain ⟨hl, hn⟩ := Disk.find_eq_ok.mp hfind
  obtain ⟨-, hf, -⟩ := Disk.locate_eq_ok.mp hl
  exact ⟨r, rfl, Disk.isName_of_follow (fun _ => Disk.isName_of_mem_placeOf)
    (fun _ => Path.isName_of_mem_components) hf, hn⟩

end World

/-- The description of a project is neither a header nor an implementation. -/
theorem not_source_description (root : Path) : ¬(SourceFile.isHeader (root.join ⟨Project.fileName⟩) ∨
    SourceFile.isImplementation (root.join ⟨Project.fileName⟩)) := by
  have hname : (root.join ⟨Project.fileName⟩).fileName? = Path.fileName? ⟨Project.fileName⟩ :=
    SourceFile.fileName?_join (by decide) (by decide)
  rw [SourceFile.isHeader_congr hname, SourceFile.isImplementation_congr hname]
  decide

/-- So it is loaded as before. -/
theorem Tended.load (h : Tended settings root files d d') (hl : Project.load d root = .ok c) :
    Project.load d' root = .ok c := by
  rw [Project.load] at hl ⊢
  rw [h.rewritten.has_eq]
  split at hl
  · rename_i hhas
    rw [if_pos hhas]
    split at hl
    · rename_i t ht
      rw [(h.readText_iff (not_source_description root)).mpr ht]
      exact hl
    · cases hl
  · rename_i hhas
    rw [if_neg hhas]
    exact hl

namespace World

/-- Mending files leaves the project as it is. -/
theorem projectOf_onDisk (h : Tended settings root files w.disk d) (hp : w.projectOf s = .ok (root, c)) :
    (w.onDisk d).projectOf s = .ok (root, c) := by
  obtain ⟨hroot, hload⟩ := projectOf_eq_ok.mp hp
  obtain ⟨r, hfind, hr⟩ := rootOf_eq_ok.mp hroot
  exact projectOf_eq_ok.mpr ⟨rootOf_eq_ok.mpr ⟨r, h.rewritten.find_directory hfind, hr⟩, h.load hload⟩

/-! ### A second run -/

theorem check_eq {checks : List FileCheck} {ws : Workspace} {m : Bool}
    (hp : w.projectOf s = .ok (root, c)) (h : w.checkFiles root c m files = (.ok checks, ws)) :
    w.check files m s =
      (.ok ⟨exitOf (checks.all fun check => check.violations.isEmpty), .check checks⟩, ws) := by
  rw [check, hp]
  dsimp only
  rw [h]

theorem check_eq_error {failure : Failure} {ws : Workspace} {m : Bool}
    (hp : w.projectOf s = .ok (root, c)) (h : w.checkFiles root c m files = (.error failure, ws)) :
    w.check files m s = (.error failure, ws) := by
  rw [check, hp]
  dsimp only
  rw [h]

/-- **Checking and mending files comes to rest.** The files are ones that can be read, and what the settings
have put in is one line for each of them.

If none of the files is barred, all are settled after one run, and nothing else has changed on the disk. A
second run, whether it is to mend files or not, leaves the disk as it is, and says of every file what the first
one said, but for having mended it; it ends with the same exit code.

If there are files that are barred, the run ends at the first of these and says why. The files in front of it
are settled, and nothing behind it has changed. -/
theorem check_check (hp : w.projectOf s = .ok (root, c)) (hs : c.conventions.Insertable)
    (hnames : ∀ f ∈ files, ∀ n ∈ (fullPath root f).fileName?, '\n' ∉ n)
    (hread : ∀ f ∈ files, ∃ t, w.readText (fullPath root f) = .ok t) :
    ((∀ f ∈ files, ∀ e, ¬Barred c.conventions root w.disk f e) → ∃ exit checks d,
      w.check files true s = (.ok ⟨exit, .check checks⟩, { w.workspace with disk := d }) ∧
      (∀ f ∈ files, ∃ t, d.readText (fullPath root f) = .ok t ∧
        Settled c.conventions (shownPath root f) t ∧ Settled c.conventions (fullPath root f) t) ∧
      Rewritten w.disk d ∧
      (∀ at_, (∀ f ∈ files, w.disk.follow [] (fullPath root f).components ≠ .ok at_) →
        d.node? at_ = w.disk.node? at_) ∧
      ∀ mend, (w.onDisk d).check files mend s =
        (.ok ⟨exit, .check (checks.map fun check => { check with fixed := false })⟩,
          { w.workspace with disk := d })) ∧
    ∀ before file after e, files = before ++ file :: after →
      (∀ f ∈ before, ∀ e, ¬Barred c.conventions root w.disk f e) →
      Barred c.conventions root w.disk file e → ∃ d,
        w.check files true s =
          (.error (.patch (.files (fullPath root file) e)), { w.workspace with disk := d }) ∧
        Rewritten w.disk d ∧
        (∀ at_, (∀ f ∈ before ++ [file], w.disk.follow [] (fullPath root f).components ≠ .ok at_) →
          d.node? at_ = w.disk.node? at_) ∧
        ∀ f ∈ before, ∃ t, d.readText (fullPath root f) = .ok t ∧
          Settled c.conventions (shownPath root f) t := by
  have hroot := isRoot_of_rootOf (projectOf_eq_ok.mp hp).1
  have hread' (f : Path) (hf : f ∈ files) : ∃ t, w.disk.readText (fullPath root f) = .ok t := by
    obtain ⟨t, ht⟩ := hread f hf
    exact ⟨t, (readText_eq_ok (lead_fullPath hroot f)).mp ht⟩
  refine ⟨fun hfree => ?_, ?_⟩
  · obtain ⟨d, checks, hrun, htended, hreports⟩ := exists_checkFiles hroot hs hnames hread' hfree
    have hroot' := hroot.of_rewritten htended.rewritten
    refine ⟨_, checks, d, check_eq hp hrun, fun f hf => ?_, htended.rewritten,
      fun at_ => htended.node?_of_ne, fun mend => ?_⟩
    · obtain ⟨check, hr⟩ := exists_reports hreports hf
      exact hr.settled hroot'
    · -- the reports of the first run are true when the second begins
      have hagain := checkFiles_of_reports (w := w.onDisk d) mend hroot' hreports
      rw [check_eq (projectOf_onDisk htended hp) hagain, List.all_map]
      rfl
  · rintro before file after e rfl hfree hb
    have hbefore {f : Path} (hf : f ∈ before) : f ∈ before ++ file :: after := List.mem_append_left _ hf
    have hupto {f : Path} (hf : f ∈ before ++ [file]) : f ∈ before ++ file :: after := by
      simp only [List.mem_append, List.mem_cons, List.not_mem_nil, or_false] at hf ⊢
      tauto
    obtain ⟨d, hrun, hrest⟩ := exists_checkFiles_of_barred after hroot hs
      (fun f hf => hnames f (hupto hf)) (fun f hf => hread' f (hbefore hf)) hfree hb
    exact ⟨d, check_eq_error hp hrun, hrest⟩

/-- A header without a guard, and an implementation whose last line does not end. -/
def bareTree : Disk :=
  { nodes := [(["p"], .directory), (["p", "a.hpp"], .file (Text.toBytes "class A;\r\n")),
      (["p", "b.cpp"], .file (Text.toBytes "Q_OBJECT"))] }

/-- The world of a project that has just these. -/
def bareWorld : World :=
  { workspace := { disk := bareTree }, directory := "/p", environment := fun _ => none
    patchName := fun _ => "1", now := [] }

/-- The header under two spellings, and the implementation. -/
def bareFiles : List Path := ["a.hpp", "/p//a.hpp", "b.cpp"]

/-- The world of the same project, where the implementation may not be written over. -/
def lockedWorld : World :=
  { bareWorld with
    workspace := { disk := { bareTree with
      refuses := fun deed => if deed = .overwrite ["p", "b.cpp"] then some .permissionDenied else none } } }

/-- Both are mended in the first run, each of them once, and neither in a second. If the implementation may
not be written over, the header is mended all the same. -/
theorem check_check_bare : (∃ d,
    bareWorld.check bareFiles true {} =
      (.ok ⟨0, .check [⟨"a.hpp", [], true⟩, ⟨"a.hpp", [], false⟩, ⟨"b.cpp", [], true⟩]⟩, { disk := d }) ∧
    ∀ mend, (bareWorld.onDisk d).check bareFiles mend {} =
      (.ok ⟨0, .check [⟨"a.hpp", [], false⟩, ⟨"a.hpp", [], false⟩, ⟨"b.cpp", [], false⟩]⟩,
        { disk := d })) ∧
    ∃ d t, lockedWorld.check bareFiles true {} =
      (.error (.patch (.files "/p/b.cpp" .permissionDenied)), { disk := d }) ∧
      d.readText "/p/a.hpp" = .ok t ∧ Settled {} "a.hpp" t := by
  have hsettings : Convention.Settings.Insertable {} :=
    ⟨by decide +kernel, by decide +kernel, by decide +kernel⟩
  have hnames : ∀ f ∈ bareFiles, ∀ n ∈ (fullPath "/p" f).fileName?, '\n' ∉ n := by decide +kernel
  constructor
  · have hproject : bareWorld.projectOf {} = .ok ("/p", {}) := rfl
    have hread : ∀ f ∈ bareFiles, ∃ t, bareWorld.readText (fullPath "/p" f) = .ok t := by
      simp only [bareFiles, List.forall_mem_cons]
      exact ⟨⟨"class A;\r\n", rfl⟩, ⟨"class A;\r\n", rfl⟩, ⟨"Q_OBJECT", rfl⟩, nofun⟩
    have hfree : ∀ f ∈ bareFiles, ∀ e, ¬Barred {} "/p" bareWorld.disk f e := fun f _ e =>
      not_barred fun _ => rfl
    obtain ⟨exit, checks, d, hrun, -, -, -, hagain⟩ := (check_check hproject hsettings hnames hread).1 hfree
    have hfirst : (bareWorld.check bareFiles true {}).1 =
        .ok ⟨0, .check [⟨"a.hpp", [], true⟩, ⟨"a.hpp", [], false⟩, ⟨"b.cpp", [], true⟩]⟩ := rfl
    rw [hrun] at hfirst
    cases hfirst
    exact ⟨d, hrun, hagain⟩
  · have hproject : lockedWorld.projectOf {} = .ok ("/p", {}) := rfl
    have hread : ∀ f ∈ bareFiles, ∃ t, lockedWorld.readText (fullPath "/p" f) = .ok t := by
      simp only [bareFiles, List.forall_mem_cons]
      exact ⟨⟨"class A;\r\n", rfl⟩, ⟨"class A;\r\n", rfl⟩, ⟨"Q_OBJECT", rfl⟩, nofun⟩
    -- the header may be written over, under both spellings
    let spellings : List Path := ["a.hpp", "/p//a.hpp"]
    have hlead : ∀ f ∈ spellings, lockedWorld.disk.follow [] (fullPath "/p" f).components =
        .ok ["p", "a.hpp"] := by
      simp only [spellings, List.forall_mem_cons]
      exact ⟨rfl, rfl, nofun⟩
    have hfree : ∀ f ∈ spellings, ∀ e, ¬Barred {} "/p" lockedWorld.disk f e := by
      rintro f hf e ⟨t, q, -, -, hq, he⟩
      obtain rfl := Except.ok.inj ((hlead f hf).symm.trans hq)
      cases he
    have hbarred : Barred {} "/p" lockedWorld.disk "b.cpp" .permissionDenied :=
      ⟨"Q_OBJECT", ["p", "b.cpp"], rfl, by decide +kernel, rfl, rfl⟩
    obtain ⟨d, hrun, -, -, hsettled⟩ :=
      (check_check hproject hsettings hnames hread).2 spellings "b.cpp" [] .permissionDenied rfl hfree hbarred
    obtain ⟨t, ht, hs⟩ := hsettled "a.hpp" List.mem_cons_self
    exact ⟨d, t, hrun, ht, hs⟩

end World

end Cli

end BuildMender
