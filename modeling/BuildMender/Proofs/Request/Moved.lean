import BuildMender.Proofs.FileView.Memory
import BuildMender.Proofs.SourceFile
import BuildMender.Request.Assemble
import Mathlib.Data.List.Find

/-!
# A project that is moved

The same tree of files can stand at one place or at another. A request about a file of it is answered from
paths that are all taken from the root of the project, so what is asked of the files comes out alike
(`BuildMender.SameTree`), and so does everything in the envelope but one thing. The role of each file is read
off its whole path, and there the place of the project counts: when the names of the interface directory
begin among the directories above the project, a file of the project is taken for interface code.

So the envelopes agree up to the roles of the files, and they are equal exactly when the two places add the
same to the role of the active file (`BuildMender.Assembler.assemble_moved`). For the counterpart of the
active file nothing more has to be asked, since it lies in the same directory.
-/

namespace BuildMender

open Path

namespace Path

/-- A path that leads into a directory: a relative one that does not go up, except maybe in the end. -/
def Inward (p : Path) : Prop := p.lead ≠ .root ∧ Component.up ∉ p.body.dropLast

theorem text_ne_nil_of_isAbsolute {p : Path} (h : p.isAbsolute) : p.text ≠ [] := by
  intro hnil
  rw [isAbsolute, lead, hnil] at h
  cases h

end Path

/-- **Two places hold the same tree of files**: whatever is asked of a path into one of them is answered as
it is for the other. The places themselves are no files. -/
structure SameTree (v w : FileView) (root place : Path) : Prop where
  isFile : ∀ p : Path, p.Inward → v.isFile (root.join p) = w.isFile (place.join p)
  isDirectory : ∀ p : Path, p.Inward → v.isDirectory (root.join p) = w.isDirectory (place.join p)
  read : ∀ p : Path, p.Inward → (v.read (root.join p)).toOption = (w.read (place.join p)).toOption
  no_file : ∀ p : Path, p.lead ≠ .root → p.body = [] → (v.read (root.join p)).toOption = none

/-- **A tree of files is the same wherever it is added.** -/
theorem sameTree_plant {tree : List (Path × Option Text)} {root place : Path} (hroot : root.isAbsolute)
    (hplace : place.isAbsolute) (htree : ∀ e ∈ tree, e.1.lead ≠ .root ∧ e.1.body ≠ []) :
    SameTree (MemoryFiles.plant root tree).view (MemoryFiles.plant place tree).view root place := by
  have hlookup {r p : Path} (hr : r.isAbsolute) (hl : p.lead ≠ .root) :
      (MemoryFiles.plant r tree).lookup (r.join p) =
        tree.foldl (fun found e => MemoryFiles.seen p.body e found) none := by
    have hlead : r.lead = .root := by simpa [isAbsolute] using hr
    have habs : (r.join p).isAbsolute := by
      rw [isAbsolute, lead_join hl (text_ne_nil_of_isAbsolute hr)]
      exact hr
    rw [MemoryFiles.lookup, MemoryFiles.anchor, if_pos habs, MemoryFiles.find?_plant hlead hl htree]
  refine ⟨fun p hp => ?_, fun p hp => ?_, fun p hp => ?_, fun p hl hb => ?_⟩
  · simp only [MemoryFiles.view, hlookup hroot hp.1, hlookup hplace hp.1]
  · simp only [MemoryFiles.view, hlookup hroot hp.1, hlookup hplace hp.1]
  · simp only [MemoryFiles.view, MemoryFiles.read, hlookup hroot hp.1, hlookup hplace hp.1]
    split <;> rfl
  · have hdirectory := MemoryFiles.getD_foldl_seen (fun e he => (htree e he).2) none rfl
    rw [← hb] at hdirectory
    simp only [MemoryFiles.view, MemoryFiles.read, hlookup hroot hl]
    generalize tree.foldl (fun found e => MemoryFiles.seen p.body e found) none = found at hdirectory
    cases found with
    | none => rfl
    | some node =>
      obtain rfl : node = none := hdirectory
      rfl

/-- An envelope without the roles of its files. -/
def Envelope.withoutRoles (e : Envelope) : Envelope :=
  { e with fileContext := e.fileContext.map fun c => { c with kind := .other } }

namespace Assembler

variable {a : Assembler} {w : FileView} {place : Path} {r : Request} {f : ActiveFile}

/-! ### What is sent along of a file -/

/-- The window of some content around a cursor. -/
def excerpt (shown : Text) (kind : SourceFile.Kind) (line : UInt32) (content : Text) : FileContext :=
  let ls := Text.lines content
  let total := UInt32.ofNat ls.length
  let (start, finish) := window total line
  { path := shown
    kind := kind
    content := Text.join "\n" ((ls.take finish.toNat).drop (start.toNat - 1))
    startLine := start
    endLine := if finish < start then start else finish
    truncated := 1 < start || finish < total }

theorem snippet?_eq (p : Path) (line : UInt32) : a.snippet? p line = (a.files.read p).toOption.map
    (excerpt (a.shown p) (SourceFile.kind a.project.conventions.interfaceDir p) line) := by
  rw [snippet?]
  cases a.files.read p <;> rfl

/-- The beginning of some content. -/
def opening (shown : Text) (kind : SourceFile.Kind) (content : Text) : FileContext :=
  let (content, truncated) := truncate siblingChars content
  let n := (Text.lines content).length
  { path := shown
    kind := kind
    content := content
    startLine := 1
    endLine := if n = 0 then 1 else UInt32.ofNat n
    truncated := truncated }

theorem sibling?_eq (p : Path) :
    a.sibling? p = ((SourceFile.siblings p).find? a.files.isFile).bind fun q =>
      (a.files.read q).toOption.map
        (opening (a.shown q) (SourceFile.kind a.project.conventions.interfaceDir q)) := by
  rw [sibling?]
  congr 1
  funext q
  cases a.files.read q <;> rfl

/-- How a relative path is shown, wherever the project is. -/
def shownInside (p : Path) : Text :=
  Text.replace '\\' '/' (Path.assemble .bare (settled ((slashed p.text).dropWhile idle))).text

theorem shown_join {p : Path} (hd : a.root.text ≠ []) (hl : p.lead ≠ .root) :
    a.shown (a.root.join p) = shownInside p := by
  rw [shown, relativeTo?_join_of_text hl hd]
  rfl

/-- The pieces of files for an active file, from what is read at each path of the project, which paths
are files, and the role of each. -/
def pieces (content : Path → Option Text) (isFile : Path → Bool) (kind : Path → SourceFile.Kind)
    (f : ActiveFile) : List FileContext :=
  match content f.path with
  | none => []
  | some text => excerpt (shownInside f.path) (kind f.path) f.line text ::
      (((SourceFile.siblings f.path).find? isFile).bind fun q =>
        (content q).map (opening (shownInside q) (kind q))).toList

theorem fileContext_eq (ha : a.root.isAbsolute) (hr : r.activeFile = some f) (hl : f.path.lead ≠ .root)
    (hb : f.path.body ≠ []) : a.fileContext r =
      pieces (fun q => (a.files.read (a.root.join q)).toOption) (fun q => a.files.isFile (a.root.join q))
        (fun q => SourceFile.kind a.project.conventions.interfaceDir (a.root.join q)) f := by
  have hd := text_ne_nil_of_isAbsolute ha
  have habs : f.path.isAbsolute = false := by simpa [isAbsolute] using hl
  have hresolve : a.resolve f.path = a.root.join f.path := by
    rw [resolve, habs, if_neg (by decide)]
  have hsibling : a.sibling? (a.root.join f.path) =
      ((SourceFile.siblings f.path).find? fun q => a.files.isFile (a.root.join q)).bind fun q =>
        (a.files.read (a.root.join q)).toOption.map (opening (shownInside q)
          (SourceFile.kind a.project.conventions.interfaceDir (a.root.join q))) := by
    rw [sibling?_eq, SourceFile.siblings_join hd hl hb, List.find?_map]
    cases hq : (SourceFile.siblings f.path).find? (a.files.isFile ∘ a.root.join) with
    | none =>
      simp only [Function.comp_def] at hq
      rw [hq]
      rfl
    | some q =>
      have hmem := List.mem_of_find?_eq_some hq
      have hql : q.lead ≠ .root := fun hroot => hl ((SourceFile.siblings_keep hb hmem).2.2.mp hroot)
      simp only [Function.comp_def] at hq
      rw [hq, Option.map_some, Option.bind_some, Option.bind_some, shown_join hd hql]
  rw [fileContext, hr]
  simp only [hresolve, snippet?_eq, shown_join hd hl, pieces, hsibling]
  cases (a.files.read (a.root.join f.path)).toOption <;> rfl

/-! ### The assembler at another place -/

/-- The same project, at another place. -/
def moved (a : Assembler) (w : FileView) (place : Path) : Assembler := { a with files := w, root := place }

/-- Pieces without their roles do not depend on the roles. -/
theorem map_pieces (content : Path → Option Text) (isFile : Path → Bool)
    (kind kind' : Path → SourceFile.Kind) (f : ActiveFile) :
    (pieces content isFile kind f).map (fun c => { c with kind := .other }) =
      (pieces content isFile kind' f).map fun c => { c with kind := .other } := by
  rw [pieces, pieces]
  cases content f.path with
  | none => rfl
  | some text =>
    cases (SourceFile.siblings f.path).find? isFile with
    | none => rfl
    | some q => cases hq : content q <;> simp [hq, excerpt, opening]

theorem pieces_congr {content content' : Path → Option Text} {isFile isFile' : Path → Bool}
    {kind : Path → SourceFile.Kind} (hf : content f.path = content' f.path)
    (hs : ∀ q ∈ SourceFile.siblings f.path, content q = content' q ∧ isFile q = isFile' q) :
    pieces content isFile kind f = pieces content' isFile' kind f := by
  have hfind : (SourceFile.siblings f.path).find? isFile = (SourceFile.siblings f.path).find? isFile' :=
    List.find?_congr fun q hq => (hs q hq).2
  rw [pieces, pieces, hf, hfind]
  cases content' f.path with
  | none => rfl
  | some text =>
    cases hq : (SourceFile.siblings f.path).find? isFile' with
    | none => rfl
    | some q => simp only [Option.bind_some, (hs q (List.mem_of_find?_eq_some hq)).1]

/-- Pieces are the same if the roles are, of the file and of its counterparts. -/
theorem pieces_eq_iff {content : Path → Option Text} {isFile : Path → Bool}
    {kind kind' : Path → SourceFile.Kind}
    (h : kind f.path = kind' f.path → ∀ q ∈ SourceFile.siblings f.path, kind q = kind' q) :
    pieces content isFile kind f = pieces content isFile kind' f ↔
      (∀ text, content f.path = some text → kind f.path = kind' f.path) := by
  rw [pieces, pieces]
  cases hc : content f.path with
  | none => simp
  | some text =>
    have hkind {k k' : SourceFile.Kind} (he : excerpt (shownInside f.path) k f.line text =
        excerpt (shownInside f.path) k' f.line text) : k = k' := congrArg FileContext.kind he
    constructor
    · intro he _ _
      exact hkind (List.cons.inj he).1
    · intro hk
      have hk := hk text rfl
      rw [hk]
      cases hq : (SourceFile.siblings f.path).find? isFile with
      | none => rfl
      | some q => rw [Option.bind_some, Option.bind_some, h hk q (List.mem_of_find?_eq_some hq)]

theorem manifestPresets_eq (a : Assembler) : a.manifestPresets =
    if a.files.isFile (a.root.join ⟨SourceFile.presetList⟩) then
      ((a.files.read (a.root.join ⟨SourceFile.presetList⟩)).toOption.map manifestNames).getD []
    else [] := by
  rw [manifestPresets]
  cases a.files.read (a.root.join ⟨SourceFile.presetList⟩) <;> rfl

theorem projectStructure_moved (h : SameTree a.files w a.root place) :
    (a.moved w place).projectStructure = a.projectStructure := by
  have hinward {name : Text} (hn : IsName name) : Inward ⟨name⟩ := by
    refine ⟨by simp [hn.lead], ?_⟩
    rw [hn.body]
    exact List.not_mem_nil
  have hdirs : buildDirCandidates.filter (fun n => w.isDirectory (place.join ⟨n⟩)) =
      buildDirCandidates.filter fun n => a.files.isDirectory (a.root.join ⟨n⟩) := by
    have hname : ∀ n ∈ buildDirCandidates, '/' ∉ n ∧ idle n = false ∧ n ≠ ['.', '.'] := by decide
    refine List.filter_congr fun n hn => ?_
    obtain ⟨hslash, hidle, hup⟩ := hname n hn
    exact (h.isDirectory ⟨n⟩ (hinward ⟨hslash, hidle, hup⟩)).symm
  have hlist : Inward ⟨SourceFile.presetList⟩ := hinward ⟨by decide, by decide, by decide⟩
  have hmanifest : (a.moved w place).manifestPresets = a.manifestPresets := by
    rw [manifestPresets_eq, manifestPresets_eq, h.isFile _ hlist, h.read _ hlist]
    rfl
  rw [projectStructure, projectStructure, hmanifest]
  simp only [moved, hdirs]

/-- Nothing is sent along of a file that cannot be read. -/
theorem fileContext_eq_nil (hr : r.activeFile = some f) (hl : f.path.lead ≠ .root)
    (hread : (a.files.read (a.root.join f.path)).toOption = none) : a.fileContext r = [] := by
  have hresolve : a.resolve f.path = a.root.join f.path := by
    rw [resolve, isAbsolute, if_neg (by simpa using hl)]
  rw [fileContext, hr]
  simp only [hresolve, snippet?_eq, hread, Option.map_none]

/-- What is sent along of a file of a moved project differs from what was sent in the roles alone. -/
theorem fileContext_moved (hp : place.isAbsolute) (htree : SameTree a.files w a.root place)
    (hr : r.activeFile = some f) (hin : f.path.Inward) (hb : f.path.body ≠ []) :
    (a.moved w place).fileContext r =
      pieces (fun q => (a.files.read (a.root.join q)).toOption) (fun q => a.files.isFile (a.root.join q))
        (fun q => SourceFile.kind a.project.conventions.interfaceDir (place.join q)) f := by
  have hkept : ∀ q ∈ SourceFile.siblings f.path, q.Inward := by
    intro q hq
    obtain ⟨-, hparent, hroot⟩ := SourceFile.siblings_keep hb hq
    exact ⟨fun h => hin.1 (hroot.mp h), hparent ▸ hin.2⟩
  rw [fileContext_eq (a := a.moved w place) hp hr hin.1 hb]
  exact pieces_congr (htree.read _ hin).symm fun q hq =>
    ⟨(htree.read q (hkept q hq)).symm, (htree.isFile q (hkept q hq)).symm⟩

/-- **A moved project.** For a request about a file inside the project, the envelopes at two places agree
in everything but the roles of the files; and they are equal if and only if the active file, where it can be
read, is a build script, or is interface code inside the project, or is made interface code by both places
or by neither. -/
theorem assemble_moved (ha : a.root.isAbsolute) (hp : place.isAbsolute)
    (htree : SameTree a.files w a.root place) (hr : ∀ f ∈ r.activeFile, f.path.escapes = false) :
    ((a.moved w place).assemble r).withoutRoles = (a.assemble r).withoutRoles ∧
      ((a.moved w place).assemble r = a.assemble r ↔
        ∀ f ∈ r.activeFile, ∀ text, a.files.read (a.root.join f.path) = .ok text →
          SourceFile.kind a.project.conventions.interfaceDir f.path = .buildScript ∨
          SourceFile.kind a.project.conventions.interfaceDir f.path = .interface ∨
          SourceFile.beginsAbove a.project.conventions.interfaceDir a.root f.path =
            SourceFile.beginsAbove a.project.conventions.interfaceDir place f.path) := by
  have hstructure := projectStructure_moved htree
  have hrest : (a.moved w place).assemble r =
      { a.assemble r with fileContext := (a.moved w place).fileContext r } := by
    rw [assemble, hstructure]
    rfl
  have hequal : (a.moved w place).assemble r = a.assemble r ↔
      (a.moved w place).fileContext r = a.fileContext r := by
    rw [hrest]
    exact ⟨fun h => congrArg Envelope.fileContext h, fun h => by rw [h]; rfl⟩
  have hroles (h : ((a.moved w place).fileContext r).map (fun c => { c with kind := .other }) =
      (a.fileContext r).map fun c => { c with kind := .other }) :
      ((a.moved w place).assemble r).withoutRoles = (a.assemble r).withoutRoles := by
    rw [hrest, Envelope.withoutRoles, Envelope.withoutRoles, h]
    rfl
  rw [hequal]
  cases hactive : r.activeFile with
  | none =>
    have hnone (b : Assembler) : b.fileContext r = [] := by rw [fileContext, hactive]
    exact ⟨hroles (by rw [hnone, hnone]), by simp [hnone]⟩
  | some f =>
    obtain ⟨hl, hup⟩ := escapes_eq_false.mp (hr f hactive)
    have hd := text_ne_nil_of_isAbsolute ha
    have hd' := text_ne_nil_of_isAbsolute hp
    have hin : f.path.Inward := ⟨hl, fun hmem => hup (List.dropLast_subset _ hmem)⟩
    have hread {text : Text} : a.files.read (a.root.join f.path) = .ok text ↔
        (a.files.read (a.root.join f.path)).toOption = some text := by
      cases a.files.read (a.root.join f.path) <;> simp [Except.toOption]
    simp only [hread, Option.mem_def, Option.some.injEq, forall_eq']
    by_cases hb : f.path.body = []
    · -- the path leads to the place itself, which is no file
      have hnone := htree.no_file f.path hl hb
      have hnone' : (w.read (place.join f.path)).toOption = none := htree.read f.path hin ▸ hnone
      rw [fileContext_eq_nil (a := a.moved w place) hactive hl hnone', fileContext_eq_nil hactive hl hnone]
        at hroles ⊢
      exact ⟨hroles rfl, by simp [hnone]⟩
    · have hmoved := fileContext_moved hp htree hactive hin hb
      have hhere := fileContext_eq ha hactive hl hb
      refine ⟨hroles ?_, ?_⟩
      · rw [hmoved, hhere]
        exact map_pieces _ _ _ _ f
      · rw [hmoved, hhere, pieces_eq_iff fun h q hq => SourceFile.kind_sibling hd' hd hl hb hq h]
        simp only [SourceFile.kind_join_eq_iff hd' hd hl hb, eq_comm]

/-- A project with one file, at a place. -/
def ofOneFile (place : Path) : Assembler where
  files := (MemoryFiles.plant place [(("a.cpp" : Path), some "int a;")]).view
  root := place
  project := {}
  maxDiagnostics := 25
  maxLogChars := 6000

/-- Between two places of other names the project can be moved. -/
theorem assemble_moved_aside :
    ((ofOneFile "/p").moved (ofOneFile "/q").files "/q").assemble { activeFile := some ⟨"a.cpp", 1⟩ } =
      (ofOneFile "/p").assemble { activeFile := some ⟨"a.cpp", 1⟩ } := by
  have htree : SameTree (ofOneFile "/p").files (ofOneFile "/q").files "/p" "/q" :=
    sameTree_plant (by decide) (by decide) (by decide)
  refine (assemble_moved (by decide) (by decide) htree (by decide)).2.mpr fun f hf text _ => ?_
  obtain rfl := Option.some.inj hf
  exact Or.inr (Or.inr (by decide))

/-- A project moved below a directory of the name of its own interface directory: what was an
implementation is interface code there. -/
theorem moved_below_interfaceDir :
    SameTree (ofOneFile "/home/p").files (ofOneFile "/home/src/ui/p").files "/home/p" "/home/src/ui/p" ∧
      (((ofOneFile "/home/p").assemble { activeFile := some ⟨"a.cpp", 1⟩ }).fileContext.map (·.kind)) =
        [.implementation] ∧
      (((ofOneFile "/home/src/ui/p").assemble { activeFile := some ⟨"a.cpp", 1⟩ }).fileContext.map
        (·.kind)) = [.interface] := by
  refine ⟨sameTree_plant (by decide) (by decide) (by decide), by decide, by decide⟩

end Assembler

end BuildMender
