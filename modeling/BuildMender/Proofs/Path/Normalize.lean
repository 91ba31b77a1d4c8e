import BuildMender.Proofs.Path.Components
import BuildMender.Proofs.Text.EndBlanks
import BuildMender.SourceFile

/-!
# Names of files as tools spell them

A name that a tool writes is normalized before it is used: trimmed, with slashes for backslashes, and
without the dots at its front that stand for the starting directory. No backslash is left in it and no such
dot in front of it, and a name that has neither to begin with stays as it is
(`BuildMender.SourceFile.normalize_of_normal`).

Whether the name still means the file that it meant, and whether it is settled, both depend on the one
character behind those dots (`BuildMender.SourceFile.BehindDots`). A slash that stands there is the first
character of what is left, which begins at the root then
(`BuildMender.SourceFile.steps_normalize_iff`). A blank that stands there was not trimmed and is trimmed when
the name is normalized again (`BuildMender.SourceFile.normalize_normalize_iff`). Behind anything else both hold:
what is dropped are idle pieces, and what is left has no blanks at its ends.
-/

namespace BuildMender

namespace Path

variable {p q : Path} {t piece name : Text}

/-! ### Steps -/

/-- **The steps of a path**: its components without the starting directory, whether that is written out or
not. -/
def steps (p : Path) : List Component := p.components.filter (· ≠ .here)

theorem steps_eq (p : Path) : p.steps = (if p.isAbsolute then [.root] else []) ++ p.body := by
  have hbody : p.body.filter (· ≠ .here) = p.body :=
    List.filter_eq_self.mpr fun c hc => by simpa using ne_of_mem_of_not_mem hc (here_not_mem_body p)
  rw [steps, components_eq, List.filter_append, hbody, isAbsolute]
  cases p.lead <;> rfl

theorem isAbsolute_iff_head? : isAbsolute ⟨t⟩ ↔ t.head? = some '/' := by
  rw [isAbsolute, beq_iff_eq, lead_eq_root, List.head?_eq_some_iff]

/-! ### Characters dropped at the front -/

/-- What is dropped at the front of a text, up to the first slash at most, is dropped from its first piece. -/
theorem slashed_dropWhile {p : Char → Bool} (hp : p '/' = false) (t : Text) :
    slashed (t.dropWhile p) = (slashed t).modifyHead (·.dropWhile p) := by
  induction t with
  | nil => rfl
  | cons c t ih =>
    by_cases hc : c = '/'
    · rw [hc, List.dropWhile_cons_of_neg (by simp [hp]), slashed_cons]
      rfl
    · obtain ⟨piece, more, ht, hct⟩ := slashed_cons_of_ne hc t
      cases hpc : p c with
      | true => rw [List.dropWhile_cons_of_pos hpc, ih, ht, hct]; simp [hpc]
      | false => rw [List.dropWhile_cons_of_neg (by simp [hpc]), hct]; simp [hpc]

theorem eq_of_active (h : active [piece] = [.name name]) : piece = name := by
  cases hidle : idle piece with
  | true => simp [active, hidle] at h
  | false =>
    have hcomponent : component piece = .name name := by simpa [active, hidle] using h
    rw [component] at hcomponent
    split at hcomponent
    · cases hcomponent
    · exact Component.name.inj hcomponent

/-- **A blank at the front of a path** is part of the name it begins with. -/
theorem body_trimStart_ne {c : Char} (hc : Text.isBlank c) (t : Text) :
    body ⟨Text.trimStart (c :: t)⟩ ≠ body ⟨c :: t⟩ := by
  have hne {d : Char} (hd : Text.isBlank d = false) : c ≠ d := by
    rintro rfl
    rw [hd] at hc
    cases hc
  have hslash : c ≠ '/' := hne (by decide)
  have hdot : c ≠ '.' := hne (by decide)
  obtain ⟨piece, more, -, hpieces⟩ := slashed_cons_of_ne hslash t
  intro h
  rw [body_eq, body_eq, Text.trimStart, Text.dropStart, slashed_dropWhile (by decide), hpieces, List.modifyHead_cons,
    ← List.singleton_append, active_append, ← List.singleton_append (l := more), active_append] at h
  have hname : active [c :: piece] = [.name (c :: piece)] := by simp [active, idle, component, hdot]
  have hfirst := eq_of_active ((List.append_cancel_right h).trans hname)
  have hshort := (List.dropWhile_suffix (l := piece) Text.isBlank).length_le
  rw [List.dropWhile_cons_of_pos hc] at hfirst
  rw [hfirst, List.length_cons] at hshort
  omega

end Path

namespace SourceFile

open Text

variable {t raw : Text} {p : Char → Prop}

/-- No dot is left in front of a name. -/
theorem dropHere_ne_here (t rest : Text) : dropHere t ≠ '.' :: '/' :: rest := by
  induction t using dropHere.induct with
  | case1 more ih => exact ih
  | case2 t hne =>
    rw [dropHere]
    · exact hne rest
    · exact hne

theorem dropHere_suffix (t : Text) : dropHere t <:+ t := by
  induction t using dropHere.induct with
  | case1 more ih => exact ih.trans ⟨['.', '/'], rfl⟩
  | case2 t hne =>
    have hsame : dropHere t = t := by
      rw [dropHere]
      exact hne
    exact ⟨[], hsame⟩

/-- A name without such a dot in front stays as it is. -/
theorem dropHere_of_not_here (h : ¬"./".toList <+: t) : dropHere t = t := by
  have hhere : "./".toList = ['.', '/'] := by decide
  rw [dropHere]
  rintro rest rfl
  exact h ⟨rest, congrArg (· ++ rest) hhere⟩

theorem here_not_prefix_normalize (raw : Text) : ¬"./".toList <+: normalize raw := by
  have hhere : "./".toList = ['.', '/'] := by decide
  rintro ⟨rest, hrest⟩
  rw [hhere] at hrest
  exact dropHere_ne_here _ rest hrest.symm

theorem backslash_not_mem_normalize (raw : Text) : '\\' ∉ normalize raw := by
  intro hc
  obtain ⟨c, -, hc⟩ := List.mem_map.mp ((dropHere_suffix _).subset hc)
  split at hc
  · cases hc
  · rename_i hne
    exact hne hc

theorem replace_of_not_mem {old new : Char} (h : old ∉ t) : replace old new t = t :=
  (List.map_congr_left fun _ hc => if_neg (ne_of_mem_of_not_mem hc h)).trans (List.map_id _)

/-- **A name that is spelled as it should be** stays as it is. -/
theorem normalize_of_normal (htrim : trim t = t) (hslash : '\\' ∉ t) (hhere : ¬"./".toList <+: t) :
    normalize t = t := by
  rw [normalize, htrim, replace_of_not_mem hslash, dropHere_of_not_here hhere]

/-! ### Behind the dots -/

/-- A name as it is written, with slashes. -/
def asWritten (raw : Text) : Text := replace '\\' '/' (trim raw)

/-- **Behind the dots at the front of a name**, one or more, stands a character of some kind. -/
def BehindDots (p : Char → Prop) (raw : Text) : Prop :=
  ∃ n c rest, asWritten raw = repeated (n + 1) "./" ++ c :: rest ∧ p c

theorem exists_repeated (t : Text) : ∃ n, t = repeated n "./" ++ dropHere t := by
  induction t using dropHere.induct with
  | case1 rest ih =>
    obtain ⟨n, hn⟩ := ih
    exact ⟨n + 1, congrArg (['.', '/'] ++ ·) hn⟩
  | case2 t hne =>
    refine ⟨0, ?_⟩
    rw [dropHere]
    · rfl
    · exact hne

theorem dropHere_repeated (n : Nat) (t : Text) : dropHere (repeated n "./" ++ t) = dropHere t := by
  induction n with
  | zero => rfl
  | succ n ih => exact ih

/-- What stands behind the dots is what the name begins with when it is normalized. -/
theorem behindDots_iff (hdot : ¬p '.') :
    BehindDots p raw ↔ "./".toList <+: asWritten raw ∧ ∃ c ∈ (normalize raw).head?, p c := by
  constructor
  · rintro ⟨n, c, rest, hraw, hc⟩
    refine ⟨⟨repeated n "./" ++ c :: rest, hraw.symm⟩, c, ?_, hc⟩
    have hne : c ≠ '.' := fun h => hdot (h ▸ hc)
    have hdrop : dropHere (c :: rest) = c :: rest := dropHere_of_not_here fun h => by
      obtain ⟨more, hmore⟩ := h
      exact hne (List.cons.inj hmore).1.symm
    rw [normalize, ← asWritten, hraw, dropHere_repeated, hdrop]
    rfl
  · rintro ⟨hhere, c, hc, hp⟩
    obtain ⟨rest, hrest⟩ := List.head?_eq_some_iff.mp hc
    obtain ⟨n, hn⟩ := exists_repeated (asWritten raw)
    cases n with
    | zero =>
      have hsame : asWritten raw = normalize raw := hn
      exact absurd (hsame ▸ hhere) (here_not_prefix_normalize raw)
    | succ n => exact ⟨n, c, rest, hrest ▸ hn, hp⟩

/-! ### What a name means -/

theorem body_dropHere (t : Text) : Path.body ⟨dropHere t⟩ = Path.body ⟨t⟩ := by
  induction t using dropHere.induct with
  | case1 rest ih => exact ih.trans (Path.body_here rest).symm
  | case2 t hne =>
    rw [dropHere]
    exact hne

theorem normalize_eq_asWritten (h : ¬"./".toList <+: asWritten raw) : normalize raw = asWritten raw :=
  dropHere_of_not_here h

/-- A name begins at the root if it did, or if a slash stands behind the dots at its front. -/
theorem isAbsolute_normalize : Path.isAbsolute ⟨normalize raw⟩ ↔
    Path.isAbsolute ⟨asWritten raw⟩ ∨ BehindDots (· = '/') raw := by
  rw [behindDots_iff (by decide)]
  by_cases hhere : "./".toList <+: asWritten raw
  · have hrelative : ¬Path.isAbsolute ⟨asWritten raw⟩ := by
      obtain ⟨rest, hrest⟩ := hhere
      rw [Path.isAbsolute_iff_head?, ← hrest]
      exact fun h => absurd (Option.some.inj h) (by decide)
    rw [Path.isAbsolute_iff_head?, or_iff_right hrelative, and_iff_right hhere]
    exact ⟨fun h => ⟨'/', h, rfl⟩, fun ⟨c, hc, hslash⟩ => hslash ▸ hc⟩
  · rw [normalize_eq_asWritten hhere]
    exact (or_iff_left fun h => hhere h.1).symm

theorem not_isAbsolute_of_behindDots (h : BehindDots p raw) : Path.isAbsolute ⟨asWritten raw⟩ = false := by
  obtain ⟨n, c, rest, hraw, -⟩ := h
  rw [hraw]
  rfl

/-- **A name means after it is normalized what it meant before**, unless a slash stands behind the dots at its
front. Then it is the path from the root with the same steps. -/
theorem steps_normalize_iff (raw : Text) :
    (Path.steps ⟨normalize raw⟩ = Path.steps ⟨asWritten raw⟩ ↔ ¬BehindDots (· = '/') raw) ∧
      (Path.isAbsolute ⟨normalize raw⟩ = Path.isAbsolute ⟨asWritten raw⟩ ↔ ¬BehindDots (· = '/') raw) ∧
      (Path.steps ⟨normalize raw⟩ = .root :: Path.steps ⟨asWritten raw⟩ ↔ BehindDots (· = '/') raw) := by
  have hbody : Path.body ⟨normalize raw⟩ = Path.body ⟨asWritten raw⟩ := body_dropHere _
  rw [Path.steps_eq, Path.steps_eq, hbody]
  by_cases hslash : BehindDots (· = '/') raw
  · have hrelative := not_isAbsolute_of_behindDots hslash
    have habsolute := isAbsolute_normalize.mpr (Or.inr hslash)
    simp [hslash, hrelative, habsolute]
  · have hsame : Path.isAbsolute ⟨normalize raw⟩ = Path.isAbsolute ⟨asWritten raw⟩ := by
      rw [Bool.eq_iff_iff, isAbsolute_normalize, or_iff_left hslash]
    simp [hslash, hsame]

/-- A slash behind the dot makes an absolute path of a relative one. -/
theorem rooted_by_dot :
    ¬(Path.steps ⟨normalize ".//a.cpp"⟩ = Path.steps ⟨asWritten ".//a.cpp"⟩) ∧
      Path.isAbsolute ⟨normalize ".//a.cpp"⟩ = true ∧ Path.isAbsolute ⟨asWritten ".//a.cpp"⟩ = false := by
  decide

/-! ### Normalizing again -/

/-- A name as it is written has no blanks at its ends. -/
theorem trim_asWritten (raw : Text) : trim (asWritten raw) = asWritten raw := by
  have hblank {c : Char} (h : isBlank c = false) : isBlank (if c = '\\' then '/' else c) = false := by
    split
    · rfl
    · exact h
  refine trim_of_ends (fun c hc => ?_) fun c hc => ?_
  · rw [asWritten, replace, List.head?_map] at hc
    obtain ⟨d, hd, rfl⟩ := Option.map_eq_some_iff.mp hc
    exact hblank (head?_trim hd)
  · rw [asWritten, replace, List.getLast?_map] at hc
    obtain ⟨d, hd, rfl⟩ := Option.map_eq_some_iff.mp hc
    exact hblank (getLast?_trim hd)

/-- No blank is left at the end of a name. -/
theorem trimEnd_normalize (raw : Text) : trimEnd (normalize raw) = normalize raw := by
  refine dropEnd_of_getLast? fun c hc => ?_
  obtain ⟨front, hfront⟩ := dropHere_suffix (asWritten raw)
  have hne : normalize raw ≠ [] := fun h => by simp [h] at hc
  have hlast : (asWritten raw).getLast? = (normalize raw).getLast? := by
    rw [← hfront]
    exact List.getLast?_append_of_ne_nil front hne
  rw [← hlast, ← trim_asWritten] at hc
  exact getLast?_trim hc

/-- No blank is left at its front, unless one stood behind the dots there. -/
theorem head?_normalize (h : ¬BehindDots (isBlank ·) raw) : ∀ c ∈ (normalize raw).head?, isBlank c = false := by
  intro c hc
  by_cases hhere : "./".toList <+: asWritten raw
  · rw [behindDots_iff (by decide), and_iff_right hhere] at h
    exact eq_false_of_ne_true fun hblank => h ⟨c, hc, hblank⟩
  · rw [normalize_eq_asWritten hhere, ← trim_asWritten] at hc
    exact head?_trim hc

theorem asWritten_normalize (raw : Text) : asWritten (normalize raw) = trimStart (normalize raw) := by
  have hslash : '\\' ∉ trimStart (normalize raw) := fun hc =>
    backslash_not_mem_normalize raw ((trimStart_suffix _).subset hc)
  rw [asWritten, trim, ← trimStart_trimEnd, trimEnd_normalize, replace_of_not_mem hslash]

/-- **A name is settled once it is normalized**, unless a blank stands behind the dots at its front. Then it is
the name of another file when it is normalized again. -/
theorem normalize_normalize_iff (raw : Text) :
    (normalize (normalize raw) = normalize raw ↔ ¬BehindDots (isBlank ·) raw) ∧
      (Path.same ⟨normalize (normalize raw)⟩ ⟨normalize raw⟩ ↔ ¬BehindDots (isBlank ·) raw) := by
  by_cases hblank : BehindDots (isBlank ·) raw
  · obtain ⟨-, c, hc, hcblank⟩ := (behindDots_iff (by decide)).mp hblank
    obtain ⟨rest, hrest⟩ := List.head?_eq_some_iff.mp hc
    have hbody : Path.body ⟨normalize (normalize raw)⟩ = Path.body ⟨trimStart (normalize raw)⟩ :=
      asWritten_normalize raw ▸ body_dropHere _
    have hother : ¬Path.same ⟨normalize (normalize raw)⟩ ⟨normalize raw⟩ := fun hsame => by
      have hbodies := (Path.components_inj.mp (eq_of_beq hsame)).2
      rw [hbody, hrest] at hbodies
      exact Path.body_trimStart_ne hcblank rest hbodies
    have hne : normalize (normalize raw) ≠ normalize raw := fun h => hother (by rw [h]; exact beq_self_eq_true _)
    simp [hblank, hother, hne]
  · have hstart : trim (normalize raw) = normalize raw :=
      (trim_of_head? (head?_normalize hblank)).trans (trimEnd_normalize raw)
    have hsettled : normalize (normalize raw) = normalize raw :=
      normalize_of_normal hstart (backslash_not_mem_normalize raw) (here_not_prefix_normalize raw)
    rw [hsettled]
    simp [hblank, Path.same]

/-- A blank behind the dot is left by one normalization and taken by the next. -/
theorem blank_behind_dot :
    ¬(normalize (normalize "./ a.cpp") = normalize "./ a.cpp") ∧
      ¬Path.same ⟨normalize (normalize "./ a.cpp")⟩ ⟨normalize "./ a.cpp"⟩ := by
  decide

end SourceFile

end BuildMender
