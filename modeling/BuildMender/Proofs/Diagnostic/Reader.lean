import BuildMender.Diagnostic.LinePattern
import BuildMender.Proofs.Text.Cut
import BuildMender.Proofs.Text.Line
import Mathlib.Data.List.Infix

/-!
# What a reader leaves of a line

Every reader goes over a line from left to right, and each of its steps leaves the end of the text that it was
given. So the message that is read is the end of the line, as it is for GCC and for linkers, or it is put
together from pieces of the line with a colon or parentheses between them. Either way it stays on one line
(`BuildMender.LinePattern.oneLine_of_ofLine?`).
-/

namespace BuildMender.LinePattern

open Text

variable {t rest u m : Text} {p : LinePattern}

/-! ### Steps -/

theorem suffix_of_after? {pat : Text} (h : after? pat t = some rest) : rest <:+ t :=
  ⟨pat, after?_eq_some.mp h⟩

/-- What may be there is passed over if it is. -/
theorem getD_after?_suffix (pat t : Text) : (after? pat t).getD t <:+ t := by
  cases h : after? pat t with
  | none => exact List.suffix_rfl
  | some rest => exact suffix_of_after? h

theorem suffix_of_afterSome? {q : Char → Bool} (h : afterSome? q t = some rest) : rest <:+ t := by
  cases t with
  | nil => cases h
  | cons c cs =>
    obtain ⟨-, h⟩ := Option.ite_none_right_eq_some.mp h
    obtain rfl := Option.some.inj h
    exact (List.dropWhile_suffix q).trans (List.suffix_cons c cs)

theorem suffix_of_digits? {digits : Text} (h : digits? t = some (digits, rest)) :
    digits ⊆ t ∧ rest <:+ t := by
  obtain ⟨-, h⟩ := Option.ite_none_left_eq_some.mp h
  cases h
  exact ⟨(List.takeWhile_prefix _).subset, List.dropWhile_suffix _⟩

theorem suffix_of_word? {words : List Text} {w : Text} (h : word? words t = some (w, rest)) :
    w ∈ words ∧ rest <:+ t := by
  obtain ⟨w', hw, h⟩ := List.exists_of_findSome?_eq_some h
  obtain ⟨r, hr, h⟩ := Option.map_eq_some_iff.mp h
  cases h
  exact ⟨hw, suffix_of_after? hr⟩

theorem suffix_of_mem_afterDrive {drive : Text} (h : (drive, rest) ∈ afterDrive t) : rest <:+ t := by
  have hwhole (h : (drive, rest) ∈ [(([], t) : Text × Text)]) : rest <:+ t := by
    cases List.mem_singleton.mp h
    exact List.suffix_rfl
  rw [afterDrive.eq_def] at h
  split at h
  · rename_i c more
    split at h
    · rcases List.mem_cons.mp h with h | h
      · cases h
        exact ⟨[c, ':'], rfl⟩
      · exact hwhole h
    · exact hwhole h
  · exact hwhole h

theorem suffix_of_upTo? {stop : Char} {name : Text} (h : upTo? stop t = some (name, rest)) : rest <:+ t := by
  cases t with
  | nil => cases h
  | cons c cs =>
    obtain ⟨-, h⟩ := Option.ite_none_left_eq_some.mp h
    split at h
    · cases h
    · rename_i d more heq
      cases h
      refine List.IsSuffix.trans ?_ (List.dropWhile_suffix (· ≠ stop))
      rw [heq]
      exact List.suffix_cons d _

/-! ### Compilers in the style of GCC -/

theorem gccColumn_suffix (t : Text) : (gccColumn t).2 <:+ t := by
  rw [gccColumn]
  split
  · rename_i digits rest hdigits
    split
    · rename_i after hafter
      exact (suffix_of_after? hafter).trans (suffix_of_digits? hdigits).2
    · exact List.suffix_rfl
  · exact List.suffix_rfl

theorem suffix_of_gccTail? {file : Text} (h : gccTail? file t = some p) : p.message <:+ t := by
  obtain ⟨⟨line, t₁⟩, hline, h⟩ := Option.bind_eq_some_iff.mp h
  obtain ⟨t₂, hcolon, h⟩ := Option.bind_eq_some_iff.mp h
  obtain ⟨⟨severity, t₃⟩, hseverity, h⟩ := Option.bind_eq_some_iff.mp h
  obtain ⟨t₄, hcolon', h⟩ := Option.bind_eq_some_iff.mp h
  obtain rfl := Option.some.inj h
  calc trimStart t₄ <:+ t₄ := trimStart_suffix t₄
    _ <:+ t₃ := suffix_of_after? hcolon'
    _ <:+ trimStart (gccColumn t₂).2 := (suffix_of_word? hseverity).2
    _ <:+ (gccColumn t₂).2 := trimStart_suffix _
    _ <:+ t₂ := gccColumn_suffix t₂
    _ <:+ t₁ := suffix_of_after? hcolon
    _ <:+ t := (suffix_of_digits? hline).2

theorem suffix_of_gcc? (h : gcc? t = some p) : p.message <:+ t := by
  obtain ⟨⟨drive, t₁⟩, hdrive, h⟩ := List.exists_of_findSome?_eq_some h
  obtain ⟨⟨name, t₂⟩, hname, h⟩ := Option.bind_eq_some_iff.mp h
  exact ((suffix_of_gccTail? h).trans (suffix_of_upTo? hname)).trans (suffix_of_mem_afterDrive hdrive)

/-! ### Compilers and linkers in the style of Visual C++ -/

theorem suffix_of_code? {code : Text} (h : code? t = some (code, rest)) : code ⊆ t ∧ rest <:+ t := by
  obtain ⟨-, h⟩ := Option.ite_none_left_eq_some.mp h
  obtain ⟨⟨digits, more⟩, hdigits, h⟩ := Option.map_eq_some_iff.mp h
  cases h
  have hdrop : t.dropWhile isAsciiCapital <:+ t := List.dropWhile_suffix _
  obtain ⟨hsub, hmore⟩ := suffix_of_digits? hdigits
  exact ⟨List.append_subset.mpr ⟨(List.takeWhile_prefix _).subset, List.Subset.trans hsub hdrop.subset⟩,
    hmore.trans hdrop⟩

theorem suffix_of_linkCode? {code : Text} (h : linkCode? t = some (code, rest)) :
    code ⊆ t ∧ rest <:+ t := by
  obtain ⟨u, hu, h⟩ := Option.bind_eq_some_iff.mp h
  obtain ⟨⟨digits, more⟩, hdigits, h⟩ := Option.map_eq_some_iff.mp h
  cases h
  obtain ⟨hsub, hmore⟩ := suffix_of_digits? hdigits
  have hu' := suffix_of_after? hu
  refine ⟨List.append_subset.mpr ⟨?_, List.Subset.trans hsub hu'.subset⟩, hmore.trans hu'⟩
  rw [← after?_eq_some.mp hu]
  exact List.subset_append_left ..

theorem suffix_of_afterColon? (h : afterColon? t = some rest) : rest <:+ t := by
  obtain ⟨u, hu, rfl⟩ := Option.map_eq_some_iff.mp h
  exact ((trimStart_suffix u).trans (suffix_of_after? hu)).trans (trimStart_suffix t)

theorem withoutProject_subset (message : Text) : withoutProject message ⊆ message := by
  rw [withoutProject]
  split
  · split
    · rename_i before after hcut
      rw [eq_of_cutLast hcut, List.append_assoc]
      exact List.subset_append_left ..
    · exact List.Subset.refl _
  · exact List.Subset.refl _

/-- A message that is not followed by the name of a project file stays as it is. -/
theorem withoutProject_of_not_suffix (h : ¬"proj]".toList <:+ m) : withoutProject m = m := by
  rw [withoutProject, endsWith, if_neg (by rwa [List.isSuffixOf_iff_suffix])]

/-- The message of a verdict stays on the line, if the code before it is part of the line. -/
theorem oneLine_of_verdict? {words : List Text} {code : Text → Option (Text × Text)} {severity message : Text}
    (hcode : ∀ {t c rest : Text}, code t = some (c, rest) → c ⊆ t ∧ rest <:+ t)
    (h : verdict? words code t = some (severity, message)) (ht : '\n' ∉ t) : '\n' ∉ message := by
  obtain ⟨⟨word, t₁⟩, hword, h⟩ := Option.bind_eq_some_iff.mp h
  obtain ⟨t₂, hblank, h⟩ := Option.bind_eq_some_iff.mp h
  obtain ⟨⟨c, t₃⟩, hcode', h⟩ := Option.bind_eq_some_iff.mp h
  obtain ⟨t₄, hcolon, h⟩ := Option.bind_eq_some_iff.mp h
  cases h
  have hfront : t₂ <:+ t := (suffix_of_afterSome? hblank).trans (suffix_of_word? hword).2
  obtain ⟨hc, hrest⟩ := hcode hcode'
  have hend : t₄ <:+ t := ((suffix_of_afterColon? hcolon).trans hrest).trans hfront
  have hmessage : trim (withoutProject t₄) ⊆ t :=
    List.Subset.trans (List.Subset.trans (trim_subset _) (withoutProject_subset t₄)) hend.subset
  have hcolon : '\n' ∉ ": ".toList := by decide
  rw [coded, List.mem_append, List.mem_append]
  rintro ((hmem | hmem) | hmem)
  · exact ht (hfront.subset (hc hmem))
  · exact hcolon hmem
  · exact ht (hmessage hmem)

theorem suffix_of_msvcPlace? {line : Text} {column : Option Text}
    (h : msvcPlace? t = some (line, column, rest)) : rest <:+ t := by
  obtain ⟨⟨line', t₁⟩, hline, h⟩ := Option.bind_eq_some_iff.mp h
  have hfront := (suffix_of_digits? hline).2
  dsimp only at h
  split at h
  · rename_i u hcomma
    obtain ⟨⟨column', t₂⟩, hcolumn, h⟩ := Option.bind_eq_some_iff.mp h
    obtain ⟨t₃, hparen, h⟩ := Option.bind_eq_some_iff.mp h
    cases h
    exact (((suffix_of_after? hparen).trans (suffix_of_digits? hcolumn).2).trans (suffix_of_after? hcomma)).trans
      hfront
  · obtain ⟨t₃, hparen, h⟩ := Option.bind_eq_some_iff.mp h
    cases h
    exact (suffix_of_after? hparen).trans hfront

theorem oneLine_of_msvc? (h : msvc? t = some p) (ht : '\n' ∉ t) : '\n' ∉ p.message := by
  obtain ⟨⟨file, t₁⟩, hfile, h⟩ := Option.bind_eq_some_iff.mp h
  obtain ⟨⟨line, column, t₂⟩, hplace, h⟩ := Option.bind_eq_some_iff.mp h
  obtain ⟨t₃, hcolon, h⟩ := Option.bind_eq_some_iff.mp h
  obtain ⟨⟨severity, message⟩, hverdict, h⟩ := Option.bind_eq_some_iff.mp h
  obtain rfl := Option.some.inj h
  refine oneLine_of_verdict? suffix_of_code? hverdict fun hmem => ht (List.IsSuffix.subset ?_ hmem)
  exact (((suffix_of_afterColon? hcolon).trans (suffix_of_msvcPlace? hplace)).trans
    (suffix_of_upTo? hfile)).trans (trimStart_suffix t)

theorem oneLine_of_link? (h : link? t = some p) (ht : '\n' ∉ t) : '\n' ∉ p.message := by
  obtain ⟨⟨file, t₁⟩, hfile, h⟩ := Option.bind_eq_some_iff.mp h
  obtain ⟨⟨severity, message⟩, hverdict, h⟩ := Option.bind_eq_some_iff.mp h
  obtain rfl := Option.some.inj h
  refine oneLine_of_verdict? suffix_of_linkCode? hverdict fun hmem => ht (List.IsSuffix.subset ?_ hmem)
  exact ((trimStart_suffix t₁).trans (suffix_of_upTo? hfile)).trans (trimStart_suffix t)

/-! ### CMake -/

/-- The context of a CMake message is a piece of the line, and the message is the end of it. -/
theorem suffix_of_cmakeContext {context : Option Text} (h : cmakeContext t = (context, rest)) :
    (∀ c ∈ context, c ⊆ t) ∧ rest <:+ t := by
  have hnone (h : (none, t) = (context, rest)) : (∀ c ∈ context, c ⊆ t) ∧ rest <:+ t := by
    cases h
    exact ⟨fun _ hc => (nomatch hc), List.suffix_rfl⟩
  rw [cmakeContext] at h
  split at h
  · rename_i u hu
    split at h
    · rename_i paren more hmore
      cases h
      have hfront := suffix_of_after? hu
      refine ⟨fun c hc => ?_, ?_⟩
      · obtain rfl := Option.some.inj hc
        exact List.Subset.trans (List.takeWhile_prefix _).subset hfront.subset
      · refine List.IsSuffix.trans ?_ ((List.dropWhile_suffix (· ≠ ')')).trans hfront)
        rw [hmore]
        exact List.suffix_cons paren _
    · exact hnone h
  · exact hnone h

theorem withContext_eq_nil_or (context : Option Text) (message : Text) :
    withContext context message = [] ∨ allBlank (withContext context message) = false := by
  rw [withContext.eq_def]
  split
  · exact Or.inl rfl
  · rename_i hblank
    have hmessage : allBlank message = false := by simpa using hblank
    cases context with
    | none => exact Or.inr hmessage
    | some c =>
      rw [allBlank] at hmessage
      exact Or.inr (by simp [allBlank, hmessage])

/-- **What is read of a line by CMake.** -/
theorem exists_of_cmake? (h : cmake? t = some p) : p.severity ∈ ["Error".toList, "Warning".toList] ∧
    ∃ context message, p.message = withContext context message ∧ (∀ c ∈ context, c ⊆ t) ∧ message <:+ t := by
  obtain ⟨⟨severity, t₁⟩, hword, h⟩ := Option.bind_eq_some_iff.mp h
  obtain ⟨t₂, hat, h⟩ := Option.bind_eq_some_iff.mp h
  obtain ⟨t₃, hcolon, h⟩ := Option.bind_eq_some_iff.mp h
  -- no line number is looked for behind an empty name
  obtain ⟨-, h⟩ := Option.ite_none_left_eq_some.mp h
  obtain ⟨⟨line, t₄⟩, hline, h⟩ := Option.bind_eq_some_iff.mp h
  obtain rfl := Option.some.inj h
  obtain ⟨hseverity, hrest⟩ := suffix_of_word? hword
  have hfront : t₄ <:+ t := calc
    t₄ <:+ t₃ := (suffix_of_digits? hline).2
    _ <:+ t₂.dropWhile (· ≠ ':') := suffix_of_after? hcolon
    _ <:+ t₂ := List.dropWhile_suffix _
    _ <:+ (after? " (dev)" t₁).getD t₁ := suffix_of_after? hat
    _ <:+ t₁ := getD_after?_suffix ..
    _ <:+ (after? "CMake " t).getD t := hrest
    _ <:+ t := getD_after?_suffix ..
  obtain ⟨hcontext, hmore⟩ := suffix_of_cmakeContext (rfl : cmakeContext t₄ = (_, _))
  refine ⟨hseverity, _, _, rfl, fun c hc => List.Subset.trans (hcontext c hc) hfront.subset, ?_⟩
  exact (((trimStart_suffix _).trans (getD_after?_suffix ..)).trans hmore).trans hfront

theorem oneLine_of_cmake? (h : cmake? t = some p) (ht : '\n' ∉ t) : '\n' ∉ p.message := by
  obtain ⟨-, context, message, hp, hcontext, hmessage⟩ := exists_of_cmake? h
  have hm : '\n' ∉ message := fun hmem => ht (hmessage.subset hmem)
  rw [hp, withContext.eq_def]
  split
  · exact List.not_mem_nil
  · cases context with
    | none => exact hm
    | some c =>
      have hc : '\n' ∉ c := fun hmem => ht (hcontext c rfl hmem)
      simp [hm, hc]

/-! ### Linkers -/

theorem suffix_of_afterParens? (h : afterParens? t = some rest) : rest <:+ t := by
  obtain ⟨u, hu, h⟩ := Option.bind_eq_some_iff.mp h
  exact ((suffix_of_after? h).trans (List.dropWhile_suffix _)).trans (suffix_of_after? hu)

theorem suffix_of_afterLinkerName? (h : afterLinkerName? t = some rest) : rest <:+ t := by
  obtain ⟨u, hu, h⟩ := Option.bind_eq_some_iff.mp h
  refine ((suffix_of_afterSome? h).trans (suffix_of_after? hu)).trans ((getD_after?_suffix ..).trans ?_)
  split
  · rename_i more
    cases hword : afterSome? isWordChar more with
    | none => exact List.suffix_rfl
    | some r => exact (suffix_of_afterSome? hword).trans (List.suffix_cons '.' more)
  · exact List.suffix_rfl

theorem suffix_of_mem_afterLinker {previous : Option Char} (h : u ∈ afterLinker previous t) : u <:+ t := by
  induction t generalizing previous with
  | nil => cases h
  | cons c cs ih =>
    rw [afterLinker] at h
    rcases List.mem_append.mp h with hhere | hlater
    · obtain ⟨-, hhere⟩ := Option.ite_none_right_eq_some.mp (Option.mem_toList.mp hhere)
      obtain ⟨v, hv, hname⟩ := Option.bind_eq_some_iff.mp hhere
      exact (suffix_of_afterLinkerName? hname).trans (suffix_of_after? hv)
    · split at hlater
      · cases hlater
      · exact (ih hlater).trans (List.suffix_cons c cs)

theorem suffix_of_afterObjectExtension? (h : afterObjectExtension? t = some rest) : rest <:+ t := by
  obtain ⟨extension, -, h⟩ := List.exists_of_findSome?_eq_some h
  obtain ⟨v, hv, h⟩ := Option.bind_eq_some_iff.mp h
  refine List.IsSuffix.trans ?_ (suffix_of_after? hv)
  rw [Option.orElse_eq_or] at h
  -- a member of a library may stand in parentheses before the colon
  rcases Option.or_eq_some_iff.mp h with h | ⟨-, h⟩
  · obtain ⟨w, hw, h⟩ := Option.bind_eq_some_iff.mp h
    exact (suffix_of_after? h).trans (suffix_of_afterParens? hw)
  · exact suffix_of_after? h

theorem suffix_of_mem_afterObjectFrom (h : u ∈ afterObjectFrom t) : u <:+ t := by
  induction t with
  | nil => cases h
  | cons c cs ih =>
    rw [afterObjectFrom] at h
    split at h
    · cases h
    · refine List.IsSuffix.trans ?_ (List.suffix_cons c cs)
      rcases List.mem_append.mp h with hlater | hhere
      · exact ih hlater
      · exact suffix_of_afterObjectExtension? (Option.mem_toList.mp hhere)

theorem linkerLine_suffix (t : Text) : (linkerLine t).2 <:+ t := by
  rw [linkerLine]
  split
  · rename_i digits rest h
    obtain ⟨v, hv, hdigits⟩ := Option.bind_eq_some_iff.mp h
    exact (suffix_of_digits? hdigits).2.trans (suffix_of_after? hv)
  · exact List.suffix_rfl

/-- A section in parentheses is passed over if it is there. -/
theorem getD_afterParens?_suffix (t : Text) : ((after? ":" t).bind afterParens?).getD t <:+ t := by
  cases h : (after? ":" t).bind afterParens? with
  | none => exact List.suffix_rfl
  | some v =>
    obtain ⟨w, hw, hv⟩ := Option.bind_eq_some_iff.mp h
    exact (suffix_of_afterParens? hv).trans (suffix_of_after? hw)

theorem suffix_of_linkerTail? {file : Text} (h : linkerTail? file t = some p) : p.message <:+ t := by
  obtain ⟨t₁, hcolon, h⟩ := Option.bind_eq_some_iff.mp h
  obtain ⟨name, hname, h⟩ := Option.bind_eq_some_iff.mp h
  obtain ⟨-, h⟩ := Option.ite_none_left_eq_some.mp h
  obtain rfl := Option.some.inj h
  exact ((trimStart_suffix t₁).trans (suffix_of_after? hcolon)).trans
    ((getD_afterParens?_suffix _).trans (linkerLine_suffix t))

theorem suffix_of_linkerFile? (h : linkerFile? t = some p) : p.message <:+ t := by
  obtain ⟨⟨drive, t₁⟩, hdrive, h⟩ := List.exists_of_findSome?_eq_some h
  obtain ⟨⟨name, t₂⟩, hname, h⟩ := Option.bind_eq_some_iff.mp h
  obtain ⟨-, hname⟩ := Option.ite_none_left_eq_some.mp hname
  cases hname
  exact ((suffix_of_linkerTail? h).trans (List.dropWhile_suffix _)).trans (suffix_of_mem_afterDrive hdrive)

theorem suffix_of_linker? (h : linker? t = some p) : p.message <:+ t := by
  obtain ⟨u, hu, h⟩ := List.exists_of_findSome?_eq_some h
  obtain ⟨v, hv, h⟩ := List.exists_of_findSome?_eq_some h
  -- the linker's name may be passed over, and then the name of an object file
  have hfront : u <:+ t := by
    rcases List.mem_append.mp hu with hu | hu
    · exact suffix_of_mem_afterLinker hu
    · rw [List.mem_singleton.mp hu]
  have hobject : v <:+ u := by
    rcases List.mem_append.mp hv with hv | hv
    · obtain ⟨⟨drive, w⟩, hdrive, hv⟩ := List.mem_flatMap.mp hv
      exact (suffix_of_mem_afterObjectFrom hv).trans (suffix_of_mem_afterDrive hdrive)
    · rw [List.mem_singleton.mp hv]
  exact ((suffix_of_linkerFile? h).trans hobject).trans hfront

/-! ### The table -/

/-- The dialect of the first reader that takes a line. -/
def dialect? (line : Text) : Option Dialect := (table.find? fun e => (e.2 line).isSome).map Prod.fst

theorem map_fst_ofLine? (line : Text) : (ofLine? line).map Prod.fst = dialect? line := by
  rw [ofLine?, dialect?]
  induction table with
  | nil => rfl
  | cons e more ih =>
    rw [List.findSome?_cons, List.find?_cons]
    cases h : e.2 line with
    | none => simpa [h] using ih
    | some p => simp [h]

/-- A line is read by one of the readers in the table. -/
theorem exists_of_ofLine? {dialect : Dialect} (h : ofLine? t = some (dialect, p)) :
    ∃ read, (dialect, read) ∈ table ∧ read t = some p := by
  obtain ⟨⟨dialect', read⟩, hmem, h⟩ := List.exists_of_findSome?_eq_some h
  obtain ⟨p', hread, h⟩ := Option.map_eq_some_iff.mp h
  cases h
  exact ⟨read, hmem, hread⟩

theorem cmake?_of_ofLine? (h : ofLine? t = some (.cmake, p)) : cmake? t = some p := by
  obtain ⟨read, hmem, hread⟩ := exists_of_ofLine? h
  simp only [table, List.mem_cons, Prod.mk.injEq, reduceCtorEq, false_and, true_and, false_or, or_false,
    List.not_mem_nil] at hmem
  rwa [hmem] at hread

/-- **A message that is read on one line** stays on one line. -/
theorem oneLine_of_ofLine? {dialect : Dialect} (h : ofLine? t = some (dialect, p)) (ht : '\n' ∉ t) :
    '\n' ∉ p.message := by
  obtain ⟨read, hmem, hread⟩ := exists_of_ofLine? h
  have hsuffix (h : p.message <:+ t) : '\n' ∉ p.message := fun hm => ht (h.subset hm)
  simp only [table, List.mem_cons, Prod.mk.injEq, List.not_mem_nil, or_false] at hmem
  rcases hmem with ⟨-, rfl⟩ | ⟨-, rfl⟩ | ⟨-, rfl⟩ | ⟨-, rfl⟩ | ⟨-, rfl⟩
  · exact hsuffix (suffix_of_gcc? hread)
  · exact oneLine_of_msvc? hread ht
  · exact oneLine_of_cmake? hread ht
  · exact hsuffix (suffix_of_linker? hread)
  · exact oneLine_of_link? hread ht

end BuildMender.LinePattern
