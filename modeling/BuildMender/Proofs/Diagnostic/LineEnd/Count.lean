import BuildMender.Proofs.Diagnostic.Seam
import BuildMender.Proofs.Diagnostic.LineEnd.Message

/-!
# Where the blanks at the end of a line count

A line is read otherwise without the blanks at its end in one of two ways: its message is longer for them, or
the blanks are all that a linker names. For a whole log, in which the diagnostics are sorted and so lose their
lines, the first way shows in how long the messages are together, and the second in a message that no line
gives whose end has been trimmed.
-/

namespace BuildMender

open Text

namespace LinePattern

variable {t short long : Text} {p q : LinePattern}

namespace Prolonged

theorem length_lt (h : Prolonged short long) : (trim short).length < (trim long).length := by
  cases h with
  | project hsome hgap hfile =>
    refine length_trim_lt hsome ?_
    rw [allBlank_append, allBlank_append, show allBlank " [".toList = false from rfl, Bool.false_and,
      Bool.and_false]
  | @context message gap context hsome hgap hne =>
    have hbehind : allBlank (" (".toList ++ (context ++ ")".toList)) = false := by
      rw [allBlank_append, show allBlank " (".toList = false from rfl, Bool.false_and]
    have hlong : allBlank (gap ++ (" (".toList ++ (context ++ ")".toList))) = false := by
      rw [allBlank_append, hbehind, Bool.and_false]
    have hpos := List.length_pos_of_ne_nil hne
    rw [trim_append hsome hbehind, trim_append hsome hlong, trimEnd_append_of_not_allBlank hbehind]
    simp only [List.length_append]
    omega

theorem not_allBlank (h : Prolonged short long) : allBlank short = false ∧ allBlank long = false := by
  cases h with
  | project hsome hgap hfile => exact ⟨hsome, by rw [allBlank_append, hsome, Bool.false_and]⟩
  | context hsome hgap hne =>
    exact ⟨by rw [allBlank_append, hsome, Bool.false_and], by rw [allBlank_append, hsome, Bool.false_and]⟩

end Prolonged

/-! ### What linkers say -/

/-- A message of the linker of Visual C++ begins with its code. -/
theorem exists_of_link? (h : link? t = some p) : ∃ rest, p.message = 'L' :: rest := by
  obtain ⟨⟨file, t₁⟩, -, h⟩ := Option.bind_eq_some_iff.mp h
  obtain ⟨⟨severity, message⟩, hverdict, h⟩ := Option.bind_eq_some_iff.mp h
  obtain rfl := Option.some.inj h
  obtain ⟨⟨word, t₂⟩, -, h⟩ := Option.bind_eq_some_iff.mp hverdict
  obtain ⟨t₃, -, h⟩ := Option.bind_eq_some_iff.mp h
  obtain ⟨⟨code, t₄⟩, hcode, h⟩ := Option.bind_eq_some_iff.mp h
  obtain ⟨t₅, -, h⟩ := Option.bind_eq_some_iff.mp h
  cases h
  obtain ⟨u, -, hcode⟩ := Option.bind_eq_some_iff.mp hcode
  obtain ⟨⟨digits, more⟩, -, h⟩ := Option.map_eq_some_iff.mp hcode
  cases h
  exact ⟨_, rfl⟩

/-- A message of another linker names something. -/
theorem exists_of_linker? (h : linker? t = some p) :
    ∃ name, name ≠ [] ∧ p.message = undefinedReference ++ name := by
  obtain ⟨u, -, h⟩ := List.exists_of_findSome?_eq_some h
  obtain ⟨v, -, h⟩ := List.exists_of_findSome?_eq_some h
  obtain ⟨⟨drive, t₁⟩, -, h⟩ := List.exists_of_findSome?_eq_some h
  obtain ⟨⟨file, t₂⟩, -, h⟩ := Option.bind_eq_some_iff.mp h
  obtain ⟨t₃, -, h⟩ := Option.bind_eq_some_iff.mp h
  obtain ⟨name, hname, h⟩ := Option.bind_eq_some_iff.mp h
  obtain ⟨hne, h⟩ := Option.ite_none_left_eq_some.mp h
  obtain rfl := Option.some.inj h
  exact ⟨name, by simpa using hne, (after?_eq_some.mp hname).symm⟩

/-- A reading of one of the linkers. -/
theorem linker_of_ofLine? (h : ofLine? t = some (.linker, p)) : linker? t = some p ∨ link? t = some p := by
  obtain ⟨read, hmem, hread⟩ := exists_of_ofLine? h
  simp only [table, List.mem_cons, Prod.mk.injEq, reduceCtorEq, false_and, true_and, false_or,
    List.not_mem_nil, or_false] at hmem
  rcases hmem with rfl | rfl
  · exact Or.inl hread
  · exact Or.inr hread

/-- **Without blanks at the end of its line** no linker's message goes without a name. -/
theorem trim_ne_unnamedReference (hend : trimEnd t = t) (h : ofLine? t = some (.linker, p)) :
    trim p.message ≠ unnamedReference := by
  intro hmessage
  rcases linker_of_ofLine? h with h | h
  · -- the message ends where the line ends, and it begins with the pattern
    obtain ⟨name, hne, hname⟩ := exists_of_linker? h
    obtain ⟨front, hfront⟩ := suffix_of_linker? h
    have hsome : p.message ≠ [] := fun hnil => hne (List.append_eq_nil_iff.mp (hname.symm.trans hnil)).2
    have hwhole : trim p.message = p.message := by
      refine trim_of_ends (fun c hc => ?_) fun c hc => ?_
      · rw [hname] at hc
        obtain rfl := Option.some.inj hc
        rfl
      · refine getLast?_trimEnd (t := t) ?_
        rwa [hend, ← hfront, List.getLast?_append_of_ne_nil front hsome]
    have hlength := congrArg List.length ((hname.symm.trans hwhole.symm).trans hmessage)
    have hpattern : undefinedReference.length = unnamedReference.length + 1 := rfl
    rw [List.length_append, hpattern] at hlength
    omega
  · obtain ⟨rest, hrest⟩ := exists_of_link? h
    have hstart : trim p.message = 'L' :: trimEnd rest := by
      rw [hrest, trim, trimStart_cons_of_not_isBlank rfl, trimEnd_cons_of_not_isBlank rfl]
    rw [hstart] at hmessage
    exact absurd (List.cons.inj hmessage).1 (by decide)

theorem Unnamed.trim_message (h : Unnamed p) : trim p.message = unnamedReference := by
  rw [trim, ← trimStart_trimEnd, h]
  rfl

/-- A line that gives such a message is not blank. -/
theorem not_allBlank_of_unnamed (h : ofLine? t = some (.linker, p)) (hunnamed : Unnamed p) :
    allBlank t = false := by
  rw [Bool.eq_false_iff]
  intro hblank
  rcases linker_of_ofLine? h with h | h
  · have hmessage := allBlank_of_subset (suffix_of_linker? h).subset hblank
    rw [← trimEnd_eq_nil, hunnamed] at hmessage
    cases hmessage
  · obtain ⟨rest, hrest⟩ := exists_of_link? h
    rw [Unnamed, hrest, trimEnd_cons_of_not_isBlank rfl] at hunnamed
    exact absurd (List.cons.inj hunnamed).1 (by decide)

end LinePattern

namespace Diagnostic

open LinePattern

variable {line l : Text} {below below' ls : List Text} {dialect : Dialect} {p q : LinePattern} {d : Diagnostic}

/-- **The blanks at the end of a line count** if it is read otherwise without them. That is so for a linker's
line that names nothing but blanks, and where they make the message longer. -/
inductive BlanksCount (line : Text) : Prop where
  | unnamed {p : LinePattern} (hread : LinePattern.ofLine? line = some (.linker, p)) (hunnamed : Unnamed p)
  | prolonged {dialect : Dialect} {p : LinePattern} {message : Text}
      (hread : LinePattern.ofLine? line = some (dialect, p))
      (htrimmed : LinePattern.ofLine? (trimEnd line) = some (dialect, { p with message := message }))
      (hprolonged : Prolonged message p.message)

/-- What a diagnostic says, whatever the line looks like that it was read from. -/
def withoutRaw (d : Diagnostic) : Diagnostic := { d with raw := [] }

theorem complete_of_ne_nil (h : p.message ≠ []) (below : List Text) : complete dialect p below = p :=
  if_neg fun hopen => h hopen.2

/-- A message of CMake's that is blank is left to the lines below. -/
theorem message_eq_nil_iff (h : LinePattern.ofLine? line = some (.cmake, p)) :
    p.message = [] ↔ allBlank p.message := by
  refine ⟨fun hnil => by rw [hnil]; rfl, fun hblank => ?_⟩
  obtain ⟨-, context, message, hp, -⟩ := exists_of_cmake? (cmake?_of_ofLine? h)
  rw [hp] at hblank ⊢
  exact (withContext_eq_nil_or context message).resolve_right (by simp [hblank])

/-- **Readings that differ in blanks at the end of the message** give the same diagnostic, but for its line. -/
theorem withoutRaw_ofParts {message : Text} (hread : LinePattern.ofLine? line = some (dialect, p))
    (hread' : LinePattern.ofLine? l = some (dialect, { p with message := message }))
    (htrim : trim message = trim p.message) (hbelow : continuation below' = continuation below) :
    withoutRaw (ofParts dialect (complete dialect { p with message := message } below') l) =
      withoutRaw (ofParts dialect (complete dialect p below) line) := by
  have hblank : allBlank message = allBlank p.message := by rw [← allBlank_trim, htrim, allBlank_trim]
  have hopen : (dialect = .cmake ∧ message = []) ↔ dialect = .cmake ∧ p.message = [] := by
    refine and_congr_right fun hdialect => ?_
    subst hdialect
    rw [message_eq_nil_iff hread, ← hblank]
    exact message_eq_nil_iff hread'
  rw [complete, complete]
  split
  · rename_i h
    rw [if_pos (hopen.mp h), hbelow]
    rfl
  · rename_i h
    rw [if_neg (mt hopen.mpr h), withoutRaw, withoutRaw, ofParts, ofParts]
    simp only [htrim]

theorem ofLine?_eq_some : ofLine? line below = some d ↔ allBlank line = false ∧ ∃ dialect p,
    LinePattern.ofLine? line = some (dialect, p) ∧ ofParts dialect (complete dialect p below) line = d := by
  rw [ofLine?, Option.ite_none_left_eq_some, Bool.not_eq_true, Option.map_eq_some_iff]
  exact and_congr_right fun _ => Prod.exists

/-- **A line whose blanks do not count** gives the same diagnostic without them, but for the line. -/
theorem ofLine?_trimEnd_of_not (h : ¬BlanksCount line) (hbelow : continuation below' = continuation below) :
    (ofLine? (trimEnd line) below').map withoutRaw = (ofLine? line below).map withoutRaw := by
  rw [ofLine?, ofLine?, allBlank_trimEnd]
  split
  · rfl
  · rcases LinePattern.ofLine?_trimEnd line with ⟨p, hp, hunnamed⟩ | hrel
    · exact absurd (.unnamed hp hunnamed) h
    · generalize hread : LinePattern.ofLine? line = o at hrel
      generalize hread' : LinePattern.ofLine? (trimEnd line) = o' at hrel
      cases hrel with
      | none => rfl
      | @some r r' halike =>
        obtain ⟨hdialect, message, hq, hmessage⟩ := halike
        obtain ⟨dialect, p⟩ := r
        obtain ⟨dialect', q⟩ := r'
        obtain rfl : dialect' = dialect := hdialect
        obtain rfl : q = { p with message := message } := hq
        rcases hmessage with htrim | hprolonged
        · exact congrArg some (withoutRaw_ofParts hread hread' htrim hbelow)
        · exact absurd (.prolonged hread hread' hprolonged) h

theorem complete_linker (p : LinePattern) (below : List Text) : complete .linker p below = p :=
  if_neg fun h => nomatch h.1

/-- A line that names nothing but blanks gives a diagnostic that shows it. -/
theorem exists_of_unnamed (hread : LinePattern.ofLine? line = some (.linker, p)) (hunnamed : Unnamed p)
    (below : List Text) : ∃ d, ofLine? line below = some d ∧ d.dialect = .linker ∧ d.message = unnamedReference := by
  refine ⟨_, ofLine?_eq_some.mpr ⟨not_allBlank_of_unnamed hread hunnamed, _, _, hread, rfl⟩, rfl, ?_⟩
  rw [complete_linker]
  exact hunnamed.trim_message

/-- A line without blanks at its end gives none such. -/
theorem message_ne_unnamedReference (h : ofLine? (trimEnd line) below = some d) (hdialect : d.dialect = .linker) :
    d.message ≠ unnamedReference := by
  obtain ⟨-, dialect, p, hread, rfl⟩ := ofLine?_eq_some.mp h
  obtain rfl : dialect = .linker := hdialect
  rw [complete_linker]
  exact trim_ne_unnamedReference (trimEnd_trimEnd line) hread

/-- **Where the blanks make the message longer**, so is that of the diagnostic. -/
theorem exists_of_prolonged {message : Text} (hread : LinePattern.ofLine? line = some (dialect, p))
    (htrimmed : LinePattern.ofLine? (trimEnd line) = some (dialect, { p with message := message }))
    (hprolonged : Prolonged message p.message) (below below' : List Text) :
    ∃ d d', ofLine? line below = some d ∧ ofLine? (trimEnd line) below' = some d' ∧
      d'.message.length < d.message.length := by
  have hblank : allBlank line = false := by
    -- nothing is read of a line without characters
    rw [Bool.eq_false_iff]
    intro hall
    rw [trimEnd_eq_nil.mpr hall] at htrimmed
    cases htrimmed
  have hblank' := (allBlank_trimEnd line).trans hblank
  refine ⟨_, _, ofLine?_eq_some.mpr ⟨hblank, _, _, hread, rfl⟩,
    ofLine?_eq_some.mpr ⟨hblank', _, _, htrimmed, rfl⟩, ?_⟩
  have hne {t : Text} (h : allBlank t = false) : t ≠ [] := by
    rintro rfl
    cases h
  obtain ⟨hshort, hlong⟩ := hprolonged.not_allBlank
  rw [complete_of_ne_nil (hne hlong), complete_of_ne_nil (hne hshort)]
  exact hprolonged.length_lt

/-! ### Lines that are read alike -/

/-- Without blanks at its end, there is nothing that could count. -/
theorem not_blanksCount_of_trimmed (h : trimEnd line = line) : ¬BlanksCount line := by
  rintro (⟨hread, hunnamed⟩ | ⟨hread, htrimmed, hprolonged⟩)
  · exact trim_ne_unnamedReference h hread hunnamed.trim_message
  · rw [h, hread] at htrimmed
    have hmessage := congrArg LinePattern.message (Prod.mk.inj (Option.some.inj htrimmed)).2
    exact absurd hprolonged.length_lt (by rw [hmessage]; exact Nat.lt_irrefl _)

/-- **In a line in the style of GCC** no blanks count. -/
theorem not_blanksCount_of_gcc (h : gcc? line = some p) : ¬BlanksCount line := by
  have hgcc {t : Text} {q : LinePattern} (hq : gcc? t = some q) : LinePattern.ofLine? t = some (.gcc, q) := by
    simp only [LinePattern.ofLine?, table, List.findSome?_cons, hq, Option.map_some]
  have htrim : LinePattern.ofLine? (trimEnd line) = some (.gcc, messageTrimmed p) :=
    hgcc (by rw [gcc?_trimEnd, h, Option.map_some])
  intro hcount
  cases hcount with
  | unnamed hread hunnamed =>
    rw [hgcc h] at hread
    cases hread
  | @prolonged dialect q message hread htrimmed hprolonged =>
    rw [hgcc h] at hread
    cases hread
    rw [htrim] at htrimmed
    have hmessage : trimEnd p.message = message :=
      congrArg LinePattern.message (Prod.mk.inj (Option.some.inj htrimmed)).2
    refine Nat.lt_irrefl _ (hprolonged.length_lt.trans_eq ?_)
    rw [← hmessage, trim_trimEnd]

/-! ### Lines -/

theorem exists_of_mem_ofLines (h : d ∈ ofLines ls) : ∃ l ∈ ls, ∃ below, ofLine? l below = some d := by
  induction ls with
  | nil => cases h
  | cons line below ih =>
    rcases List.mem_append.mp h with h | h
    · exact ⟨line, List.mem_cons_self, below, Option.mem_toList.mp h⟩
    · obtain ⟨l, hl, hread⟩ := ih h
      exact ⟨l, List.mem_cons_of_mem line hl, hread⟩

theorem exists_mem_ofLines (h : l ∈ ls) : ∃ below, ∀ d, ofLine? l below = some d → d ∈ ofLines ls := by
  obtain ⟨above, below, rfl⟩ := List.append_of_mem h
  refine ⟨below, fun d hd => ?_⟩
  clear h
  induction above with
  | nil => exact List.mem_append_left _ (Option.mem_toList.mpr hd)
  | cons line above ih => exact List.mem_append_right _ ih

theorem map_withoutRaw_toList (o : Option Diagnostic) : o.toList.map withoutRaw = (o.map withoutRaw).toList := by
  cases o <;> rfl

/-- Lines whose blanks do not count give the same diagnostics without them, but for the lines. -/
theorem map_ofLines_trimEnd (h : ∀ l ∈ ls, ¬BlanksCount l) :
    (ofLines (ls.map trimEnd)).map withoutRaw = (ofLines ls).map withoutRaw := by
  induction ls with
  | nil => rfl
  | cons line below ih =>
    obtain ⟨hline, hbelow⟩ := List.forall_mem_cons.mp h
    rw [List.map_cons, ofLines, ofLines, List.map_append, List.map_append, ih hbelow, map_withoutRaw_toList,
      map_withoutRaw_toList, ofLine?_trimEnd_of_not hline (continuation_map_trimEnd below)]

/-- How long the messages are that some diagnostics have. -/
def totalLength (ds : List Diagnostic) : Nat := (ds.flatMap message).length

theorem totalLength_append (ds es : List Diagnostic) : totalLength (ds ++ es) = totalLength ds + totalLength es := by
  rw [totalLength, List.flatMap_append, List.length_append]
  rfl

theorem totalLength_of_perm {ds es : List Diagnostic} (h : (ds.map withoutRaw).Perm (es.map withoutRaw)) :
    totalLength ds = totalLength es := by
  have hlengths := (h.flatMap_right message).length_eq
  rwa [List.flatMap_map, List.flatMap_map] at hlengths

/-- A line that names something gives no longer a message without the blanks at its end, and a shorter one if
they count. -/
theorem totalLength_ofLine? (hnamed : ∀ p, LinePattern.ofLine? line = some (.linker, p) → ¬Unnamed p)
    (hbelow : continuation below' = continuation below) :
    totalLength (ofLine? (trimEnd line) below').toList ≤ totalLength (ofLine? line below).toList ∧
      (BlanksCount line →
        totalLength (ofLine? (trimEnd line) below').toList < totalLength (ofLine? line below).toList) := by
  by_cases hcount : BlanksCount line
  · cases hcount with
    | unnamed hread hunnamed => exact absurd hunnamed (hnamed _ hread)
    | prolonged hread htrimmed hprolonged =>
      obtain ⟨d, d', hd, hd', hlt⟩ := exists_of_prolonged hread htrimmed hprolonged below below'
      have hlengths : totalLength [d'] < totalLength [d] := by simpa [totalLength] using hlt
      rw [hd, hd']
      exact ⟨Nat.le_of_lt hlengths, fun _ => hlengths⟩
  · have hsame := congrArg Option.toList (ofLine?_trimEnd_of_not hcount hbelow)
    rw [← map_withoutRaw_toList, ← map_withoutRaw_toList] at hsame
    exact ⟨(totalLength_of_perm (hsame ▸ .refl _)).le, fun h => absurd h hcount⟩

theorem totalLength_ofLines (hnamed : ∀ l ∈ ls, ∀ p, LinePattern.ofLine? l = some (.linker, p) → ¬Unnamed p) :
    totalLength (ofLines (ls.map trimEnd)) ≤ totalLength (ofLines ls) ∧
      ((∃ l ∈ ls, BlanksCount l) → totalLength (ofLines (ls.map trimEnd)) < totalLength (ofLines ls)) := by
  induction ls with
  | nil => exact ⟨Nat.le_refl _, fun ⟨_, h, _⟩ => nomatch h⟩
  | cons line below ih =>
    obtain ⟨hline, hrest⟩ := List.forall_mem_cons.mp hnamed
    obtain ⟨hle, hlt⟩ := totalLength_ofLine? hline (continuation_map_trimEnd below)
    obtain ⟨hle', hlt'⟩ := ih hrest
    rw [List.map_cons, ofLines, ofLines, totalLength_append, totalLength_append]
    refine ⟨Nat.add_le_add hle hle', ?_⟩
    rintro ⟨l, hl, hcount⟩
    rcases List.mem_cons.mp hl with rfl | hl
    · exact Nat.add_lt_add_of_lt_of_le (hlt hcount) hle'
    · exact Nat.add_lt_add_of_le_of_lt hle (hlt' ⟨l, hl, hcount⟩)

/-- A linker's line that names nothing but blanks shows in what the lines give. -/
theorem not_unnamed_of_perm (h : ((ofLines (ls.map trimEnd)).map withoutRaw).Perm ((ofLines ls).map withoutRaw))
    (hl : l ∈ ls) (hread : LinePattern.ofLine? l = some (.linker, p)) : ¬Unnamed p := by
  intro hunnamed
  obtain ⟨below, hbelow⟩ := exists_mem_ofLines hl
  obtain ⟨d, hd, hdialect, hmessage⟩ := exists_of_unnamed hread hunnamed below
  obtain ⟨d', hd', hsame⟩ := List.mem_map.mp (h.mem_iff.mpr (List.mem_map_of_mem (hbelow d hd)))
  obtain ⟨l', hl', below', hread'⟩ := exists_of_mem_ofLines hd'
  obtain ⟨line, -, rfl⟩ := List.mem_map.mp hl'
  have hdialect' : d'.dialect = .linker := (congrArg Diagnostic.dialect hsame).trans hdialect
  exact message_ne_unnamedReference hread' hdialect' ((congrArg Diagnostic.message hsame).trans hmessage)

/-- **What lines give, sorted, is the same** without the blanks at their ends exactly if these do not count. -/
theorem map_mergeSort_trimEnd_iff :
    ((ofLines ls).mergeSort precedes).map withoutRaw =
        ((ofLines (ls.map trimEnd)).mergeSort precedes).map withoutRaw ↔ ∀ l ∈ ls, ¬BlanksCount l := by
  have hsort (ds : List Diagnostic) :
      (ds.mergeSort precedes).map withoutRaw = (ds.map withoutRaw).mergeSort precedes :=
    List.map_mergeSort fun _ _ _ _ => rfl
  rw [hsort, hsort]
  constructor
  · intro h l hl hcount
    have hperm : ((ofLines (ls.map trimEnd)).map withoutRaw).Perm ((ofLines ls).map withoutRaw) := by
      have hsorted := List.mergeSort_perm ((ofLines ls).map withoutRaw) precedes
      rw [h] at hsorted
      exact (List.mergeSort_perm _ precedes).symm.trans hsorted
    have hlt := (totalLength_ofLines fun l hl p => not_unnamed_of_perm hperm hl).2 ⟨l, hl, hcount⟩
    exact absurd (totalLength_of_perm hperm) (Nat.ne_of_lt hlt)
  · exact fun h => congrArg (List.mergeSort · precedes) (map_ofLines_trimEnd h).symm

end Diagnostic

end BuildMender
