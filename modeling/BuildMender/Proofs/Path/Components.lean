import BuildMender.Path
import Mathlib.Data.List.Basic
import Mathlib.Data.List.Induction

/-!
# The components of a path, part by part

What a path means is the list of its components, and that list is settled by two things: how the path
begins (`BuildMender.Path.lead`) and the names and `..` between its slashes (`BuildMender.Path.body`).
Everything that is done with paths is stated here for these two.

The one thing to know is that both are read off the *same* list, the pieces of the spelling between
slashes. The beginning is what the first piece says – an empty one in front of others is the root, a
dot is the starting directory (`BuildMender.Path.lead_eq`) – and the body is what is left of the pieces
when the idle ones are dropped. So joining two paths, which puts pieces after pieces, puts body after body
(`BuildMender.Path.body_join`), and the parent of a path loses the last component of its body and
nothing else (`BuildMender.Path.exists_parent`).
-/

namespace BuildMender

namespace Path

/-! ### What a path is besides its lead -/

/-- The components that a beginning stands for. -/
def Lead.components : Lead → List Component
  | .root => [.root]
  | .here => [.here]
  | .bare => []

/-- The components between slashes: names and `..`. -/
def body (p : Path) : List Component := ((slashed p.text).filter fun piece => !idle piece).map component

theorem slashed_append_cons (a b : Text) : slashed (a ++ '/' :: b) = slashed a ++ slashed b :=
  Text.split_append_cons (by decide) a b

theorem slashed_cons (t : Text) : slashed ('/' :: t) = [] :: slashed t := rfl

theorem slashed_here (t : Text) : slashed ('.' :: '/' :: t) = ['.'] :: slashed t := slashed_append_cons ['.'] t

/-- A dot in front of a path names nothing. -/
theorem body_here (t : Text) : body ⟨'.' :: '/' :: t⟩ = body ⟨t⟩ := by
  rw [body, slashed_here]
  rfl

theorem body_eq_pieces (p : Path) :
    p.body = (p.pieces.filter fun piece => !idle piece).map component := by
  obtain ⟨t⟩ := p
  rw [body, pieces]
  split
  · rename_i rest h
    simp only at h
    subst h
    rw [slashed_cons]
    rfl
  · rename_i h
    simp only at h
    subst h
    rfl
  · rename_i rest h
    simp only at h
    subst h
    rw [slashed_here]
    rfl
  · rfl

/-- **A path is its lead and its body.** -/
theorem components_eq (p : Path) : p.components = p.lead.components ++ p.body := by
  rw [components, body_eq_pieces]
  cases p.lead <;> rfl

theorem component_ne_root (piece : Text) : component piece ≠ .root := by
  rw [component]
  split <;> simp

theorem component_ne_here (piece : Text) : component piece ≠ .here := by
  rw [component]
  split <;> simp

theorem root_not_mem_body (p : Path) : Component.root ∉ p.body := by
  rw [body, List.mem_map]
  rintro ⟨piece, -, h⟩
  exact component_ne_root piece h

theorem here_not_mem_body (p : Path) : Component.here ∉ p.body := by
  rw [body, List.mem_map]
  rintro ⟨piece, -, h⟩
  exact component_ne_here piece h

/-- Two spellings of one path have the same lead and the same body. -/
theorem components_inj {p q : Path} :
    p.components = q.components ↔ p.lead = q.lead ∧ p.body = q.body := by
  constructor
  · intro h
    rw [components_eq, components_eq] at h
    have hp := root_not_mem_body p
    have hq := root_not_mem_body q
    have hp' := here_not_mem_body p
    have hq' := here_not_mem_body q
    -- a body has no component that a lead stands for, so the two lists split at the same point
    generalize p.lead = l, q.lead = l' at h ⊢
    cases l <;> cases l' <;> grind [Lead.components]
  · rintro ⟨hl, hb⟩
    rw [components_eq, components_eq, hl, hb]

/-- A path that does not escape starts from a directory and has only names in its body. -/
theorem escapes_eq_false {p : Path} : p.escapes = false ↔ p.lead ≠ .root ∧ Component.up ∉ p.body := by
  rw [escapes, components_eq]
  cases h : p.lead <;> simp [isAbsolute, h, Lead.components]

/-! ### The lead in the pieces -/

/-- How a path begins, read off its pieces between slashes. -/
def leadOf : List Text → Lead
  | [] :: _ :: _ => .root
  | ['.'] :: _ => .here
  | _ => .bare

theorem slashed_cons_of_ne {c : Char} (hc : c ≠ '/') (t : Text) :
    ∃ piece more, slashed t = piece :: more ∧ slashed (c :: t) = (c :: piece) :: more := by
  cases h : slashed t with
  | nil => exact absurd h (Text.split_ne_nil _ t)
  | cons piece more =>
    refine ⟨piece, more, rfl, ?_⟩
    rw [slashed] at h ⊢
    rw [Text.split, if_neg (by simpa using hc), h]

theorem slashed_ne_nil (t : Text) : slashed t ≠ [] := Text.split_ne_nil _ t

theorem lead_eq (p : Path) : p.lead = leadOf (slashed p.text) := by
  obtain ⟨t⟩ := p
  cases t with
  | nil => rfl
  | cons c rest =>
    obtain ⟨piece, more, hp⟩ := List.exists_cons_of_ne_nil (slashed_ne_nil rest)
    by_cases hc : c = '/'
    · subst hc
      rw [slashed_cons, hp]
      rfl
    · obtain ⟨piece, more, hp, hcp⟩ := slashed_cons_of_ne hc rest
      rw [hcp]
      by_cases hd : c = '.'
      · subst hd
        cases rest with
        | nil =>
          obtain rfl : piece = [] := by simpa [slashed, Text.split] using congrArg List.head? hp.symm
          rfl
        | cons d rest =>
          by_cases hs : d = '/'
          · subst hs
            obtain rfl : piece = [] := by simpa [slashed_cons] using congrArg List.head? hp.symm
            rfl
          · obtain ⟨piece', more', -, hdp⟩ := slashed_cons_of_ne hs rest
            obtain rfl : piece = d :: piece' := by simpa [hdp] using congrArg List.head? hp.symm
            simp [lead, leadOf, hs]
      · simp [lead, leadOf, hc, hd]

theorem lead_eq_root {p : Path} : p.lead = .root ↔ ∃ rest, p.text = '/' :: rest := by
  obtain ⟨t⟩ := p
  rw [lead]
  split <;> simp_all

/-- More pieces at the end change the beginning only of the empty path. -/
theorem leadOf_append {ps : List Text} (hne : ps ≠ []) (h : ps ≠ [[]]) (qs : List Text) :
    leadOf (ps ++ qs) = leadOf ps := by
  match ps, hne, h with
  | [] :: _ :: _, _, _ => rfl
  | [[]], _, h => exact absurd rfl h
  | (c :: cs) :: more, _, _ =>
    by_cases hc : c :: cs = ['.']
    · rw [hc]
      rfl
    · simp [leadOf, hc]

/-! ### Joining -/

/-- The pieces of a path taken from a directory. -/
theorem slashed_join {dir p : Path} (h : p.lead ≠ .root) (hd : dir.text ≠ []) :
    ∃ ps, ps ≠ [] ∧ (slashed dir.text = ps ∨ slashed dir.text = ps ++ [[]]) ∧
      slashed (dir.join p).text = ps ++ slashed p.text := by
  have habs : p.isAbsolute = false := by simpa [isAbsolute] using h
  rw [join, habs, if_neg (by decide)]
  by_cases hs : Text.endsWith "/" dir.text
  · obtain ⟨a, ha⟩ : ∃ a, dir.text = a ++ ['/'] := by
      obtain ⟨a, ha⟩ := List.isSuffixOf_iff_suffix.mp hs
      exact ⟨a, ha.symm⟩
    refine ⟨slashed a, slashed_ne_nil a, Or.inr ?_, ?_⟩
    · rw [ha, slashed_append_cons]
      rfl
    · rw [if_pos (by rw [hs, Bool.or_true]), ha, List.append_assoc, List.singleton_append,
        slashed_append_cons]
  · refine ⟨slashed dir.text, slashed_ne_nil _, Or.inl rfl, ?_⟩
    rw [if_neg (by rw [eq_false_of_ne_true hs, Bool.or_false, List.isEmpty_iff]; exact hd)]
    simp [slashed_append_cons]

theorem join_of_empty {dir : Path} (hd : dir.text = []) (p : Path) : dir.join p = p := by
  rw [join, hd]
  split <;> rfl

/-- **The body of a path taken from a directory** is what the directory's body and its own make
together. -/
theorem body_join {dir p : Path} (h : p.lead ≠ .root) : (dir.join p).body = dir.body ++ p.body := by
  by_cases hd : dir.text = []
  · rw [join_of_empty hd, body, body, hd]
    rfl
  · obtain ⟨ps, -, hps, hj⟩ := slashed_join h hd
    rw [body, body, body, hj]
    rcases hps with hps | hps <;> rw [hps] <;> simp [idle]

theorem slashed_eq_nil {t : Text} : slashed t = [[]] ↔ t = [] := by
  refine ⟨fun h => ?_, fun h => by rw [h]; rfl⟩
  cases t with
  | nil => rfl
  | cons c rest =>
    by_cases hc : c = '/'
    · rw [hc, slashed_cons] at h
      simp [slashed_ne_nil] at h
    · obtain ⟨piece, more, -, hp⟩ := slashed_cons_of_ne hc rest
      simp [hp] at h

/-- A path taken from a directory begins as the directory does. -/
theorem lead_join {dir p : Path} (h : p.lead ≠ .root) (hd : dir.text ≠ []) :
    (dir.join p).lead = dir.lead := by
  obtain ⟨ps, hne, hps, hj⟩ := slashed_join h hd
  rw [lead_eq, lead_eq dir, hj]
  -- there is nothing before the slash of the directory `/`, so it is looked at alone
  by_cases hp : ps = [[]]
  · subst hp
    rcases hps with hps | hps
    · exact absurd (slashed_eq_nil.mp hps) hd
    · obtain ⟨piece, more, hq⟩ := List.exists_cons_of_ne_nil (slashed_ne_nil p.text)
      rw [hps, hq]
      rfl
  · rcases hps with hps | hps
    · rw [hps, leadOf_append hne hp]
    · rw [hps, leadOf_append hne hp, leadOf_append hne hp]

/-! ### The parent -/

/-- The components that some pieces stand for. -/
def active (ps : List Text) : List Component := (ps.filter fun piece => !idle piece).map component

theorem body_eq (p : Path) : p.body = active (slashed p.text) := rfl

@[simp] theorem active_nil : active [] = [] := rfl

@[simp] theorem active_append (ps qs : List Text) : active (ps ++ qs) = active ps ++ active qs := by
  simp [active]

theorem slashed_joined {ps : List Text} (hne : ps ≠ []) (h : ∀ t ∈ ps, '/' ∉ t) :
    slashed (Text.join "/" ps) = ps := by
  refine Text.split_join (c := '/') (by decide) hne fun t ht x hx => ?_
  rintro he
  exact h t ht (of_decide_eq_true he ▸ hx)

theorem cons_flatten_eq_joined (t : Text) (ps : List Text) :
    t ++ (ps.map ('/' :: ·)).flatten = Text.join "/" (t :: ps) := by
  induction ps generalizing t with
  | nil => simp [Text.join]
  | cons u more ih =>
    have hj : Text.join "/" (t :: u :: more) = t ++ '/' :: Text.join "/" (u :: more) := by
      simp [Text.join]
    rw [hj, ← ih u]
    simp

/-- Pieces put together and taken apart again. -/
theorem slashed_assemble {l : Lead} {ps : List Text} (hne : ps ≠ []) (h : ∀ t ∈ ps, '/' ∉ t) :
    slashed (assemble l ps).text =
      (match l with
        | .root => [[]]
        | .here => [['.']]
        | .bare => []) ++ ps := by
  cases l with
  | root => exact congrArg ([] :: ·) (slashed_joined hne h)
  | here =>
    have hps : ∀ t ∈ ['.'] :: ps, '/' ∉ t := by simpa using h
    have := slashed_joined (List.cons_ne_nil _ _) hps
    rwa [← cons_flatten_eq_joined] at this
  | bare => exact slashed_joined hne h

/-- Pieces put together have the body that they stand for. -/
theorem body_assemble {l : Lead} {ps : List Text} (h : ∀ t ∈ ps, '/' ∉ t) :
    (assemble l ps).body = active ps := by
  by_cases hne : ps = []
  · subst hne
    cases l <;> rfl
  · rw [body_eq, slashed_assemble hne h]
    cases l <;> rfl

/-- Pieces put together behind a beginning begin so. -/
theorem lead_assemble {l : Lead} {ps : List Text} (h : ∀ t ∈ ps, '/' ∉ t)
    (hl : l = .bare → ∀ t ∈ ps.head?, idle t = false) : (assemble l ps).lead = l := by
  by_cases hne : ps = []
  · subst hne
    cases l <;> rfl
  · obtain ⟨t, more, rfl⟩ := List.exists_cons_of_ne_nil hne
    rw [lead_eq, slashed_assemble hne h]
    cases l with
    | root => rfl
    | here => rfl
    | bare =>
      have ht : idle t = false := hl rfl t rfl
      match t, ht with
      | c :: cs, ht =>
        have hc : c :: cs ≠ ['.'] := by
          intro hc
          rw [hc] at ht
          exact absurd ht (by decide)
        simp [leadOf, hc]

/-- The pieces up to the last that names something, and that piece. -/
theorem exists_settled {ps : List Text} (h : active ps ≠ []) :
    ∃ init t rest, settled ps = init ++ [t] ∧ idle t = false ∧ ps = init ++ t :: rest ∧
      active ps = active init ++ [component t] := by
  induction ps using List.reverseRecOn with
  | nil => exact absurd rfl h
  | append_singleton ps t ih =>
    by_cases ht : idle t
    · have hps : active (ps ++ [t]) = active ps := by simp [active, ht]
      obtain ⟨init, u, rest, hs, hu, hps', ha⟩ := ih (hps ▸ h)
      refine ⟨init, u, rest ++ [t], ?_, hu, by simp [hps'], hps ▸ ha⟩
      rw [← hs]
      simp [settled, ht]
    · refine ⟨ps, t, [], ?_, by simpa using ht, rfl, ?_⟩
      · simp [settled, ht]
      · simp [active, ht]

theorem active_settled (ps : List Text) : active (settled ps) = active ps := by
  induction ps using List.reverseRecOn with
  | nil => rfl
  | append_singleton ps t ih =>
    by_cases ht : idle t
    · have : settled (ps ++ [t]) = settled ps := by simp [settled, ht]
      rw [this, ih]
      simp [active, ht]
    · have : settled (ps ++ [t]) = ps ++ [t] := by simp [settled, ht]
      rw [this]

theorem settled_eq_nil {ps : List Text} : settled ps = [] ↔ active ps = [] := by
  refine ⟨fun h => ?_, fun h => ?_⟩
  · rw [← active_settled, h]
    rfl
  · by_contra hne
    obtain ⟨init, t, hs⟩ : ∃ init t, settled ps = init ++ [t] :=
      ⟨_, _, (List.dropLast_concat_getLast hne).symm⟩
    have hlast := List.head?_dropWhile_not idle ps.reverse
    have hhead : (ps.reverse.dropWhile idle).head? = some t := by
      have := congrArg List.reverse hs
      rw [settled, List.reverse_reverse] at this
      rw [this]
      simp
    rw [hhead] at hlast
    rw [← active_settled, hs, active_append] at h
    simp [active, show idle t = false by simpa using hlast] at h

theorem prefix_settled (ps : List Text) : settled ps <+: ps := by
  rw [settled, ← List.reverse_suffix]
  simpa using List.dropWhile_suffix _

theorem active_pieces (p : Path) : active p.pieces = p.body := (body_eq_pieces p).symm

theorem pieces_of_bare {p : Path} (hl : p.lead = .bare) : p.pieces = slashed p.text := by
  rw [lead] at hl
  rw [pieces]
  split at hl <;> simp_all

/-- The pieces of a path without a lead begin with one that names something. -/
theorem idle_head_pieces {p : Path} (hl : p.lead = .bare) (hb : p.body ≠ []) :
    ∀ t ∈ p.pieces.head?, idle t = false := by
  have hlead : leadOf p.pieces = .bare := by rw [pieces_of_bare hl, ← lead_eq, hl]
  have hne : active p.pieces ≠ [] := active_pieces p ▸ hb
  intro t ht
  obtain ⟨more, hp⟩ : ∃ more, p.pieces = t :: more := by
    cases hp : p.pieces with
    | nil => simp [hp] at ht
    | cons u more => exact ⟨more, by simp [hp] at ht; rw [ht]⟩
  rw [hp] at hlead hne
  by_contra hidle
  have hcases : t = [] ∨ t = ['.'] := by simpa [idle, or_iff_not_imp_left] using hidle
  rcases hcases with rfl | rfl
  · cases more with
    | nil => exact hne rfl
    | cons u more => exact absurd hlead (by simp [leadOf])
  · exact absurd hlead (by simp [leadOf])

theorem not_mem_of_mem_slashed {t piece : Text} (h : piece ∈ slashed t) : '/' ∉ piece :=
  fun hc => Text.not_mem_of_mem_split h _ hc (by decide)

theorem not_mem_of_mem_pieces {p : Path} {t : Text} (h : t ∈ p.pieces) : '/' ∉ t := by
  rw [pieces] at h
  split at h
  · exact not_mem_of_mem_slashed h
  · cases h
  · exact not_mem_of_mem_slashed h
  · exact not_mem_of_mem_slashed h

theorem parent?_of_settled {p : Path} {init : List Text} {t : Text}
    (h : settled p.pieces = init ++ [t]) : p.parent? = some (assemble p.lead (settled init)) := by
  obtain ⟨x, xs, hx⟩ : ∃ x xs, init ++ [t] = x :: xs := List.exists_cons_of_ne_nil (by simp)
  have hinit : (x :: xs).dropLast = init := by rw [← hx, List.dropLast_concat]
  simp only [parent?, h, hx, hinit]

/-- **The parent of a path** begins as the path does and has all but the last component of its body. -/
theorem exists_parent {p : Path} (h : p.body ≠ []) :
    ∃ q, p.parent? = some q ∧ q.lead = p.lead ∧ q.body = p.body.dropLast := by
  obtain ⟨init, t, rest, hs, ht, hps, ha⟩ := exists_settled (active_pieces p ▸ h)
  have hpre : settled init <+: p.pieces := by
    rw [hps]
    exact (prefix_settled init).trans (List.prefix_append _ _)
  have hslash : ∀ u ∈ settled init, '/' ∉ u := fun u hu => not_mem_of_mem_pieces (hpre.mem hu)
  refine ⟨_, parent?_of_settled hs, lead_assemble hslash fun hl u hu => ?_, ?_⟩
  · refine idle_head_pieces hl h u ?_
    obtain ⟨rest, hrest⟩ := hpre
    rw [← hrest, List.head?_append, Option.mem_def.mp hu]
    rfl
  · rw [body_assemble hslash, active_settled, ← active_pieces, ha, List.dropLast_concat]

/-- Paths without a lead that have one body have parents of one meaning. -/
theorem parent?_congr {p q : Path} (hp : p.lead = .bare) (hq : q.lead = .bare) (h : p.body = q.body) :
    p.parent?.map components = q.parent?.map components := by
  by_cases hb : p.body = []
  · have hnone {r : Path} (hl : r.lead = .bare) (hr : r.body = []) : r.parent? = none := by
      rw [parent?, settled_eq_nil.mpr (active_pieces r ▸ hr), hl]
      rfl
    rw [hnone hp hb, hnone hq (h ▸ hb)]
  · obtain ⟨p', hp', hlead, hbody⟩ := exists_parent hb
    obtain ⟨q', hq', hlead', hbody'⟩ := exists_parent (h ▸ hb)
    rw [hp', hq', Option.map_some, Option.map_some, Option.some_inj, components_inj, hlead, hlead', hbody,
      hbody', h, hp, hq]
    exact ⟨rfl, rfl⟩

/-! ### The file name -/

/-- The name that a component is, if it is one. -/
def Component.name? : Component → Option Text
  | .name t => some t
  | _ => none

/-- A piece is how its component is spelled. -/
theorem text_component (piece : Text) : (component piece).text = piece := by
  rw [component]
  split
  · rename_i h
    exact h.symm
  · rfl

/-- The file name is the last component. -/
theorem fileName?_eq (p : Path) : p.fileName? = p.body.getLast?.bind Component.name? := by
  by_cases hb : p.body = []
  · rw [fileName?, settled_eq_nil.mpr (active_pieces p ▸ hb), hb]
    rfl
  · obtain ⟨init, t, rest, hs, -, -, ha⟩ := exists_settled (active_pieces p ▸ hb)
    rw [active_pieces] at ha
    rw [fileName?, hs, ha, List.getLast?_concat, List.getLast?_concat, Option.bind_some, component]
    dsimp only
    split <;> rfl

theorem body_ne_nil_of_fileName? {p : Path} {n : Text} (h : p.fileName? = some n) : p.body ≠ [] := by
  intro hnil
  rw [fileName?_eq, hnil] at h
  cases h

/-- A file name is a piece that names something. -/
theorem piece_of_fileName? {p : Path} {n : Text} (h : p.fileName? = some n) :
    idle n = false ∧ n ≠ ['.', '.'] ∧ '/' ∉ n := by
  rw [fileName?_eq, Option.bind_eq_some_iff] at h
  obtain ⟨c, hlast, hc⟩ := h
  obtain ⟨piece, hpiece, rfl⟩ := List.mem_map.mp (List.mem_of_getLast? hlast)
  obtain ⟨hmem, hidle⟩ := List.mem_filter.mp hpiece
  obtain ⟨hup, rfl⟩ : piece ≠ ['.', '.'] ∧ piece = n := by
    rw [component] at hc
    split at hc
    · cases hc
    · exact ⟨‹_›, Option.some.inj hc⟩
  exact ⟨by simpa using hidle, hup, not_mem_of_mem_slashed hmem⟩

/-- A file name, taken for a path, is that name. -/
theorem body_of_fileName? {p : Path} {n : Text} (h : p.fileName? = some n) :
    Path.body ⟨n⟩ = [.name n] ∧ Path.lead ⟨n⟩ ≠ .root := by
  obtain ⟨hidle, hup, hslash⟩ := piece_of_fileName? h
  have hone : slashed n = [n] :=
    Text.split_of_none fun _ hc hd => hslash (of_decide_eq_true hd ▸ hc)
  have hkept : [n].filter (fun piece => !idle piece) = [n] := List.filter_cons_of_pos (by simp [hidle])
  refine ⟨?_, fun hroot => ?_⟩
  · rw [body, hone, hkept, List.map_singleton, component, if_neg hup]
  · obtain ⟨rest, rfl⟩ := lead_eq_root.mp hroot
    exact hslash List.mem_cons_self

/-- A path that ends with a name has it for its file name. -/
theorem fileName?_of_components {p : Path} {cs : List Component} {n : Text}
    (h : p.components = cs ++ [.name n]) : p.fileName? = some n := by
  have hlast : p.components.getLast? = some (.name n) := by rw [h, List.getLast?_concat]
  rw [components_eq] at hlast
  rw [fileName?_eq]
  by_cases hb : p.body = []
  · rw [hb, List.append_nil] at hlast
    cases hl : p.lead <;> simp [hl, Lead.components] at hlast
  · rw [List.getLast?_append_of_ne_nil _ hb] at hlast
    rw [hlast]
    rfl

/-- **A path with a file name** consists of its parent and that name. -/
theorem components_of_parent? {p dir : Path} {n : Text} (hn : p.fileName? = some n) :
    p.parent?.any (·.same dir) ↔ p.components = dir.components ++ [.name n] := by
  obtain ⟨c, hc, hcn⟩ : ∃ c, p.body.getLast? = some c ∧ c.name? = some n := by
    rw [fileName?_eq] at hn
    exact Option.bind_eq_some_iff.mp hn
  obtain rfl : c = .name n := by
    cases c <;> simp_all [Component.name?]
  obtain ⟨init, hinit⟩ := List.getLast?_eq_some_iff.mp hc
  obtain ⟨q, hq, hlead, hbody⟩ := exists_parent (p := p) (by simp [hinit])
  have hcomponents : p.components = q.components ++ [.name n] := by
    rw [components_eq, components_eq q, hlead, hbody, hinit, List.dropLast_concat, List.append_assoc]
  rw [hq, Option.any_some, same, beq_iff_eq, hcomponents, List.append_left_inj]

/-- Two spellings of one path have one file name. -/
theorem fileName?_of_same {p q : Path} (h : p.same q) : p.fileName? = q.fileName? := by
  rw [fileName?_eq, fileName?_eq, (components_inj.mp (eq_of_beq h)).2]

/-- **Two paths with file names are one path** just if they lie in one directory and the names are equal. -/
theorem same_iff_parent? {p q : Path} {m n : Text} (hp : p.fileName? = some m) (hq : q.fileName? = some n) :
    p.same q ↔ p.parent?.map components = q.parent?.map components ∧ m = n := by
  obtain ⟨dir, hdir, -, -⟩ := exists_parent (body_ne_nil_of_fileName? hp)
  obtain ⟨place, hplace, -, -⟩ := exists_parent (body_ne_nil_of_fileName? hq)
  have hcp : p.components = dir.components ++ [.name m] :=
    (components_of_parent? hp).mp (by rw [hdir, Option.any_some, same, beq_self_eq_true])
  have hcq : q.components = place.components ++ [.name n] :=
    (components_of_parent? hq).mp (by rw [hplace, Option.any_some, same, beq_self_eq_true])
  rw [same, beq_iff_eq, hcp, hcq, hdir, hplace, Option.map_some, Option.map_some, Option.some_inj]
  constructor
  · intro h
    obtain ⟨hc, hname⟩ := List.append_inj' h rfl
    exact ⟨hc, by simpa using hname⟩
  · rintro ⟨hc, rfl⟩
    rw [hc]

end Path

end BuildMender
