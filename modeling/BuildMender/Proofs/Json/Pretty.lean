import BuildMender.Json.Reader
import BuildMender.Json.Writer
import BuildMender.Proofs.Text.Class
import Mathlib.Data.List.TakeWhile

/-!
# JSON read back

What `BuildMender.Json.pretty` writes, `BuildMender.Json.parse` reads back
(`BuildMender.Json.parse_pretty`), for every value that stands for something. The two things the proof has to
arrange are that a reader knows where to stop, and that its fuel lasts.

* **Where to stop.** Each reader is shown to read one written thing with *any* text behind it. Only a number
  has no end of its own: it must not be followed by what could be more of it
  (`BuildMender.Json.IsStop`), and nothing that is written behind a value could be.
* **The fuel.** A value needs no more fuel than it has characters, and the items or fields inside a bracket
  no more than they and the bracket have.
-/

namespace BuildMender.Json

open Text

variable {c : Char} {t rest : Text} {n level fuel : Nat}

/-! ### Strings -/

/-- How a character is read back: as a unit if it is written by its number. -/
def pieceOf (c : Char) : Piece :=
  if (shortEscapes.lookup c).isNone ∧ c.toNat < 32 then .unit c.toNat else .char c

theorem hexValue?_hexDigit : ∀ n < 16, hexValue? (hexDigit n) = some n := by decide

/-- The letter of an escape stands for its character, and never opens an escape by number. -/
theorem shortEscape?_of_mem : ∀ e ∈ shortEscapes, e.2 ≠ 'u' ∧ shortEscape? e.2 = some e.1 := by decide

theorem mem_of_lookup {letter : Char} (h : shortEscapes.lookup c = some letter) :
    (c, letter) ∈ shortEscapes := by
  obtain ⟨before, after, hsplit, -⟩ := List.lookup_eq_some_iff.mp h
  rw [hsplit]
  simp

/-- A character is read back from the way it is written, as one piece. -/
theorem pieces?_escapeChar (c : Char) (rest : Text) : pieces? (escapeChar c ++ rest) =
    (pieces? rest).map fun p => (pieceOf c :: p.1, p.2) := by
  cases hlookup : shortEscapes.lookup c with
  | some letter =>
    -- written with a letter, which is not the one that announces a number
    obtain ⟨hletter, hescape⟩ := shortEscape?_of_mem _ (mem_of_lookup hlookup)
    have hpiece : pieceOf c = .char c := by simp [pieceOf, hlookup]
    simp only [escapeChar, hlookup, List.cons_append, List.nil_append]
    rw [pieces?.eq_4 _ _ fun _ _ _ _ _ h => absurd h hletter, hescape, hpiece]
    cases pieces? rest <;> rfl
  | none =>
    by_cases hcontrol : c.toNat < 32
    · -- written by its number, of which the first two digits are always zero
      have hpiece : pieceOf c = .unit c.toNat := by simp [pieceOf, hlookup, hcontrol]
      have hunit : unit? '0' '0' (hexDigit (c.toNat / 16)) (hexDigit (c.toNat % 16)) = some c.toNat := by
        rw [unit?, hexValue?_hexDigit _ (by omega), hexValue?_hexDigit _ (by omega)]
        exact congrArg some (by change 0 * 4096 + 0 * 256 + c.toNat / 16 * 16 + c.toNat % 16 = c.toNat; omega)
      simp only [escapeChar, hlookup, if_pos hcontrol, List.cons_append, List.nil_append]
      rw [pieces?.eq_3, hunit, hpiece]
      cases pieces? rest <;> rfl
    · -- written as it is: a quote or a backslash would have had a letter
      have hpiece : pieceOf c = .char c := by simp [pieceOf, hcontrol]
      have hquote : c ≠ '"' := by
        rintro rfl
        exact absurd hlookup (by decide)
      have hslash : c ≠ '\\' := by
        rintro rfl
        exact absurd hlookup (by decide)
      simp only [escapeChar, hlookup, if_neg hcontrol, List.cons_append, List.nil_append]
      rw [pieces?.eq_5 c rest hquote (fun _ _ _ _ _ h => absurd h hslash) (fun _ _ h => absurd h hslash),
        if_neg (not_or.mpr ⟨hcontrol, hslash⟩), hpiece]
      cases pieces? rest <;> rfl

theorem pieces?_flatMap (t rest : Text) :
    pieces? (t.flatMap escapeChar ++ '"' :: rest) = some (t.map pieceOf, rest) := by
  induction t with
  | nil => rfl
  | cons c t ih => rw [List.flatMap_cons, List.append_assoc, pieces?_escapeChar, ih]; rfl

theorem textOf?_map (t : Text) : textOf? (t.map pieceOf) = some t := by
  induction t with
  | nil => rfl
  | cons c t ih =>
    rw [List.map_cons, pieceOf]
    split
    · -- the number of a control character is no half of a pair
      rename_i h
      have hhigh : isHigh c.toNat = false := by simp [isHigh]; omega
      have hlow : isLow c.toNat = false := by simp [isLow]; omega
      rw [textOf?.eq_def]
      simp [hhigh, hlow, ih, Char.ofNat_toNat]
    · rw [textOf?, ih]
      rfl

/-! ### Numbers -/

/-- What can follow a number: nothing that could be more of it. -/
def IsStop (rest : Text) : Prop :=
  ∀ c ∈ rest.head?, isAsciiDigit c = false ∧ c ≠ '.' ∧ c ≠ 'e' ∧ c ≠ 'E'

theorem isStop_nil : IsStop [] := fun _ h => by cases h

theorem digitRun_append (ht : ∀ c ∈ t, isAsciiDigit c) (hrest : IsStop rest) :
    digitRun (t ++ rest) = (t, rest) := by
  have hstop : ∀ c ∈ rest.head?, isAsciiDigit c = false := fun c hc => (hrest c hc).1
  rw [digitRun, List.takeWhile_append_of_pos ht, List.dropWhile_append_of_pos ht]
  cases rest with
  | nil => simp
  | cons c rest => simp [hstop c rfl]

theorem fraction?_of_isStop (h : IsStop rest) : fraction? rest = some (false, rest) := by
  cases rest with
  | nil => rfl
  | cons c rest =>
    rw [fraction?]
    rintro r ⟨⟩
    exact (h '.' rfl).2.1 rfl

theorem exponent?_of_isStop (h : IsStop rest) : exponent? rest = some (false, rest) := by
  cases rest with
  | nil => rfl
  | cons c rest =>
    obtain ⟨-, -, he, hE⟩ := h c rfl
    rw [exponent?.eq_def]
    exact if_neg (not_or.mpr ⟨he, hE⟩)

/-- A numeral does not begin with a zero, unless it is that of zero. -/
theorem head?_decimal (hn : 0 < n) : (decimal n).head? ≠ some '0' := by
  induction n using Nat.strong_induction_on with
  | _ n ih =>
  have hsmall : ∀ d < 10, 0 < d → [d.digitChar].head? ≠ some '0' := by decide
  by_cases hlt : n < 10
  · rw [decimal, Nat.toDigits_of_lt_base hlt]
    exact hsmall n hlt hn
  · -- the first digit is that of a smaller number
    have hsplit : decimal n = decimal (n / 10) ++ [(n % 10).digitChar] :=
      Nat.toDigits_of_base_le (by decide) (Nat.le_of_not_lt hlt)
    rw [hsplit, List.head?_append_of_ne_nil _ (decimal_ne_nil _)]
    exact ih (n / 10) (by omega) (by omega)

theorem integerOf_decimal (negative : Bool) (h : negative → 0 < n) :
    integerOf negative (decimal n) = .number (if negative then -n else n) := by
  have hvalue : digitsFrom 0 (decimal n) = some n := by
    rw [digitsFrom_eq fun _ => isAsciiDigit_of_mem_decimal, decimal, Nat.ofDigitChars_ten_toDigits]
  rw [integerOf, hvalue]
  cases negative with
  | false => rfl
  | true => exact if_neg (Nat.pos_iff_ne_zero.mp (h rfl))

/-- **A number is read back**, if nothing follows that could be more of it. -/
theorem number?_integer (z : Int) (hrest : IsStop rest) :
    number? (integer z ++ rest) = some (.number z, rest) := by
  have hdigits : ∀ m, ∀ c ∈ decimal m, isAsciiDigit c := fun m c => isAsciiDigit_of_mem_decimal
  have hleading : ∀ m, ¬((decimal m).isEmpty ∨ (decimal m).head? = some '0' ∧ (decimal m).length ≠ 1) := by
    intro m
    rw [not_or, List.isEmpty_iff]
    refine ⟨decimal_ne_nil m, fun ⟨hhead, hlength⟩ => ?_⟩
    rcases Nat.eq_zero_or_pos m with rfl | hm
    · exact hlength rfl
    · exact head?_decimal hm hhead
  cases z with
  | ofNat m =>
    have hsign : ∀ r, decimal m ++ rest = '-' :: r → False := by
      intro r hr
      obtain ⟨c, cs, hcs⟩ := List.exists_cons_of_ne_nil (decimal_ne_nil m)
      rw [hcs] at hr
      have hc : isAsciiDigit c := hdigits m c (hcs ▸ List.mem_cons_self)
      obtain rfl : c = '-' := (List.cons.inj hr).1
      exact absurd hc (by decide)
    refine (number?.eq_2 _ hsign).trans ?_
    simp only [digitRun_append (hdigits m) hrest, if_neg (hleading m), fraction?_of_isStop hrest,
      Option.bind_eq_bind, Option.bind_some, exponent?_of_isStop hrest, integerOf_decimal false (by simp)]
    rfl
  | negSucc m =>
    refine (number?.eq_1 (decimal (m + 1) ++ rest)).trans ?_
    simp only [digitRun_append (hdigits (m + 1)) hrest, if_neg (hleading (m + 1)), fraction?_of_isStop hrest,
      Option.bind_eq_bind, Option.bind_some, exponent?_of_isStop hrest,
      integerOf_decimal true fun _ => Nat.succ_pos m]
    rfl

/-! ### White space -/

@[simp] theorem skipSpace_cons_of_not (h : isSpace c = false) (t : Text) : skipSpace (c :: t) = c :: t := by
  simp [skipSpace, h]

theorem skipSpace_append (h : ∀ c ∈ t, isSpace c) (rest : Text) : skipSpace (t ++ rest) = skipSpace rest :=
  List.dropWhile_append_of_pos h

theorem isSpace_of_mem_newline (h : c ∈ newline level) : isSpace c := by
  rcases List.mem_cons.mp h with rfl | h
  · decide
  · obtain ⟨blanks, hblanks, hc⟩ := List.mem_flatten.mp h
    rw [List.eq_of_mem_replicate hblanks] at hc
    have hspaces : ∀ d ∈ ("  " : Text), isSpace d := List.all_eq_true.mp (by decide)
    exact hspaces c hc

theorem value?_append (h : ∀ c ∈ t, isSpace c) (fuel : Nat) (rest : Text) :
    value? fuel (t ++ rest) = value? fuel rest := by
  cases fuel with
  | zero => rw [value?, value?]
  | succ fuel => rw [value?, value?, skipSpace_append h]

theorem items?_append (h : ∀ c ∈ t, isSpace c) (fuel : Nat) (rest : Text) :
    items? fuel (t ++ rest) = items? fuel rest := by
  cases fuel with
  | zero => rw [items?, items?]
  | succ fuel => rw [items?, items?, value?_append h]

theorem fields?_append (h : ∀ c ∈ t, isSpace c) (fuel : Nat) (rest : Text) :
    fields? fuel (t ++ rest) = fields? fuel rest := by
  cases fuel with
  | zero => rw [fields?, fields?]
  | succ fuel => rw [fields?, fields?, skipSpace_append h]

/-! ### One item, one field -/

/-- The last item of an array. -/
theorem items?_last {w : Text} {j : Json} (hvalue : value? fuel t = some (j, w ++ ']' :: rest))
    (hw : ∀ c ∈ w, isSpace c) : items? (fuel + 1) t = some ([j], rest) := by
  rw [items?, hvalue]
  simp only [Option.bind_eq_bind, Option.bind_some, skipSpace_append hw, skipSpace_cons_of_not (c := ']') rfl]
  rfl

/-- An item that is followed by others. -/
theorem items?_more {r : Text} {j : Json} {js : List Json} (hvalue : value? fuel t = some (j, ',' :: r))
    (hmore : items? fuel r = some (js, rest)) : items? (fuel + 1) t = some (j :: js, rest) := by
  rw [items?, hvalue]
  simp only [Option.bind_eq_bind, Option.bind_some, skipSpace_cons_of_not (c := ',') rfl, hmore]
  rfl

theorem quoted_append (t rest : Text) : quoted t ++ rest = '"' :: (t.flatMap escapeChar ++ '"' :: rest) := by
  simp [quoted]

/-- The last field of an object. -/
theorem fields?_last {name w : Text} {j : Json} (hvalue : value? fuel t = some (j, w ++ '\x7d' :: rest))
    (hw : ∀ c ∈ w, isSpace c) :
    fields? (fuel + 1) (quoted name ++ ':' :: t) = some ([(some name, j)], rest) := by
  rw [fields?, quoted_append, skipSpace_cons_of_not rfl]
  simp only [pieces?_flatMap, Option.bind_eq_bind, Option.bind_some, skipSpace_cons_of_not (c := ':') rfl,
    textOf?_map, hvalue, skipSpace_append hw, skipSpace_cons_of_not (c := '\x7d') rfl]
  rfl

/-- A field that is followed by others. -/
theorem fields?_more {name r : Text} {j : Json} {fs : List (Option Text × Json)}
    (hvalue : value? fuel t = some (j, ',' :: r)) (hmore : fields? fuel r = some (fs, rest)) :
    fields? (fuel + 1) (quoted name ++ ':' :: t) = some ((some name, j) :: fs, rest) := by
  rw [fields?, quoted_append, skipSpace_cons_of_not rfl]
  simp only [pieces?_flatMap, Option.bind_eq_bind, Option.bind_some, skipSpace_cons_of_not (c := ':') rfl,
    textOf?_map, hvalue, skipSpace_cons_of_not (c := ',') rfl, hmore]
  rfl

/-! ### Values -/

/-- **A value that stands for something**, and so does all that is in it. -/
inductive IsReadable : Json → Prop
  | null : IsReadable .null
  | bool (b : Bool) : IsReadable (.bool b)
  | number (z : Int) : IsReadable (.number z)
  | string (t : Text) : IsReadable (.string t)
  | array {items : List Json} (h : ∀ j ∈ items, IsReadable j) : IsReadable (.array items)
  | object {fields : List (Text × Json)} (h : ∀ f ∈ fields, IsReadable f.2) : IsReadable (.object fields)

/-- With this much fuel a value is read back, if it is not longer than that. -/
def ReadsBack (fuel : Nat) : Prop :=
  ∀ (j : Json) (level : Nat) (rest : Text), j.IsReadable → (prettyAt level j).length ≤ fuel → IsStop rest →
    value? fuel (prettyAt level j ++ rest) = some (j, rest)

theorem isStop_newline (level : Nat) (rest : Text) : IsStop (newline level ++ rest) := by
  rintro c ⟨⟩
  decide

theorem isStop_comma (rest : Text) : IsStop (',' :: rest) := by
  rintro c ⟨⟩
  decide

/-- The items of an array with the bracket that closes it. -/
theorem items?_itemsAt (outer level : Nat) {j : Json} {js : List Json} (h : ∀ m < fuel, ReadsBack m)
    (hj : j.IsReadable) (hjs : ∀ j ∈ js, j.IsReadable)
    (hlength : (prettyAt level j ++ itemsAt level js).length < fuel) (rest : Text) :
    items? fuel (prettyAt level j ++ (itemsAt level js ++ (newline outer ++ ']' :: rest))) =
      some (j :: js, rest) := by
  induction js generalizing j fuel with
  | nil =>
    obtain ⟨fuel, rfl⟩ : ∃ f, fuel = f + 1 := ⟨fuel - 1, by omega⟩
    rw [itemsAt, List.append_nil] at hlength
    exact items?_last (h fuel (Nat.lt_succ_self fuel) j level _ hj (by omega) (isStop_newline outer _))
      fun _ => isSpace_of_mem_newline
  | cons j' js ih =>
    obtain ⟨fuel, rfl⟩ : ∃ f, fuel = f + 1 := ⟨fuel - 1, by omega⟩
    obtain ⟨hj', hjs⟩ := List.forall_mem_cons.mp hjs
    simp only [itemsAt, List.length_append, List.append_assoc] at hlength
    have hcomma : (("," : Text)).length = 1 := rfl
    have hmore := ih (fun m (hm : m < fuel) => h m (by omega)) hj' hjs
      (by rw [List.length_append]; omega)
    rw [← items?_append (t := newline level) fun _ => isSpace_of_mem_newline] at hmore
    have hvalue := h fuel (Nat.lt_succ_self fuel) j level _ hj (by omega) (isStop_comma (newline level ++
      (prettyAt level j' ++ (itemsAt level js ++ (newline outer ++ ']' :: rest)))))
    rw [← items?_more hvalue hmore]
    simp [itemsAt]

/-- The fields of an object with the brace that closes it. -/
theorem fields?_fieldsAt (outer level : Nat) {f : Text × Json} {fs : List (Text × Json)}
    (h : ∀ m < fuel, ReadsBack m) (hf : f.2.IsReadable) (hfs : ∀ f ∈ fs, f.2.IsReadable)
    (hlength : (prettyAt level f.2 ++ fieldsAt level fs).length < fuel) (rest : Text) :
    fields? fuel (quoted f.1 ++ ':' :: ' ' :: (prettyAt level f.2 ++
      (fieldsAt level fs ++ (newline outer ++ '\x7d' :: rest)))) =
      some ((f :: fs).map fun f => (some f.1, f.2), rest) := by
  have hspace : ∀ c ∈ [' '], isSpace c := List.all_eq_true.mp rfl
  induction fs generalizing f fuel with
  | nil =>
    obtain ⟨fuel, rfl⟩ : ∃ f, fuel = f + 1 := ⟨fuel - 1, by omega⟩
    rw [fieldsAt, List.append_nil] at hlength
    have hvalue := h fuel (Nat.lt_succ_self fuel) f.2 level _ hf (by omega)
      (isStop_newline outer ('\x7d' :: rest))
    rw [← value?_append hspace] at hvalue
    exact fields?_last hvalue fun _ => isSpace_of_mem_newline
  | cons f' fs ih =>
    obtain ⟨fuel, rfl⟩ : ∃ f, fuel = f + 1 := ⟨fuel - 1, by omega⟩
    obtain ⟨hf', hfs⟩ := List.forall_mem_cons.mp hfs
    simp only [fieldsAt, List.length_append, List.append_assoc] at hlength
    have hcomma : (("," : Text)).length = 1 := rfl
    have hmore := ih (fun m (hm : m < fuel) => h m (by omega)) hf' hfs
      (by rw [List.length_append]; omega)
    rw [← fields?_append (t := newline level) fun _ => isSpace_of_mem_newline] at hmore
    have hvalue := h fuel (Nat.lt_succ_self fuel) f.2 level _ hf (by omega) (isStop_comma (newline level ++
      (quoted f'.1 ++ ':' :: ' ' :: (prettyAt level f'.2 ++
        (fieldsAt level fs ++ (newline outer ++ '\x7d' :: rest))))))
    rw [← value?_append hspace] at hvalue
    rw [List.map_cons, ← fields?_more hvalue hmore]
    simp [fieldsAt]

theorem ofNamed_map (fs : List (Text × Json)) : ofNamed (fs.map fun f => (some f.1, f.2)) = .object fs := by
  have hnames : (fs.map fun f => ((some f.1 : Option Text), f.2)).mapM
      (fun f => f.1.map fun n => (n, f.2)) = some fs := by
    induction fs with
    | nil => rfl
    | cons f fs ih => rw [List.map_cons, List.mapM_cons, ih]; rfl
  rw [ofNamed, hnames]

/-- What an integer begins with. -/
theorem exists_integer (z : Int) : ∃ c cs, integer z = c :: cs ∧ (c = '-' ∨ isAsciiDigit c) := by
  cases z with
  | ofNat n =>
    obtain ⟨c, cs, hcs⟩ := List.exists_cons_of_ne_nil (decimal_ne_nil n)
    exact ⟨c, cs, hcs, Or.inr (isAsciiDigit_of_mem_decimal (hcs ▸ List.mem_cons_self))⟩
  | negSucc n => exact ⟨'-', _, rfl, Or.inl rfl⟩

/-- No other value begins the way an integer does. -/
theorem ne_of_integer {d : Char} (hc : c = '-' ∨ isAsciiDigit c) (hd : d ≠ '-' ∧ isAsciiDigit d = false) :
    c ≠ d := by
  rintro rfl
  rcases hc with rfl | hc
  · exact hd.1 rfl
  · exact absurd hc (by simp [hd.2])

theorem isSpace_of_integer (hc : c = '-' ∨ isAsciiDigit c) : isSpace c = false := by
  simp [isSpace, ne_of_integer hc (d := ' ') (by decide), ne_of_integer hc (d := '\t') (by decide),
    ne_of_integer hc (d := '\n') (by decide), ne_of_integer hc (d := '\r') (by decide)]

theorem value?_number (hc : c = '-' ∨ isAsciiDigit c) (t : Text) :
    value? (fuel + 1) (c :: t) = number? (c :: t) := by
  have hword {pat : Text} {d : Char} (hpat : pat.head? = some d) (hd : d ≠ '-' ∧ isAsciiDigit d = false) :
      after? pat (c :: t) = none := after?_cons_of_ne hpat (ne_of_integer hc hd) t
  rw [value?, skipSpace_cons_of_not (isSpace_of_integer hc)]
  -- the readers of the other values ask for a first character that this is not
  split
  · rename_i h
    exact absurd (List.cons.inj h).1 (ne_of_integer hc (by decide))
  · rename_i h
    exact absurd (List.cons.inj h).1 (ne_of_integer hc (by decide))
  · rename_i h
    exact absurd (List.cons.inj h).1 (ne_of_integer hc (by decide))
  · rw [hword (d := 'n') rfl (by decide), hword (d := 't') rfl (by decide), hword (d := 'f') rfl (by decide)]

/-- What a value begins with: no white space, and no bracket that closes an array. -/
def BeginsValue (t : Text) : Prop := ∃ c cs, t = c :: cs ∧ isSpace c = false ∧ c ≠ ']'

theorem BeginsValue.append (h : BeginsValue t) (rest : Text) : BeginsValue (t ++ rest) := by
  obtain ⟨c, cs, rfl, hc⟩ := h
  exact ⟨c, cs ++ rest, rfl, hc⟩

theorem beginsValue_prettyAt (level : Nat) (j : Json) : BeginsValue (prettyAt level j) := by
  cases j with
  | null => exact ⟨'n', _, rfl, by decide⟩
  | bool b => cases b <;> exact ⟨_, _, rfl, by decide⟩
  | number z =>
    obtain ⟨c, cs, hcs, hc⟩ := exists_integer z
    exact ⟨c, cs, hcs, isSpace_of_integer hc, ne_of_integer hc (by decide)⟩
  | string t => exact ⟨'"', _, rfl, by decide⟩
  | array js => cases js <;> exact ⟨'[', _, rfl, by decide⟩
  | object fs => rcases fs with _ | ⟨⟨name, j⟩, fs⟩ <;> exact ⟨'\x7b', _, rfl, by decide⟩
  | unreadable => exact ⟨'n', _, rfl, by decide⟩

/-! ### Brackets -/

/-- An array with items. -/
theorem value?_array (level : Nat) {js : List Json} {r : Text} (hr : BeginsValue r)
    (hitems : items? fuel r = some (js, rest)) :
    value? (fuel + 1) ('[' :: (newline level ++ r)) = some (.array js, rest) := by
  obtain ⟨c, cs, rfl, hspace, hc⟩ := hr
  rw [value?, skipSpace_cons_of_not rfl]
  simp only [skipSpace_append fun c (hc : c ∈ newline level) => isSpace_of_mem_newline hc,
    skipSpace_cons_of_not hspace]
  split
  · rename_i h
    exact absurd (List.cons.inj h).1 hc
  · rw [hitems]
    rfl

/-- An object with fields. -/
theorem value?_object (level : Nat) {name r : Text} {fs : List (Text × Json)}
    (hfields : fields? fuel (quoted name ++ r) = some (fs.map fun f => (some f.1, f.2), rest)) :
    value? (fuel + 1) ('\x7b' :: (newline level ++ (quoted name ++ r))) = some (.object fs, rest) := by
  rw [value?, skipSpace_cons_of_not rfl]
  simp only [skipSpace_append fun c (hc : c ∈ newline level) => isSpace_of_mem_newline hc]
  rw [quoted_append] at hfields ⊢
  rw [skipSpace_cons_of_not rfl]
  change (fields? fuel _).map (fun p => (ofNamed p.1, p.2)) = _
  rw [hfields, Option.map_some, ofNamed_map]

/-- **A value is read back** with as much fuel as it has characters, whatever stands behind it. -/
theorem readsBack (fuel : Nat) : ReadsBack fuel := by
  induction fuel using Nat.strong_induction_on with
  | _ fuel ih =>
  intro j level rest hj hlength hrest
  -- one unit of fuel goes to the value itself, and what it holds is shorter by its brackets
  obtain ⟨fuel, rfl⟩ : ∃ f, fuel = f + 1 := by
    obtain ⟨c, cs, hcs, -⟩ := beginsValue_prettyAt level j
    rw [hcs, List.length_cons] at hlength
    exact ⟨fuel - 1, by omega⟩
  have ih : ∀ m < fuel, ReadsBack m := fun m hm => ih m (Nat.lt_succ_of_lt hm)
  have hlevel : 0 < (newline level).length := Nat.succ_pos _
  have hnext : 0 < (newline (level + 1)).length := Nat.succ_pos _
  cases hj with
  | null => rfl
  | bool b => cases b <;> rfl
  | number z =>
    obtain ⟨c, cs, hcs, hc⟩ := exists_integer z
    have hread := number?_integer z hrest
    rw [hcs] at hread
    rw [prettyAt, hcs, List.cons_append, value?_number hc]
    exact hread
  | string t =>
    rw [prettyAt, value?, quoted_append, skipSpace_cons_of_not rfl]
    simp [pieces?_flatMap, textOf?_map]
  | @array js hitems =>
    cases js with
    | nil => rfl
    | cons j js =>
      obtain ⟨hj, hjs⟩ := List.forall_mem_cons.mp hitems
      simp only [prettyAt, List.length_append] at hlength
      have hread := items?_itemsAt level (level + 1) ih hj hjs
        (by rw [List.length_append]; omega) rest
      rw [← value?_array (level + 1) ((beginsValue_prettyAt (level + 1) j).append _) hread]
      simp [prettyAt]
  | @object fs hfields =>
    rcases fs with _ | ⟨⟨name, j⟩, fs⟩
    · rfl
    · obtain ⟨hj, hfs⟩ := List.forall_mem_cons.mp hfields
      simp only [prettyAt, List.length_append] at hlength
      have hread := fields?_fieldsAt level (level + 1) (f := (name, j)) ih hj hfs
        (by rw [List.length_append]; dsimp only; omega) rest
      rw [← value?_object (level + 1) hread]
      simp [prettyAt]

/-- **What is written is read back.** -/
theorem parse_pretty {j : Json} (h : j.IsReadable) : parse (pretty j) = some j := by
  have hread := readsBack (2 * (pretty j).length + 2) j 0 [] h (by rw [pretty]; omega) isStop_nil
  rw [List.append_nil, ← pretty] at hread
  rw [parse, hread]
  rfl

end BuildMender.Json
