import BuildMender.Host.Raw

/-!
# Options of programs

The words a program is called with are options and operands. A short option is one letter behind a
minus sign, and several may share one; a long option is a name behind two, of which a beginning is
enough that fits no other. An option may take a value, which is the rest of its word or the next word.
Options may stand after operands; a word of two minus signs ends them.

The options are read one after the other, and the reading ends at the first that is wrong.
-/

namespace BuildMender.Host

/-- Whether an option takes a value. -/
inductive Takes where
  | nothing
  | value
  /-- A value only in the same word. -/
  | inside
deriving DecidableEq, Inhabited

/-- The options a program knows. A long option has the key of the short one that means the same, or its
own name. -/
structure OptionTable where
  short : List (Char × Takes) := []
  long : List (Text × Takes × Text) := []
deriving Inhabited

/-- An option that was given, or what is wrong with it. -/
inductive Given where
  | option (key : Text) (value : Option Raw)
  | wrong (message : Raw)
deriving DecidableEq, Inhabited

namespace OptionTable

/-- The table of short options spelled as letters, with a colon behind those that take values, and of
long options. -/
def make (letters : Text) (long : List (String × Takes × String)) : OptionTable where
  short := ofLetters letters
  long := long.map fun (n, t, k) => (n.toList, t, k.toList)
where
  /-- The short options spelled as letters. -/
  ofLetters : Text → List (Char × Takes)
    | c :: ':' :: more => (c, .value) :: ofLetters more
    | c :: more => (c, .nothing) :: ofLetters more
    | [] => []

/-- What is said of a long option. -/
def aboutLong (written : Raw) (t : String) : Raw := "option '--" ++ written ++ "' " ++ t.toList

/-- The long options that a name fits: the one it spells, or all that begin with it. -/
def fitting (o : OptionTable) (name : Raw) : List (Text × Takes × Text) :=
  match o.long.find? fun l => l.1 == name with
  | some l => [l]
  | none => o.long.filter fun l => Text.startsWith name l.1

/-- A long option and the words after it. -/
def readLong (o : OptionTable) (word : Raw) (more : List Raw) : Given × List Raw :=
  let name := word.takeWhile (· ≠ '=')
  let value : Option Raw := match word.dropWhile (· ≠ '=') with
    | _ :: v => some v
    | [] => none
  match o.fitting name with
  | [] => (.wrong ("unrecognized option '--" ++ word ++ "'"), more)
  | l :: ls =>
    let (full, takes, key) := l
    let others := ls.filter fun l' => l'.2 != l.2
    if !others.isEmpty then
      (.wrong (aboutLong word "is ambiguous; possibilities:" ++
        (l :: others).flatMap fun l => " '--".toList ++ l.1 ++ ['\x27']), more)
    else
      match takes, value with
      | .nothing, none => (.option key none, more)
      | .nothing, some _ => (.wrong (aboutLong full "doesn't allow an argument"), more)
      | _, some v => (.option key (some v), more)
      | .inside, none => (.option key none, more)
      | .value, none =>
        match more with
        | v :: more => (.option key (some v), more)
        | [] => (.wrong (aboutLong full "requires an argument"), [])

/-- The short options of a word and the words after it. -/
def readShort (o : OptionTable) : Raw → List Raw → List Given × List Raw
  | [], more => ([], more)
  | c :: cs, more =>
    match o.short.lookup c with
    | none => ([.wrong ("invalid option -- '" ++ [c] ++ "'")], more)
    | some .nothing =>
      let (gs, more) := readShort o cs more
      (.option [c] none :: gs, more)
    | some .inside => ([.option [c] (if cs.isEmpty then none else some cs)], more)
    | some .value =>
      if !cs.isEmpty then ([.option [c] (some cs)], more)
      else
        match more with
        | v :: more => ([.option [c] (some v)], more)
        | [] => ([.wrong ("option requires an argument -- '" ++ [c] ++ "'")], [])

theorem length_readLong_le (o : OptionTable) (w : Raw) (more : List Raw) :
    (o.readLong w more).2.length ≤ more.length := by
  unfold readLong
  simp only []
  split
  · simp
  · split
    · simp
    · split <;> try simp
      cases more <;> simp

theorem length_readShort_le (o : OptionTable) (w : Raw) (more : List Raw) :
    (o.readShort w more).2.length ≤ more.length := by
  induction w with
  | nil => simp [readShort]
  | cons c cs ih =>
    unfold readShort
    split
    · simp
    · simpa using ih
    · simp
    · split
      · simp
      · cases more <;> simp

/-- **The options and the operands of some words.** -/
def read (o : OptionTable) : List Raw → List Given × List Raw
  | [] => ([], [])
  | w :: more =>
    match w with
    | ['-', '-'] => ([], more)
    | '-' :: '-' :: name =>
      let (gs, operands) := read o (o.readLong name more).2
      ((o.readLong name more).1 :: gs, operands)
    | '-' :: c :: cs =>
      let (gs, operands) := read o (o.readShort (c :: cs) more).2
      ((o.readShort (c :: cs) more).1 ++ gs, operands)
    | w =>
      let (gs, operands) := read o more
      (gs, w :: operands)
termination_by ws => ws.length
decreasing_by
  · have := length_readLong_le o name more
    simp
    omega
  · have := length_readShort_le o (c :: cs) more
    simp
    omega
  · simp

end OptionTable

end BuildMender.Host
