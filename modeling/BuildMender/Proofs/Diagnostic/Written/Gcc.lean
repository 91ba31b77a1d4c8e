import BuildMender.Proofs.Diagnostic.Written.Piece
import BuildMender.Proofs.Path.Normalize

/-!
# Lines in the style of GCC, read back

A compiler in the style of GCC writes `file:line:column: severity: message`, where the column may be
missing. All pieces but the message end at a colon, and a colon is also what a drive's letter ends at, so
the colons have to fall where they should:

* A file on a drive is read with its drive first, and what is on the drive holds no further colon. Without
  a drive the name holds none, but a name of one letter would be taken for a drive
  (`BuildMender.Diagnostic.GccLine.file_ne_letter`).
* Behind the line number a column is there exactly if digits follow at once; the severity is set off by a
  space.

So every such line gives the one diagnostic it was written for (`BuildMender.Diagnostic.gcc_line_found`),
whatever colons and numbers the message holds.
-/

namespace BuildMender.Diagnostic

open Text LinePattern

/-! ### Names and colons -/

section Names

variable {drive : Char} {name : Text}

/-- A name without colons is read up to the first colon, unless it could be the letter of a drive. -/
theorem gcc?_plain (hne : name ≠ []) (hstart : ∀ c ∈ name.head?, isBlank c = false) (hcolon : ':' ∉ name)
    (hletter : ∀ c, isAsciiLetter c → name ≠ [c]) (tail : Text) :
    gcc? (name ++ ':' :: tail) = gccTail? name tail := by
  have hdrive : afterDrive (name ++ ':' :: tail) = [([], name ++ ':' :: tail)] := by
    -- a drive would show in the second character, which is a colon only behind a single letter
    rcases name with _ | ⟨c, _ | ⟨d, more⟩⟩
    · exact absurd rfl hne
    · exact if_neg fun hc => hletter c hc rfl
    · have hd : d ≠ ':' := fun h => hcolon (h ▸ List.mem_cons_of_mem c List.mem_cons_self)
      rw [List.cons_append, List.cons_append, afterDrive]
      rintro _ _ heq
      exact hd (List.cons.inj (List.cons.inj heq).2).1
  have hread : upTo? ':' (name ++ ':' :: tail) = some (name, tail) := upTo?_append hne hstart hcolon
  simp only [gcc?, hdrive, List.findSome?_singleton, hread, Option.bind_some, List.nil_append]

/-- A name on a drive is read with its drive, and failing that the letter is taken for the whole name. -/
theorem gcc?_onDrive (hdrive : isAsciiLetter drive) (hne : name ≠ [])
    (hstart : ∀ c ∈ name.head?, isBlank c = false) (hcolon : ':' ∉ name) (tail : Text) :
    gcc? (drive :: ':' :: (name ++ ':' :: tail)) =
      (gccTail? (drive :: ':' :: name) tail).or (gccTail? [drive] (name ++ ':' :: tail)) := by
  have hletter : drive ≠ ':' ∧ isBlank drive = false := by
    refine ⟨?_, not_isBlank_of_isAsciiLetter hdrive⟩
    rintro rfl
    cases hdrive
  have hdrives : afterDrive (drive :: ':' :: (name ++ ':' :: tail)) =
      [([drive, ':'], name ++ ':' :: tail), ([], drive :: ':' :: (name ++ ':' :: tail))] := if_pos hdrive
  have hwhole : upTo? ':' (name ++ ':' :: tail) = some (name, tail) := upTo?_append hne hstart hcolon
  have hshort : upTo? ':' (drive :: ':' :: (name ++ ':' :: tail)) = some ([drive], name ++ ':' :: tail) :=
    upTo?_append (List.cons_ne_nil drive []) (by simpa using hletter.2) (by simpa using hletter.1.symm)
  simp only [gcc?, hdrives, List.findSome?_cons, List.findSome?_nil, hwhole, hshort, Option.bind_some,
    List.nil_append, List.cons_append]
  cases gccTail? (drive :: ':' :: name) tail <;> cases gccTail? [drive] (name ++ ':' :: tail) <;> rfl

/-- Behind the name of a file there are digits, and then at once a colon. -/
theorem gccTail?_eq_none {front : Text} (hdigit : ∃ c ∈ front, isDigit c = false) (hcolon : ':' ∉ front)
    (tail : Text) : gccTail? name (front ++ tail) = none := by
  have hleft : front.dropWhile isDigit ≠ [] := by
    -- the digits end before the character that is none
    obtain ⟨c, hc, hdigit⟩ := hdigit
    exact fun hnil => by simp [List.dropWhile_eq_nil_iff.mp hnil c hc] at hdigit
  obtain ⟨c, more, hmore⟩ := List.exists_cons_of_ne_nil hleft
  have hc : c ≠ ':' := by
    rintro rfl
    exact hcolon ((List.dropWhile_sublist isDigit).subset (hmore ▸ List.mem_cons_self))
  have hdrop : (front ++ tail).dropWhile isDigit = c :: (more ++ tail) := by
    rw [List.dropWhile_append, hmore]
    rfl
  have hafter : after? ":" ((front ++ tail).dropWhile isDigit) = none := by
    rw [hdrop]
    exact after?_cons_of_ne rfl hc _
  rw [gccTail?, digits?]
  split
  · rfl
  · simp only [Option.bind_eq_bind, Option.bind_some, hafter, Option.bind_none]

end Names

/-- **A line in the style of GCC.** The name of the file is spelled as this library spells it. -/
structure GccLine extends CompilerMessage where
  file_ne_letter : ∀ c, isAsciiLetter c → file ≠ [c]
  file_slashed : '\\' ∉ file
  file_not_here : ¬"./".toList <+: file

namespace GccLine

variable (l : GccLine)

/-- The column and the colon after it, if there is one. -/
def columnText : Text :=
  match l.column with
  | some c => numeral c ++ [':']
  | none => []

/-- The line as it is written. -/
def text : Text :=
  l.file ++ ":" ++ numeral l.line ++ ":" ++ l.columnText ++ " " ++ l.severity.text ++ ": " ++ l.message

/-- What is written behind the places. -/
def verdict : Text := ' ' :: (l.severity.text ++ ':' :: ' ' :: l.message)

/-- The parts that are read. -/
def parts : LinePattern := ⟨l.file, some l.line, l.column, l.severity.text, l.message⟩

/-- The diagnostic that the line is written for. -/
def diagnostic : Diagnostic where
  file := l.file
  line := l.line
  column := l.column.getD 1
  severity := l.severity.level
  message := l.message
  raw := l.text
  dialect := .gcc
  violation := Hint.ofMessage l.message

/-! ### Behind the file -/

theorem gccColumn_columnText :
    gccColumn (l.columnText ++ l.verdict) = (l.column.map numeral, l.verdict) := by
  rw [columnText, gccColumn]
  cases l.column with
  | none =>
    -- the severity is set off by a space, which is no digit
    have hnone : digits? ([] ++ l.verdict) = none := rfl
    rw [hnone]
    rfl
  | some c =>
    have hdigits := digits?_numeral c (rfl : isDigit ':' = false) l.verdict
    rw [List.append_assoc, List.singleton_append, hdigits]
    rfl

theorem gccTail?_text :
    gccTail? l.file (numeral l.line ++ ':' :: (l.columnText ++ l.verdict)) = some l.parts := by
  have hline := digits?_numeral l.line (rfl : isDigit ':' = false) (l.columnText ++ l.verdict)
  have hcolon (t : Text) : after? ":" (':' :: t) = some t := after?_append ":" t
  have hword : word? gccWords (trimStart l.verdict) = some (l.severity.text, ':' :: ' ' :: l.message) := by
    rw [verdict, trimStart_space_cons (l.severity.head?_text _), l.severity.word?_gccWords]
  have hmessage : trimStart (' ' :: l.message) = l.message := trimStart_space_cons l.message_isPiece.start
  simp only [gccTail?, hline, hcolon, l.gccColumn_columnText, hword, hmessage, Option.bind_eq_bind,
    Option.bind_some, number_numeral, l.number_column]
  rfl

/-! ### The file -/

theorem text_eq : l.text = l.file ++ ':' :: (numeral l.line ++ ':' :: (l.columnText ++ l.verdict)) := by
  simp [text, verdict]

theorem gcc?_text : gcc? l.text = some l.parts := by
  have htail := l.gccTail?_text
  have hpiece := l.file_isPiece
  have hletter := l.file_ne_letter
  have hnamed := l.file_named
  rw [l.text_eq]
  generalize l.file = file at htail hpiece hletter hnamed ⊢
  cases hnamed with
  | plain hcolon => rw [gcc?_plain hpiece.ne_nil hpiece.start hcolon hletter, htail]
  | onDrive hdrive hne hstart hcolon =>
    rw [List.cons_append, List.cons_append, gcc?_onDrive hdrive hne hstart hcolon, htail, Option.some_or]

/-! ### The diagnostic -/

theorem visible_text : Visible l.text := by
  have hcolumn : Visible l.columnText := by
    rw [columnText]
    cases l.column with
    | none => exact fun _ hc => nomatch hc
    | some c => exact visible_append.mpr ⟨visible_numeral c, by decide⟩
  have hcolon : Visible (":" : Text) := by decide
  have hspace : Visible (" " : Text) := by decide
  have hbehind : Visible (": " : Text) := by decide
  simp only [text, visible_append, l.file_isPiece.visible, hcolon, visible_numeral, hcolumn, hspace,
    visible_word, hbehind, l.message_isPiece.visible, and_self]

theorem ofParts_parts : ofParts .gcc l.parts l.text = l.diagnostic := by
  have hfile : SourceFile.normalize l.file = l.file :=
    SourceFile.normalize_of_normal (trim_of_ends l.file_isPiece.start l.file_isPiece.last) l.file_slashed
      l.file_not_here
  simp only [ofParts, parts, diagnostic, hfile, l.orOne_line, l.orOne_column, l.severity.ofWord_text,
    l.trim_message]

end GccLine

/-- **Lines in the style of GCC are found** as what they were written for. -/
theorem gcc_line_found (l : GccLine) : extract l.text = [l.diagnostic] := by
  have hend : ∃ c ∈ l.text.getLast?, isBlank c = false :=
    l.message_isPiece.exists_getLast? _
  have hread : LinePattern.ofLine? l.text = some (.gcc, l.parts) := by
    simp only [LinePattern.ofLine?, table, List.findSome?_cons, l.gcc?_text, Option.map_some]
  rw [extract_of_ofLine? hend l.visible_text hread]
  exact congrArg (fun d => [d]) l.ofParts_parts

/-- A file on a drive, and a message that could itself be taken for a place and a severity. -/
theorem gcc_line_found_on_drive : ∃ l : GccLine,
    l.text = "C:/src/a b.cpp:10:3: fatal error: main: 12:3: warning: odd".toList ∧
    extract l.text = [{ file := "C:/src/a b.cpp", line := 10, column := 3, severity := .error
                        message := "main: 12:3: warning: odd", raw := l.text, dialect := .gcc
                        violation := none }] := by
  let l : GccLine :=
    { file := "C:/src/a b.cpp", line := 10, column := some 3, severity := .fatalError
      message := "main: 12:3: warning: odd"
      file_isPiece := by decide +kernel
      file_named := .onDrive (by decide) (by decide) (fun c hc => by cases hc; rfl) (by decide)
      line_pos := by decide
      column_pos := fun c hc => by cases hc; decide
      message_isPiece := by decide +kernel
      file_ne_letter := fun c _ h => by cases h
      file_slashed := by decide +kernel
      file_not_here := by decide +kernel }
  have hhint : Hint.ofMessage l.message = none := by decide +kernel
  refine ⟨l, by decide +kernel, (gcc_line_found l).trans ?_⟩
  rw [GccLine.diagnostic, hhint]
  rfl

end BuildMender.Diagnostic
