import BuildMender.Proofs.Diagnostic.Reader
import BuildMender.Proofs.Diagnostic.Written.Gcc
import BuildMender.Proofs.Text.Cut

/-!
# Lines in the style of Visual C++, read back

A compiler in the style of Visual C++ writes `file(line,column): severity code: message`, where the column
may be missing, and a build driver may put the project file in brackets behind it. The name ends at a
parenthesis, so a colon in it does no harm here.

It could do harm earlier, since the style of GCC is tried first. But in such a line the first colon stands
behind the parentheses and is followed by a space, where GCC has digits; and where the letter of a drive is
taken for a whole name, what is on the drive holds a parenthesis before the next colon
(`BuildMender.Diagnostic.MsvcLine.gcc?_text`). The project file is looked for from the end of the line, and
its own brackets are the last ones that stand behind a space (`BuildMender.LinePattern.withoutProject_append`).
-/

namespace BuildMender

open Text LinePattern

namespace LinePattern

variable {message project rest : Text}

/-! ### Codes -/

theorem not_isAsciiCapital_of_isAsciiDigit {c : Char} (h : isAsciiDigit c) : isAsciiCapital c = false := by
  rw [Bool.eq_false_iff]
  intro hc
  rw [not_isAsciiDigit_of_isAsciiLetter (isAsciiLetter_of_isAsciiCapital hc)] at h
  cases h

/-- Some capitals and digits are read up to the colon behind them. -/
theorem code?_append {capitals digits : Text} (hcapitals : capitals ≠ []) (hdigits : digits ≠ [])
    (hcapital : ∀ c ∈ capitals, isAsciiCapital c) (hdigit : ∀ c ∈ digits, isAsciiDigit c) (rest : Text) :
    code? (capitals ++ digits ++ ':' :: rest) = some (capitals ++ digits, ':' :: rest) := by
  obtain ⟨d, more, rfl⟩ := List.exists_cons_of_ne_nil hdigits
  have hd : ¬isAsciiCapital d := by
    rw [not_isAsciiCapital_of_isAsciiDigit (hdigit d List.mem_cons_self)]
    exact Bool.false_ne_true
  have htake : (capitals ++ (d :: more ++ ':' :: rest)).takeWhile isAsciiCapital = capitals := by
    rw [List.takeWhile_append_of_pos hcapital, List.cons_append, List.takeWhile_cons_of_neg hd,
      List.append_nil]
  have hdrop : (capitals ++ (d :: more ++ ':' :: rest)).dropWhile isAsciiCapital =
      d :: more ++ ':' :: rest := by
    rw [List.dropWhile_append_of_pos hcapital, List.cons_append, List.dropWhile_cons_of_neg hd]
  have hread : digits? (d :: more ++ ':' :: rest) = some (d :: more, ':' :: rest) :=
    digits?_append hdigits hdigit rfl rest
  rw [List.append_assoc, code?, htake, hdrop, hread, if_neg (by simpa using hcapitals)]
  rfl

theorem afterColon?_space (h : ∀ c ∈ rest.head?, isBlank c = false) :
    afterColon? (':' :: ' ' :: rest) = some rest := by
  have htrim : trimStart (':' :: ' ' :: rest) = ':' :: ' ' :: rest :=
    dropStart_of_head? fun c hc => by
      obtain rfl := Option.some.inj hc
      rfl
  rw [afterColon?, htrim]
  exact congrArg some (trimStart_space_cons h)

/-! ### Project files -/

/-- The last opening bracket behind a space is the one of the project file itself. -/
theorem not_infix_brackets (hopen : ¬" [".toList <:+: project) :
    ¬" [".toList <:+: " [".toList.tail ++ (project ++ "]") := by
  have hspace : " [".toList = [' ', '['] := by decide
  have hbracket : "]".toList = [']'] := by decide
  rw [hspace, hbracket] at *
  intro hinside
  rcases List.infix_cons_iff.mp hinside with hfront | hinside
  · exact absurd (List.cons_prefix_cons.mp hfront).1 (by decide)
  -- nor does the pattern end in the bracket that closes
  rcases List.infix_concat_iff.mp hinside with hend | hinside
  · obtain ⟨front, hfront⟩ := hend
    have hlast := congrArg List.getLast? hfront
    rw [List.getLast?_concat, List.getLast?_append_of_ne_nil _ (List.cons_ne_nil ' ' ['['])] at hlast
    exact absurd hlast (by decide)
  · exact hopen hinside

/-- A project file in brackets is taken off, whatever brackets the message holds. -/
theorem withoutProject_append (hproject : "proj".toList <:+ project) (hopen : ¬" [".toList <:+: project)
    (message : Text) : withoutProject (message ++ (" [" ++ (project ++ "]"))) = message := by
  have hends : endsWith "proj]" (message ++ (" [" ++ (project ++ "]"))) = true := by
    obtain ⟨front, rfl⟩ := hproject
    rw [endsWith, List.isSuffixOf_iff_suffix]
    refine ⟨message ++ (" [" ++ front), ?_⟩
    have hword : "proj]".toList = "proj".toList ++ "]".toList := by decide
    rw [hword]
    simp only [List.append_assoc]
  rw [withoutProject, if_pos hends, cutLast_append (by decide) (not_infix_brackets hopen)]

end LinePattern

namespace Diagnostic

/-- **The name of a project file** behind a message: it ends as project files end, and holds no bracket that
could be taken for its own. -/
structure NamesProject (project : Text) : Prop where
  ending : "proj".toList <:+ project
  unbracketed : ¬" [".toList <:+: project
  visible : Visible project

/-- **A line in the style of Visual C++**, with the name of a project file behind it or without. -/
structure MsvcLine extends CompilerMessage where
  capitals : Text
  digits : Text
  project : Option Text
  severity_ne_remark : severity ≠ .remark
  file_open : '(' ∉ file
  capitals_ne_nil : capitals ≠ []
  isAsciiCapital_capitals : ∀ c ∈ capitals, isAsciiCapital c
  digits_ne_nil : digits ≠ []
  isAsciiDigit_digits : ∀ c ∈ digits, isAsciiDigit c
  project_named : ∀ p ∈ project, NamesProject p
  message_ending : project = none → ¬"proj]".toList <:+ message

namespace MsvcLine

variable (l : MsvcLine)

/-- The comma and the column, if there is one. -/
def columnText : Text :=
  match l.column with
  | some c => ',' :: numeral c
  | none => []

/-- The name of the project file in brackets, if there is one. -/
def projectText : Text :=
  match l.project with
  | some p => " [" ++ (p ++ "]")
  | none => []

/-- The code, in front of the message. -/
def code : Text := l.capitals ++ l.digits

/-- The line as it is written. -/
def text : Text :=
  l.file ++ "(" ++ numeral l.line ++ l.columnText ++ "): " ++ l.severity.text ++ " " ++ l.code ++ ": " ++
    l.message ++ l.projectText

/-- The parts that are read. -/
def parts : LinePattern :=
  ⟨l.file, some l.line, l.column, l.severity.text, l.code ++ ": " ++ l.message⟩

/-- The diagnostic that the line is written for. -/
def diagnostic : Diagnostic where
  file := SourceFile.normalize l.file
  line := l.line
  column := l.column.getD 1
  severity := l.severity.level
  message := l.code ++ ": " ++ l.message
  raw := l.text
  dialect := .msvc
  violation := Hint.ofMessage (l.code ++ ": " ++ l.message)

/-- What is written behind the places. -/
def verdict : Text := l.severity.text ++ ' ' :: (l.code ++ ':' :: ' ' :: (l.message ++ l.projectText))

/-- The places in their parentheses. -/
def places : Text := '(' :: (numeral l.line ++ (l.columnText ++ [')']))

theorem text_eq : l.text = l.file ++ (l.places ++ ':' :: ' ' :: l.verdict) := by
  simp [text, places, verdict, List.append_assoc]

/-! ### Not in the style of GCC -/

theorem colon_not_mem_places : ':' ∉ l.places := by
  have hcolumn : ':' ∉ l.columnText := by
    rw [columnText]
    cases l.column with
    | none => exact List.not_mem_nil
    | some c =>
      exact List.not_mem_cons_of_ne_of_not_mem (by decide) (not_mem_numeral rfl c)
  have hline : ':' ∉ numeral l.line := not_mem_numeral rfl l.line
  simp [places, hline, hcolumn]

/-- **The reader for the style of GCC takes no such line.** -/
theorem gcc?_text : gcc? l.text = none := by
  have hnamed := l.file_named
  have hpiece := l.file_isPiece
  have hspace (name : Text) : gccTail? name (' ' :: l.verdict) = none := rfl
  have hname {name : Text} (hne : name ≠ []) (hstart : ∀ c ∈ name.head?, isBlank c = false)
      (hcolon : ':' ∉ name) : name ++ l.places ≠ [] ∧ (∀ c ∈ (name ++ l.places).head?, isBlank c = false) ∧
        ':' ∉ name ++ l.places := by
    refine ⟨fun h => hne (List.append_eq_nil_iff.mp h).1, ?_, ?_⟩
    · rwa [List.head?_append_of_ne_nil name hne]
    · exact fun h => (List.mem_append.mp h).elim hcolon l.colon_not_mem_places
  rw [l.text_eq]
  generalize l.file = file at hnamed hpiece ⊢
  cases hnamed with
  | plain hcolon =>
    -- the first colon stands behind the places, and a space follows
    obtain ⟨hne, hstart, hcolon⟩ := hname hpiece.ne_nil hpiece.start hcolon
    have hletter : ∀ c, isAsciiLetter c → file ++ l.places ≠ [c] := by
      rintro c hc heq
      have hparen : '(' ∈ [c] := heq ▸ List.mem_append_right file List.mem_cons_self
      obtain rfl := List.mem_singleton.mp hparen
      cases hc
    rw [← List.append_assoc, gcc?_plain hne hstart hcolon hletter, hspace]
  | onDrive hdrive hne hstart hcolon =>
    -- with its drive the name is read like one without; the letter alone has no line number behind it
    obtain ⟨hne, hstart, hcolon⟩ := hname hne hstart hcolon
    rw [List.cons_append, List.cons_append, ← List.append_assoc, gcc?_onDrive hdrive hne hstart hcolon, hspace,
      Option.none_or]
    exact gccTail?_eq_none ⟨'(', List.mem_append_right _ List.mem_cons_self, rfl⟩ hcolon _

/-! ### The reader -/

theorem msvcPlace?_places (rest : Text) :
    msvcPlace? (numeral l.line ++ (l.columnText ++ ')' :: rest)) =
      some (numeral l.line, l.column.map numeral, rest) := by
  have hparen : after? ")" (')' :: rest) = some rest := after?_append ")" rest
  rw [columnText]
  cases l.column with
  | none =>
    have hline := digits?_numeral l.line (rfl : isDigit ')' = false) rest
    have hcomma : after? "," (')' :: rest) = none := after?_cons_of_ne rfl (by decide) rest
    simp only [msvcPlace?, List.nil_append, hline, hcomma, hparen, Option.bind_eq_bind, Option.bind_some]
    rfl
  | some c =>
    have hline := digits?_numeral l.line (rfl : isDigit ',' = false) (numeral c ++ ')' :: rest)
    have hcolumn := digits?_numeral c (rfl : isDigit ')' = false) rest
    have hcomma : after? "," (',' :: (numeral c ++ ')' :: rest)) = some (numeral c ++ ')' :: rest) :=
      after?_append "," _
    simp only [msvcPlace?, List.cons_append, hline, hcomma, hcolumn, hparen, Option.bind_eq_bind,
      Option.bind_some]
    rfl

theorem withoutProject_message : withoutProject (l.message ++ l.projectText) = l.message := by
  rw [projectText]
  cases h : l.project with
  | none => rw [List.append_nil, withoutProject_of_not_suffix (l.message_ending h)]
  | some p => exact withoutProject_append (l.project_named p h).ending (l.project_named p h).unbracketed _

theorem start_code (rest : Text) : ∀ c ∈ (l.code ++ rest).head?, isBlank c = false := by
  obtain ⟨c, more, hcons⟩ := List.exists_cons_of_ne_nil l.capitals_ne_nil
  have hc := l.isAsciiCapital_capitals c (hcons ▸ List.mem_cons_self)
  rw [code, hcons]
  rintro d hd
  obtain rfl := Option.some.inj hd
  exact not_isBlank_of_isAsciiLetter (isAsciiLetter_of_isAsciiCapital hc)

theorem verdict?_verdict :
    verdict? msvcWords code? l.verdict = some (l.severity.text, l.code ++ ": " ++ l.message) := by
  have hword := SeverityWord.word?_msvcWords l.severity_ne_remark
    (' ' :: (l.code ++ ':' :: ' ' :: (l.message ++ l.projectText)))
  have hblank : afterSome? isBlank (' ' :: (l.code ++ ':' :: ' ' :: (l.message ++ l.projectText))) =
      some (l.code ++ ':' :: ' ' :: (l.message ++ l.projectText)) :=
    congrArg some (dropStart_of_head? (l.start_code _))
  have hcode : code? (l.code ++ ':' :: ' ' :: (l.message ++ l.projectText)) =
      some (l.code, ':' :: ' ' :: (l.message ++ l.projectText)) :=
    code?_append l.capitals_ne_nil l.digits_ne_nil l.isAsciiCapital_capitals l.isAsciiDigit_digits _
  have hcolon := afterColon?_space (l.message_isPiece.start_append l.projectText)
  simp only [verdict?, verdict, hword, hblank, hcode, hcolon, coded, l.withoutProject_message, l.trim_message,
    Option.bind_eq_bind, Option.bind_some]
  rfl

theorem msvc?_text : msvc? l.text = some l.parts := by
  have hpiece := l.file_isPiece
  have htrim : trimStart l.text = l.text := by
    rw [l.text_eq]
    exact dropStart_of_head? (hpiece.start_append _)
  have hname : upTo? '(' l.text =
      some (l.file, numeral l.line ++ (l.columnText ++ ')' :: ':' :: ' ' :: l.verdict)) := by
    rw [l.text_eq, places]
    simpa using upTo?_append hpiece.ne_nil hpiece.start l.file_open
  have hcolon : afterColon? (':' :: ' ' :: l.verdict) = some l.verdict :=
    afterColon?_space (l.severity.head?_text _)
  simp only [msvc?, htrim, hname, l.msvcPlace?_places, hcolon, l.verdict?_verdict, number_numeral,
    l.number_column, Option.bind_eq_bind, Option.bind_some]
  rfl

/-! ### The diagnostic -/

theorem visible_code : Visible l.code := by
  refine visible_append.mpr ⟨fun c hc => ?_, fun c hc => ?_⟩
  · have hcapital := l.isAsciiCapital_capitals c hc
    constructor <;> rintro rfl <;> cases hcapital
  · have hdigit := l.isAsciiDigit_digits c hc
    constructor <;> rintro rfl <;> cases hdigit

theorem visible_columnText : Visible l.columnText := by
  rw [columnText]
  cases l.column with
  | none => exact fun _ hc => nomatch hc
  | some c => exact List.forall_mem_cons.mpr ⟨by decide, visible_numeral c⟩

theorem visible_projectText : Visible l.projectText := by
  rw [projectText]
  cases h : l.project with
  | none => exact fun _ hc => nomatch hc
  | some p =>
    exact visible_append.mpr ⟨by decide,
      visible_append.mpr ⟨(l.project_named p h).visible, by decide⟩⟩

theorem visible_text : Visible l.text := by
  have hopen : Visible ("(" : Text) := by decide
  have hclose : Visible ("): " : Text) := by decide
  have hspace : Visible (" " : Text) := by decide
  have hcolon : Visible (": " : Text) := by decide
  simp only [text, visible_append, l.file_isPiece.visible, hopen, visible_numeral, l.visible_columnText, hclose,
    visible_word, hspace, l.visible_code, hcolon, l.message_isPiece.visible, l.visible_projectText, and_self]

theorem exists_getLast?_text : ∃ c ∈ l.text.getLast?, isBlank c = false := by
  rw [text, projectText]
  cases l.project with
  | none =>
    rw [List.append_nil]
    exact l.message_isPiece.exists_getLast? _
  | some p =>
    have hbracket : IsPiece ("]" : Text) := by decide
    rw [← List.append_assoc, ← List.append_assoc]
    exact hbracket.exists_getLast? _

theorem ofParts_parts : ofParts .msvc l.parts l.text = l.diagnostic := by
  have htrim : trim (l.code ++ ": " ++ l.message) = l.code ++ ": " ++ l.message := by
    rw [List.append_assoc]
    refine trim_of_ends (l.start_code _) ?_
    rw [← List.append_assoc, List.getLast?_append_of_ne_nil _ l.message_isPiece.ne_nil]
    exact l.message_isPiece.last
  simp only [ofParts, parts, diagnostic, htrim, l.orOne_line, l.orOne_column, l.severity.ofWord_text]

end MsvcLine

/-- **Lines in the style of Visual C++ are found** as what they were written for. -/
theorem msvc_line_found (l : MsvcLine) : extract l.text = [l.diagnostic] := by
  have hread : LinePattern.ofLine? l.text = some (.msvc, l.parts) := by
    simp only [LinePattern.ofLine?, table, List.findSome?_cons, l.gcc?_text, l.msvc?_text, Option.map_none,
      Option.map_some]
  rw [extract_of_ofLine? l.exists_getLast?_text l.visible_text hread]
  exact congrArg (fun d => [d]) l.ofParts_parts

/-- Brackets stand in the message and in the name of the project file, and a number behind the drive. -/
theorem msvc_line_found_in_project : ∃ l : MsvcLine,
    l.text = "C:2\\a.cpp(7): error C2065: x [with T=int]: odd [D:\\p[1]\\app.vcxproj]".toList ∧
    extract l.text = [{ file := "C:2/a.cpp", line := 7, column := 1, severity := .error
                        message := "C2065: x [with T=int]: odd", raw := l.text, dialect := .msvc
                        violation := none }] := by
  let l : MsvcLine :=
    { file := "C:2\\a.cpp", line := 7, column := none, severity := .error, capitals := "C", digits := "2065"
      message := "x [with T=int]: odd", project := some "D:\\p[1]\\app.vcxproj"
      file_isPiece := by decide +kernel
      file_named := .onDrive (by decide) (by decide) (fun c hc => by cases hc; rfl) (by decide)
      line_pos := by decide
      column_pos := fun c hc => by cases hc
      message_isPiece := by decide +kernel
      severity_ne_remark := by decide
      file_open := by decide +kernel
      capitals_ne_nil := by decide +kernel
      isAsciiCapital_capitals := List.all_eq_true.mp (by decide +kernel)
      digits_ne_nil := by decide +kernel
      isAsciiDigit_digits := List.all_eq_true.mp (by decide +kernel)
      project_named := fun p hp => by
        obtain rfl := Option.some.inj hp
        exact ⟨by decide +kernel, by decide +kernel, by decide +kernel⟩
      message_ending := fun h => by cases h }
  have hfile : SourceFile.normalize l.file = "C:2/a.cpp".toList := by decide +kernel
  have hmessage : l.code ++ ": " ++ l.message = "C2065: x [with T=int]: odd".toList := by decide +kernel
  have hhint : Hint.ofMessage "C2065: x [with T=int]: odd".toList = none := by decide +kernel
  refine ⟨l, by decide +kernel, (msvc_line_found l).trans ?_⟩
  rw [MsvcLine.diagnostic, hfile, hmessage, hhint]
  rfl

end Diagnostic

end BuildMender
