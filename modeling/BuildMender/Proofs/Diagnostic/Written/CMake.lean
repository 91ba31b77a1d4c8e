import BuildMender.Proofs.Diagnostic.Seam
import BuildMender.Proofs.Diagnostic.Written.Gcc
import BuildMender.Proofs.Text.Class

/-!
# Headers of CMake, and the messages below them

CMake writes `CMake Error at file:line (context):` and leaves the message to the indented lines below. In a log
without colour codes every such header gives one diagnostic, and what stands above and below gives what it gives
without the header (`BuildMender.Diagnostic.cmake_header_found`).

Two readers are asked before the one for CMake, and the header has to get past both:

* For GCC the name of the file would end at the first colon, and behind the line number that follows there is a
  space, where GCC has a colon (`BuildMender.Diagnostic.CMakeHeader.gcc?_text`).
* For Visual C++ it would end at the first parenthesis, which may belong to the name of the file, to `(dev)` or
  to the context. A place in parentheses may well be read there, but no word for the severity follows it: the
  colon behind the file has digits behind it, and the colon behind the context has nothing
  (`BuildMender.Diagnostic.CMakeHeader.msvc?_text`).
-/

namespace BuildMender

open Text LinePattern

variable {t rest name u v : Text}

/-- How bad CMake says that it is. -/
inductive CMakeSeverity where
  | error
  | warning
deriving DecidableEq

namespace CMakeSeverity

/-- The word as it is written. -/
def word : CMakeSeverity → Text
  | .error => "Error"
  | .warning => "Warning"

/-- The level the word stands for. -/
def level : CMakeSeverity → Severity
  | .error => .error
  | .warning => .warning

/-- The message where none is found. -/
def madeUp : CMakeSeverity → Text
  | .error => "configuration error"
  | .warning => "configuration warning"

theorem ofWord_word (l : CMakeSeverity) : Severity.ofWord l.word = l.level := by
  cases l <;> decide

theorem configuration_word (l : CMakeSeverity) : "configuration ".toList ++ lowercase l.word = l.madeUp := by
  cases l <;> decide

theorem trim_madeUp (l : CMakeSeverity) : trim l.madeUp = l.madeUp := by
  cases l <;> decide

theorem word?_word (l : CMakeSeverity) (rest : Text) :
    word? ["Error", "Warning"] (l.word ++ rest) = some (l.word, rest) := by
  cases l <;> rfl

end CMakeSeverity

namespace LinePattern

/-! ### What Visual C++ passes over -/

theorem append_of_digits? {digits : Text} (h : digits? t = some (digits, rest)) :
    t = digits ++ rest ∧ ∀ c ∈ digits, isDigit c := by
  obtain ⟨-, h⟩ := Option.ite_none_left_eq_some.mp h
  cases h
  exact ⟨List.takeWhile_append_dropWhile.symm, fun c => List.mem_takeWhile_imp⟩

/-- A place ends at the first closing parenthesis, and no colon stands in it. -/
theorem exists_of_msvcPlace? {line : Text} {column : Option Text}
    (h : msvcPlace? t = some (line, column, rest)) :
    ∃ place, t = place ++ ')' :: rest ∧ ∀ c ∈ place, c ≠ ':' ∧ c ≠ ')' := by
  have hdigit {c : Char} (hc : isDigit c) : c ≠ ':' ∧ c ≠ ')' := by
    constructor <;> rintro rfl <;> cases hc
  have hparen {t : Text} (h : after? ")" t = some rest) : t = ')' :: rest := (after?_eq_some.mp h).symm
  obtain ⟨⟨line', t₁⟩, hline, hbehind⟩ := Option.bind_eq_some_iff.mp h
  obtain ⟨rfl, hlineDigits⟩ := append_of_digits? hline
  dsimp only at hbehind
  split at hbehind
  · rename_i t₂ hcomma
    obtain ⟨⟨column', t₃⟩, hcolumn, hbehind⟩ := Option.bind_eq_some_iff.mp hbehind
    obtain ⟨rest', hrest, heq⟩ := Option.bind_eq_some_iff.mp hbehind
    cases heq
    obtain rfl := after?_eq_some.mp hcomma
    obtain ⟨rfl, hcolumnDigits⟩ := append_of_digits? hcolumn
    obtain rfl := hparen hrest
    refine ⟨line ++ ',' :: column', by simp, ?_⟩
    refine List.forall_mem_append.mpr ⟨fun c hc => hdigit (hlineDigits c hc), ?_⟩
    exact List.forall_mem_cons.mpr ⟨by decide, fun c hc => hdigit (hcolumnDigits c hc)⟩
  · obtain ⟨rest', hrest, heq⟩ := Option.bind_eq_some_iff.mp hbehind
    cases heq
    obtain rfl := hparen hrest
    exact ⟨line, rfl, fun c hc => hdigit (hlineDigits c hc)⟩

/-- A colon after blanks is the first colon. -/
theorem eq_of_afterColon? (h : afterColon? (name ++ ':' :: rest) = some v) (hcolon : ':' ∉ name) :
    v = trimStart rest := by
  obtain ⟨w, hw, rfl⟩ := Option.map_eq_some_iff.mp h
  have hw : ':' :: w = trimStart (name ++ ':' :: rest) := after?_eq_some.mp hw
  rw [trimStart, dropStart, List.dropWhile_append] at hw
  split at hw
  · rw [List.dropWhile_cons_of_neg (by decide)] at hw
    rw [(List.cons.inj hw).2]
  · -- a character of the name that is no blank would have to be the colon
    rename_i hleft
    obtain ⟨c, more, hmore⟩ := List.exists_cons_of_ne_nil (mt List.isEmpty_iff.mpr hleft)
    rw [hmore] at hw
    have hc : c ∈ name := (List.dropWhile_suffix isBlank).subset (hmore ▸ List.mem_cons_self)
    exact absurd ((List.cons.inj hw).1 ▸ hc) hcolon

/-- **Visual C++ takes no line** that has no word for the severity behind its place. -/
theorem msvc?_eq_none (hne : name ≠ []) (hstart : ∀ c ∈ name.head?, isBlank c = false) (hopen : '(' ∉ name)
    (h : ∀ line column u v, msvcPlace? rest = some (line, column, u) → afterColon? u = some v →
      word? msvcWords v = none) : msvc? (name ++ '(' :: rest) = none := by
  have htrim : trimStart (name ++ '(' :: rest) = name ++ '(' :: rest :=
    dropStart_of_head? fun c hc => hstart c (by rwa [List.head?_append_of_ne_nil name hne] at hc)
  rw [Option.eq_none_iff_forall_ne_some]
  intro p hp
  obtain ⟨⟨file, t₁⟩, hfile, hp⟩ := Option.bind_eq_some_iff.mp hp
  obtain ⟨⟨line, column, t₂⟩, hplace, hp⟩ := Option.bind_eq_some_iff.mp hp
  obtain ⟨t₃, hcolon, hp⟩ := Option.bind_eq_some_iff.mp hp
  obtain ⟨verdict, hverdict, -⟩ := Option.bind_eq_some_iff.mp hp
  obtain ⟨word, hword, -⟩ := Option.bind_eq_some_iff.mp hverdict
  rw [htrim, upTo?_append hne hstart hopen] at hfile
  cases hfile
  rw [h line column t₂ t₃ hplace hcolon] at hword
  cases hword

/-- A numeral begins with a digit, and so with no blank and with no word for the severity. -/
theorem word?_trimStart_numeral (n : UInt32) (rest : Text) :
    word? msvcWords (trimStart (Diagnostic.numeral n ++ rest)) = none := by
  obtain ⟨d, more, hmore⟩ := List.exists_cons_of_ne_nil (decimal_ne_nil n.toNat)
  have hd : isAsciiDigit d := isAsciiDigit_of_mem_decimal (n := n.toNat) (hmore ▸ List.mem_cons_self)
  have htrim : trimStart (d :: (more ++ rest)) = d :: (more ++ rest) :=
    dropStart_of_head? fun c hc => by
      obtain rfl := Option.some.inj hc
      exact not_isBlank_of_isDigit (isDigit_of_isAsciiDigit hd)
  have hletter : ∀ w ∈ msvcWords, ∃ c, w.head? = some c ∧ isAsciiDigit c = false := by
    simp only [msvcWords, List.mem_cons, List.not_mem_nil, or_false]
    rintro w (rfl | rfl | rfl | rfl) <;> exact ⟨_, rfl, by decide⟩
  rw [Diagnostic.numeral, hmore, List.cons_append, htrim, word?, List.findSome?_eq_none_iff]
  intro w hw
  obtain ⟨c, hc, hdigit⟩ := hletter w hw
  have hne : d ≠ c := by
    rintro rfl
    simp [hd] at hdigit
  rw [after?_cons_of_ne hc hne]
  rfl

end LinePattern

namespace Diagnostic

/-- **A header of CMake**, with the place and the context. The name of the file is spelled as this library
spells it. -/
structure CMakeHeader where
  severity : CMakeSeverity
  /-- Whether the message is for developers. -/
  dev : Bool
  file : Text
  line : UInt32
  context : Text
  file_ne_nil : file ≠ []
  file_trimmed : trim file = file
  file_colon : ':' ∉ file
  file_slashed : '\\' ∉ file
  file_not_here : ¬"./".toList <+: file
  line_pos : 0 < line
  context_closed : ')' ∉ context

namespace CMakeHeader

variable (h : CMakeHeader)

/-- The mark of a message for developers. -/
def devText : Text := if h.dev then " (dev)" else []

/-- What is written in front of the file. -/
def front : Text := "CMake " ++ (h.severity.word ++ (h.devText ++ " at "))

/-- The line as it is written. -/
def text : Text := h.front ++ h.file ++ ":" ++ numeral h.line ++ " (" ++ h.context ++ "):"

/-- What is written behind the file and its colon. -/
def behind : Text := numeral h.line ++ ' ' :: '(' :: (h.context ++ [')', ':'])

/-- The parts that are read. -/
def parts : LinePattern := ⟨h.file, some h.line, none, h.severity.word, []⟩

/-- The diagnostic that the header stands for, with the message that belongs to it. -/
def diagnostic (message : Text) : Diagnostic where
  file := h.file
  line := h.line
  column := 1
  severity := h.severity.level
  message := message
  raw := h.text
  dialect := .cmake
  violation := Hint.ofMessage message

-- `rw [front]` would look into the literal for the equation of the definition, which takes long
theorem front_eq : h.front = "CMake ".toList ++ (h.severity.word ++ (h.devText ++ " at ".toList)) := rfl

theorem text_eq : h.text = h.front ++ h.file ++ ':' :: h.behind := by
  simp only [text, behind, List.append_assoc]
  rfl

theorem getLast?_text : ∀ c ∈ h.text.getLast?, isBlank c = false := by
  have hend : h.text =
      h.front ++ h.file ++ ':' :: (numeral h.line ++ ' ' :: '(' :: (h.context ++ [')'])) ++ [':'] := by
    rw [text_eq, behind]
    simp
  rw [hend, List.getLast?_concat]
  rintro c hc
  obtain rfl := Option.some.inj hc
  rfl

/-! ### Not for GCC -/

theorem front_ne_nil (rest : Text) : h.front ++ rest ≠ [] := List.cons_ne_nil 'C' _

theorem start_front (rest : Text) : ∀ c ∈ (h.front ++ rest).head?, isBlank c = false := by
  rintro c hc
  obtain rfl := Option.some.inj hc
  rfl

theorem colon_not_mem_front : ':' ∉ h.front := by
  rw [front_eq, devText]
  cases h.severity <;> cases h.dev <;> decide

theorem gcc?_text : gcc? h.text = none := by
  have hcolon : ':' ∉ h.front ++ h.file := fun hc =>
    (List.mem_append.mp hc).elim h.colon_not_mem_front h.file_colon
  have hletter : ∀ c, isAsciiLetter c → h.front ++ h.file ≠ [c] := by
    rintro c - heq
    cases heq
  have hline : digits? h.behind = some (numeral h.line, _) := digits?_numeral h.line rfl _
  rw [text_eq, gcc?_plain (h.front_ne_nil _) (h.start_front _) hcolon hletter, gccTail?, hline]
  rfl

/-! ### Not for Visual C++ -/

/-- **The first parenthesis may belong to the name of the file.** If there is a place in it, digits follow the
colon behind the name. -/
theorem msvc?_open_file (hdev : h.dev = false) (hopen : '(' ∈ h.file) : msvc? h.text = none := by
  obtain ⟨before, after, hfile, hbefore⟩ := List.eq_append_cons_of_mem hopen
  have hcolon := h.file_colon
  rw [hfile] at hcolon
  have htext : h.text = h.front ++ before ++ '(' :: (after ++ ':' :: h.behind) := by
    rw [text_eq, hfile]
    simp
  have hfront : '(' ∉ h.front ++ before := by
    refine fun hc => (List.mem_append.mp hc).elim ?_ hbefore
    rw [front_eq, devText, hdev]
    cases h.severity <;> decide
  rw [htext]
  refine msvc?_eq_none (h.front_ne_nil _) (h.start_front _) hfront fun line column u v hplace hafter => ?_
  obtain ⟨place, heq, hpassed⟩ := exists_of_msvcPlace? hplace
  have hplace : ':' ∉ place ++ [')'] := fun hc =>
    (List.mem_append.mp hc).elim (fun hc => (hpassed _ hc).1 rfl) (by decide)
  rw [← List.singleton_append (x := ')'), ← List.append_assoc] at heq
  -- the place has no colon in it, so it ends before the one behind the name
  obtain ⟨more, rfl, rfl⟩ : ∃ more, after = place ++ [')'] ++ more ∧ u = more ++ ':' :: h.behind := by
    rcases List.append_eq_append_iff.mp heq with ⟨more, heq, hbehind⟩ | ⟨more, hafter, hu⟩
    · cases more with
      | nil => exact ⟨[], by simpa using heq.symm, by simpa using hbehind.symm⟩
      | cons c more =>
        obtain rfl := (List.cons.inj hbehind).1
        exact absurd (heq ▸ List.mem_append_right after List.mem_cons_self) hplace
    · exact ⟨more, hafter, hu⟩
  have hmore : ':' ∉ more := fun hc =>
    hcolon (List.mem_append_right _ (List.mem_cons_of_mem _ (List.mem_append_right _ hc)))
  rw [eq_of_afterColon? hafter hmore]
  exact word?_trimStart_numeral h.line _

/-- The first parenthesis may belong to the context, which ends the line with a colon. -/
theorem msvc?_open_context (hdev : h.dev = false) (hopen : '(' ∉ h.file) : msvc? h.text = none := by
  have htext : h.text = h.front ++ (h.file ++ ':' :: (numeral h.line ++ [' '])) ++
      '(' :: (h.context ++ [')', ':']) := by
    rw [text_eq, behind]
    simp
  have hfront : '(' ∉ h.front ++ (h.file ++ ':' :: (numeral h.line ++ [' '])) := by
    have hword : '(' ∉ h.front := by
      rw [front_eq, devText, hdev]
      cases h.severity <;> decide
    have hline : '(' ∉ numeral h.line := not_mem_numeral rfl h.line
    simp [hword, hopen, hline]
  rw [htext]
  refine msvc?_eq_none (h.front_ne_nil _) (h.start_front _) hfront fun line column u v hplace hafter => ?_
  obtain ⟨place, heq, hpassed⟩ := exists_of_msvcPlace? hplace
  obtain ⟨-, -, rfl⟩ := (List.append_cons_inj_of_notMem h.context_closed (by decide)).mp heq
  cases hafter
  rfl

/-- **The reader for the style of Visual C++ takes no header.** -/
theorem msvc?_text : msvc? h.text = none := by
  cases hdev : h.dev with
  | true =>
    -- the first parenthesis is that of the mark for developers
    have htext : h.text = "CMake " ++ (h.severity.word ++ [' ']) ++
        '(' :: ("dev) at " ++ (h.file ++ ':' :: h.behind)) := by
      rw [text_eq, front_eq, devText, hdev]
      simp
    have hopen : '(' ∉ "CMake ".toList ++ (h.severity.word ++ [' ']) := by
      cases h.severity <;> decide
    have hstart : ∀ c ∈ ("CMake ".toList ++ (h.severity.word ++ [' '])).head?, isBlank c = false := by
      rintro c hc
      obtain rfl := Option.some.inj hc
      rfl
    rw [htext]
    refine msvc?_eq_none (List.cons_ne_nil 'C' _) hstart hopen fun line column u v hplace => ?_
    cases hplace
  | false =>
    by_cases hopen : '(' ∈ h.file
    · exact h.msvc?_open_file hdev hopen
    · exact h.msvc?_open_context hdev hopen

/-! ### The reader -/

theorem cmake?_text : cmake? h.text = some h.parts := by
  have hword := h.severity.word?_word (h.devText ++ (" at " ++ (h.file ++ ':' :: h.behind)))
  have hmark : (after? " (dev)" (h.devText ++ (" at " ++ (h.file ++ ':' :: h.behind)))).getD
      (h.devText ++ (" at " ++ (h.file ++ ':' :: h.behind))) = " at " ++ (h.file ++ ':' :: h.behind) := by
    rw [devText]
    cases h.dev <;> rfl
  have hname := takeWhile_append_stop h.file_colon h.behind
  have hplace := dropWhile_append_stop h.file_colon h.behind
  have hcolon (t : Text) : after? ":" (':' :: t) = some t := after?_append ":" t
  have hline : digits? h.behind = some (numeral h.line, ' ' :: '(' :: (h.context ++ [')', ':'])) :=
    digits?_numeral h.line rfl _
  have hcontext : cmakeContext (' ' :: '(' :: (h.context ++ [')', ':'])) = (some h.context, [':']) := by
    have hopen : after? " (" (' ' :: '(' :: (h.context ++ [')', ':'])) = some (h.context ++ [')', ':']) :=
      after?_append " (" _
    have htake := takeWhile_append_stop h.context_closed [':']
    have hdrop := dropWhile_append_stop h.context_closed [':']
    simp only [cmakeContext, hopen, hdrop, htake]
  have htext : h.text = "CMake " ++ (h.severity.word ++ (h.devText ++ (" at " ++ (h.file ++ ':' :: h.behind)))) := by
    rw [text_eq, front_eq]
    simp only [List.append_assoc]
  have hfile : h.file.isEmpty = false := List.isEmpty_eq_false_iff.mpr h.file_ne_nil
  simp only [cmake?, htext, after?_append, Option.getD_some, hword, hmark, hname, hplace, hcolon, hfile, hline,
    hcontext, Option.bind_eq_bind, Option.bind_some, number_numeral, Bool.false_eq_true, if_false]
  rfl

theorem ofLine?_text : LinePattern.ofLine? h.text = some (.cmake, h.parts) := by
  simp only [LinePattern.ofLine?, table, List.findSome?_cons, h.gcc?_text, h.msvc?_text, h.cmake?_text,
    Option.map_none, Option.map_some]

/-! ### The diagnostic -/

theorem ofParts_parts {message : Text} (htrim : trim message = message) :
    ofParts .cmake { h.parts with message := message } h.text = h.diagnostic message := by
  have hfile : SourceFile.normalize h.file = h.file :=
    SourceFile.normalize_of_normal h.file_trimmed h.file_slashed h.file_not_here
  have hline : orOne (some h.line) = h.line := by simp [orOne, Option.filter, h.line_pos]
  simp only [ofParts, parts, diagnostic, hfile, hline, h.severity.ofWord_word, htrim]
  rfl

/-- **The message is the one below**, and failing that it is made up. -/
theorem ofLine?_header (below : List Text) : Diagnostic.ofLine? h.text below =
    some (h.diagnostic ((continuation below).getD h.severity.madeUp)) := by
  have hblank : allBlank h.text = false := rfl
  have hcomplete : complete .cmake h.parts below =
      { h.parts with message := (continuation below).getD h.severity.madeUp } := by
    have hopen : Dialect.cmake = .cmake ∧ h.parts.message = [] := ⟨rfl, rfl⟩
    have hword : h.parts.severity = h.severity.word := rfl
    rw [complete, if_pos hopen, hword, h.severity.configuration_word]
    rfl
  have htrim : trim ((continuation below).getD h.severity.madeUp) = (continuation below).getD h.severity.madeUp := by
    cases hmessage : continuation below with
    | none => exact h.severity.trim_madeUp
    | some message => exact trim_of_continuation hmessage
  rw [Diagnostic.ofLine?, hblank, if_neg Bool.false_ne_true, h.ofLine?_text, Option.map_some]
  exact congrArg some ((congrArg (ofParts .cmake · h.text) hcomplete).trans (h.ofParts_parts htrim))

/-- The lines of a header's log: the header gives its diagnostic, and it goes on with no message above. -/
theorem ofLines_append_header (above below : List Text) : ofLines (above ++ h.text :: below) =
    ofLines above ++ h.diagnostic ((continuation below).getD h.severity.madeUp) :: ofLines below := by
  have hafresh : StartAfresh (h.text :: below) := by
    rintro l hl
    obtain rfl := Option.some.inj hl
    rfl
  rw [ofLines_append hafresh, ofLines, h.ofLine?_header]
  rfl

end CMakeHeader

/-- **Headers of CMake are found** in every log without escape characters, each with the message below it: the
block of indented lines behind any blank ones, trimmed and joined by spaces, or failing that one made up from
the severity. The other diagnostics are those of the lines above and of the lines below. -/
theorem cmake_header_found (h : CMakeHeader) {log : Text} {above below : List Text} (hescape : '\x1b' ∉ log)
    (hlog : lines log = above ++ h.text :: below) :
    (∀ gap block rest, below = gap ++ (block ++ rest) → (∀ l ∈ gap, allBlank l) → block ≠ [] →
      (∀ l ∈ block, allBlank l = false ∧ isIndented l) →
      (∀ l ∈ rest.head?, allBlank l ∨ isIndented l = false) →
      SortedByPlace (ofLines (above.map trimEnd) ++
        h.diagnostic (join " " (block.map trim)) :: ofLines (below.map trimEnd)) (extract log)) ∧
    (StartAfresh below → SortedByPlace (ofLines (above.map trimEnd) ++
      h.diagnostic h.severity.madeUp :: ofLines (below.map trimEnd)) (extract log)) := by
  have htext : trimEnd h.text = h.text := dropEnd_of_getLast? h.getLast?_text
  have hlines : ofLines (logLines log) = ofLines (above.map trimEnd) ++
      h.diagnostic ((continuation below).getD h.severity.madeUp) :: ofLines (below.map trimEnd) := by
    rw [logLines_of_escapeless hescape, hlog, List.map_append, List.map_cons, htext, h.ofLines_append_header,
      continuation_map_trimEnd]
  have hsorted := sortedByPlace_extract log
  rw [hlines] at hsorted
  refine ⟨?_, fun hafresh => ?_⟩
  · rintro gap block rest rfl hgap hne hblock hrest
    rwa [continuation_of_block hgap hne hblock hrest] at hsorted
  · rwa [continuation_of_startAfresh hafresh] at hsorted

/-- A header with a message behind a blank line, and one that goes without; the file of the latter looks like a
place of Visual C++'s. -/
theorem cmake_header_found_twice : ∃ e w : CMakeHeader, ∃ log : Text,
    e.text = "CMake Error (dev) at b.cmake:2 (find(y):".toList ∧
    w.text = "CMake Warning at c(1):4294967295 ():".toList ∧
    log = "a.cpp:1: note: x\n".toList ++ e.text ++ "\n\n  one \n\ttwo: 3\n\n".toList ++ w.text ++ "\r\nend".toList ∧
    SortedByPlace (ofLines ["a.cpp:1: note: x".toList] ++ e.diagnostic "one two: 3" ::
      ofLines [[], "  one".toList, "\ttwo: 3".toList, [], w.text, "end".toList]) (extract log) ∧
    SortedByPlace (ofLines ["a.cpp:1: note: x".toList, e.text, [], "  one".toList, "\ttwo: 3".toList, []] ++
      w.diagnostic "configuration warning" :: ofLines ["end".toList]) (extract log) := by
  let e : CMakeHeader :=
    { severity := .error, dev := true, file := "b.cmake", line := 2, context := "find(y"
      file_ne_nil := by decide +kernel, file_trimmed := by decide +kernel, file_colon := by decide +kernel
      file_slashed := by decide +kernel, file_not_here := by decide +kernel, line_pos := by decide
      context_closed := by decide +kernel }
  let w : CMakeHeader :=
    { severity := .warning, dev := false, file := "c(1)", line := 4294967295, context := ""
      file_ne_nil := by decide +kernel, file_trimmed := by decide +kernel, file_colon := by decide +kernel
      file_slashed := by decide +kernel, file_not_here := by decide +kernel, line_pos := by decide
      context_closed := by decide +kernel }
  let log : Text :=
    "a.cpp:1: note: x\n".toList ++ e.text ++ "\n\n  one \n\ttwo: 3\n\n".toList ++ w.text ++ "\r\nend".toList
  let block : List Text := ["  one ", "\ttwo: 3"]
  have hescape : '\x1b' ∉ log := by decide +kernel
  have he : lines log = ["a.cpp:1: note: x".toList] ++ e.text :: ([[]] ++ (block ++ [[], w.text, "end".toList])) := by
    decide +kernel
  have hw : lines log = (["a.cpp:1: note: x".toList] ++ e.text :: ([[]] ++ (block ++ [[]]))) ++
      w.text :: ["end".toList] := by
    decide +kernel
  have hblock := (cmake_header_found e hescape he).1 [[]] block _ rfl (by decide +kernel) (by decide +kernel)
    (by decide +kernel) (by decide +kernel)
  have hnone := (cmake_header_found w hescape hw).2 (by decide +kernel)
  have hmessage : join " " (block.map trim) = "one two: 3".toList := by decide +kernel
  have hbelow : ([[]] ++ (block ++ [[], w.text, "end".toList])).map trimEnd =
      [[], "  one".toList, "\ttwo: 3".toList, [], w.text, "end".toList] := by decide +kernel
  have habove : (["a.cpp:1: note: x".toList] ++ e.text :: ([[]] ++ (block ++ [[]]))).map trimEnd =
      ["a.cpp:1: note: x".toList, e.text, [], "  one".toList, "\ttwo: 3".toList, []] := by decide +kernel
  rw [hmessage, hbelow] at hblock
  rw [habove] at hnone
  exact ⟨e, w, log, by decide +kernel, by decide +kernel, rfl, hblock, hnone⟩

end Diagnostic

end BuildMender
