import BuildMender.Proofs.Diagnostic.LogLine
import BuildMender.Proofs.Text.Class
import BuildMender.Proofs.Text.Cut

/-!
# The pieces of a message on a line

A tool writes a message on a line piece by piece: the name of a file, numbers, a word for the severity, the
message itself. A reader finds the pieces again if each ends where a character stands that it cannot hold.
Here are the laws for the pieces, each with any text behind it, and the last step that all dialects share:
a line that is read gives one diagnostic, and nothing is changed in it
(`BuildMender.Diagnostic.extract_of_ofLine?`).

The one piece that can hold the character it ends at is the name of a file with the letter of a drive
(`BuildMender.Diagnostic.NamesFile`).
-/

namespace BuildMender

open Text LinePattern

variable {t rest name : Text}

/-! ### Words for the severity -/

/-- The words that compilers have for the severity. -/
inductive SeverityWord where
  | fatalError
  | error
  | warning
  | note
  | remark
deriving DecidableEq

namespace SeverityWord

/-- The word as it is written. -/
def text : SeverityWord → Text
  | .fatalError => "fatal error"
  | .error => "error"
  | .warning => "warning"
  | .note => "note"
  | .remark => "remark"

/-- The level the word stands for. -/
def level : SeverityWord → Severity
  | .fatalError | .error => .error
  | .warning => .warning
  | .note | .remark => .info

theorem ofWord_text (w : SeverityWord) : Severity.ofWord w.text = w.level := by
  cases w <;> decide

/-- Each word is told from the others by its first letter. -/
theorem word?_gccWords (w : SeverityWord) (rest : Text) :
    word? gccWords (w.text ++ rest) = some (w.text, rest) := by
  cases w <;> rfl

theorem word?_msvcWords {w : SeverityWord} (hw : w ≠ .remark) (rest : Text) :
    word? msvcWords (w.text ++ rest) = some (w.text, rest) := by
  cases w with
  | remark => exact absurd rfl hw
  | _ => rfl

theorem head?_text (w : SeverityWord) (rest : Text) : ∀ c ∈ (w.text ++ rest).head?, isBlank c = false := by
  have hletter : ∃ c cs, w.text = c :: cs ∧ isBlank c = false := by
    cases w <;> exact ⟨_, _, rfl, by decide⟩
  obtain ⟨c, cs, hcons, hc⟩ := hletter
  rw [hcons]
  rintro d hd
  obtain rfl := Option.some.inj hd
  exact hc

end SeverityWord

namespace LinePattern

/-! ### Blanks -/

theorem trimStart_space_cons (h : ∀ c ∈ t.head?, isBlank c = false) : trimStart (' ' :: t) = t := by
  rw [trimStart, dropStart, List.dropWhile_cons_of_pos rfl]
  exact dropStart_of_head? h

/-! ### Numbers -/

/-- Some digits are read up to the first character that is none. -/
theorem digits?_append {digits : Text} (hne : digits ≠ []) (hdigits : ∀ c ∈ digits, isAsciiDigit c)
    {stop : Char} (hstop : isDigit stop = false) (rest : Text) :
    digits? (digits ++ stop :: rest) = some (digits, stop :: rest) := by
  have hall : ∀ c ∈ digits, isDigit c := fun c hc => isDigit_of_isAsciiDigit (hdigits c hc)
  have hstop' : ¬isDigit stop := by simp [hstop]
  rw [digits?, List.takeWhile_append_of_pos hall, List.dropWhile_append_of_pos hall,
    List.takeWhile_cons_of_neg hstop', List.dropWhile_cons_of_neg hstop', List.append_nil,
    if_neg (by simpa using hne)]

theorem digits?_numeral (n : UInt32) {stop : Char} (hstop : isDigit stop = false) (rest : Text) :
    digits? (Diagnostic.numeral n ++ stop :: rest) = some (Diagnostic.numeral n, stop :: rest) :=
  digits?_append (decimal_ne_nil _) (fun _ => isAsciiDigit_of_mem_decimal) hstop rest

theorem number_numeral (n : UInt32) : number (Diagnostic.numeral n) = some n := by
  have hbound : n.toNat < bound32 := n.toNat_lt
  rw [number, Diagnostic.numeral, unsigned?_decimal hbound, Option.map_some, UInt32.ofNat_toNat]

/-! ### Names -/

/-- A name is read up to the character that ends it. -/
theorem upTo?_append {stop : Char} (hne : name ≠ []) (hstart : ∀ c ∈ name.head?, isBlank c = false)
    (hstop : stop ∉ name) : upTo? stop (name ++ stop :: rest) = some (name, rest) := by
  have hdrop := dropWhile_append_stop hstop rest
  have htake := takeWhile_append_stop hstop rest
  obtain ⟨c, cs, rfl⟩ := List.exists_cons_of_ne_nil hne
  have hc : ¬(c = stop || isBlank c) := by
    have hcstop : c ≠ stop := fun heq => hstop (heq ▸ List.mem_cons_self)
    simp [hcstop, hstart c rfl]
  rw [List.cons_append] at hdrop htake ⊢
  rw [upTo?, if_neg hc, hdrop]
  exact congrArg (fun n => some (n, rest)) htake

end LinePattern

namespace Diagnostic

/-! ### Pieces of a line -/

/-- Text without line feeds and escape characters. -/
def Visible (t : Text) : Prop := ∀ c ∈ t, c ≠ '\n' ∧ c ≠ '\x1b'

instance (t : Text) : Decidable (Visible t) := List.decidableBAll _ t

@[simp] theorem visible_append : Visible (t ++ rest) ↔ Visible t ∧ Visible rest := List.forall_mem_append

theorem not_mem_numeral {c : Char} (hc : isAsciiDigit c = false) (n : UInt32) : c ∉ numeral n :=
  not_mem_decimal hc n.toNat

theorem visible_numeral (n : UInt32) : Visible (numeral n) := fun _ hc =>
  ⟨fun h => not_mem_numeral rfl n (h ▸ hc), fun h => not_mem_numeral rfl n (h ▸ hc)⟩

theorem visible_word (w : SeverityWord) : Visible w.text := by
  cases w <;> decide

/-- **A piece of a line**: some visible text that neither begins nor ends with a blank. -/
structure IsPiece (t : Text) : Prop where
  ne_nil : t ≠ []
  start : ∀ c ∈ t.head?, isBlank c = false
  last : ∀ c ∈ t.getLast?, isBlank c = false
  visible : Visible t

theorem isPiece_iff : IsPiece t ↔ t ≠ [] ∧ t.head?.all (!isBlank ·) ∧ t.getLast?.all (!isBlank ·) ∧ Visible t := by
  simp only [Option.all_eq_true, Bool.not_eq_true']
  exact ⟨fun h => ⟨h.ne_nil, h.start, h.last, h.visible⟩, fun ⟨hne, hstart, hlast, h⟩ => ⟨hne, hstart, hlast, h⟩⟩

instance (t : Text) : Decidable (IsPiece t) := decidable_of_iff' _ isPiece_iff

theorem IsPiece.start_append (h : IsPiece t) (rest : Text) : ∀ c ∈ (t ++ rest).head?, isBlank c = false := by
  rw [List.head?_append_of_ne_nil t h.ne_nil]
  exact h.start

/-- What a text ends with is the end of the piece behind it. -/
theorem IsPiece.exists_getLast? (h : IsPiece t) (front : Text) :
    ∃ c ∈ (front ++ t).getLast?, isBlank c = false := by
  have hlast := List.getLast?_eq_some_getLast h.ne_nil
  exact ⟨_, (List.getLast?_append_of_ne_nil front h.ne_nil).trans hlast, h.last _ hlast⟩

/-- **The name of a file**, which holds no colon but the one behind the letter of a drive; what is on the
drive begins with no blank. -/
inductive NamesFile : Text → Prop where
  | plain {name : Text} (h : ':' ∉ name) : NamesFile name
  | onDrive {drive : Char} {name : Text} (hdrive : isAsciiLetter drive) (hne : name ≠ [])
      (hstart : ∀ c ∈ name.head?, isBlank c = false) (h : ':' ∉ name) : NamesFile (drive :: ':' :: name)

/-- **What a compiler has to say** at a place in a file. -/
structure CompilerMessage where
  file : Text
  line : UInt32
  column : Option UInt32
  severity : SeverityWord
  message : Text
  file_isPiece : IsPiece file
  file_named : NamesFile file
  line_pos : 0 < line
  column_pos : ∀ c ∈ column, 0 < c
  message_isPiece : IsPiece message

namespace CompilerMessage

theorem orOne_line (m : CompilerMessage) : orOne (some m.line) = m.line := by
  simp [orOne, Option.filter, m.line_pos]

theorem orOne_column (m : CompilerMessage) : orOne m.column = m.column.getD 1 := by
  cases h : m.column with
  | none => rfl
  | some c => simp [orOne, Option.filter, m.column_pos c h]

theorem number_column (m : CompilerMessage) : (m.column.map numeral).bind number = m.column := by
  cases m.column with
  | none => rfl
  | some c => exact number_numeral c

theorem trim_message (m : CompilerMessage) : trim m.message = m.message :=
  trim_of_ends m.message_isPiece.start m.message_isPiece.last

end CompilerMessage

/-! ### Lines -/

/-- **A line that is read gives one diagnostic.** -/
theorem extract_of_ofLine? {dialect : Dialect} {parts : LinePattern}
    (hend : ∃ c ∈ t.getLast?, isBlank c = false) (hvisible : Visible t)
    (hread : LinePattern.ofLine? t = some (dialect, parts)) :
    extract t = [ofParts dialect (complete dialect parts []) t] := by
  have hlines : logLines t = [t] :=
    logLines_of_line hend (fun h => (hvisible _ h).1 rfl) fun h => (hvisible _ h).2 rfl
  have hblank : allBlank t = false := by
    obtain ⟨c, hc, hblank⟩ := hend
    rw [allBlank, List.all_eq_false]
    exact ⟨c, List.mem_of_getLast? hc, by simp [hblank]⟩
  have hline : ofLine? t [] = some (ofParts dialect (complete dialect parts []) t) := by
    rw [ofLine?, hblank, if_neg Bool.false_ne_true, hread]
    rfl
  rw [extract, hlines, ofLines, ofLines, hline]
  exact List.mergeSort_singleton _

end Diagnostic

end BuildMender
