import BuildMender.Host.Job
import BuildMender.Host.Quotation

/-!
# Choices

Some options are followed by one of a few words. A word can be shortened as long as everything it may be
short for means the same; where it is short for nothing or for different things, the words there are get
listed.
-/

namespace BuildMender.Host

/-- Words and their meanings. Those that mean the same stand side by side. -/
abbrev Choice (α : Type) := List (Text × α)

namespace Choice

variable {α : Type} [DecidableEq α]

/-- The words of a text, which all mean the same. -/
def ofWords (t : Text) (a : α) : Choice α := (Text.split (· = ' ') t).map fun w => (w, a)

/-- **What a word means**, or the beginning of one; or else what is wrong with it. -/
def find (c : Choice α) (w : Raw) : Except Raw α :=
  match c.lookup w, c.filter fun e => Text.startsWith w e.1 with
  | some a, _ => .ok a
  | none, [] => .error "invalid".toList
  | none, (_, a) :: es => if es.all fun e => e.2 = a then .ok a else .error "ambiguous".toList

/-- The lines that list the words, those that mean the same on one line. -/
def lines (c : Choice α) : Raw :=
  "Valid arguments are:\n".toList ++
    (c.splitBy fun a b => a.2 = b.2).flatMap fun group =>
      "  - ".toList ++ (List.intercalate ", ".toList (group.map fun e => Quotation.single e.1)) ++ ['\n']

/-- What a word behind an option means. Where that is not clear the words are listed, and the job ends in
its own way. -/
def read (c : Choice α) (option : Text) (w : Raw) (refuse : Job α) : Job α := do
  match c.find w with
  | .ok a => return a
  | .error problem =>
    Job.complain (problem ++ " argument ".toList ++ Quotation.single w ++ " for ".toList ++
      Quotation.single option)
    Job.act (Act.complain c.lines)
    refuse

end Choice

end BuildMender.Host
