import BuildMender.Convention
import BuildMender.SourceFile
import BuildMender.Text.Line
import BuildMender.Text.Place

/-!
# Checking a file against the conventions

`Convention.check` looks at one file: its path, its content, and the conventions the project keeps.
Only headers and implementations are looked at. The violations come in a fixed order, which is that
of the four conditions below.

Two of the conditions rest on what the content looks like: `showsInterface` finds the classes and
calls of user interface code, `hasSignals` those of signals and slots.
-/

namespace BuildMender.Convention

open Text

/-! ### Guards -/

/-- Two lines in a row that are the opening of a guard by hand: `#ifndef X`, then `#define X`. -/
def isGuardPair (first second : Text) : Bool :=
  match after? "#ifndef" first, after? "#define" second with
  | some guard, some defined =>
    !(trim guard).isEmpty && (fields defined).head? == some (trim guard)
  | _, _ => false

/-- Whether two neighbours in a list of lines open a guard. -/
def hasGuardPair : List Text → Bool
  | a :: b :: more => isGuardPair a b || hasGuardPair (b :: more)
  | _ => false

/-- **A guarded header**: some line is the directive, or two neighbouring lines among those that are
not blank open a guard by hand. A blank directive is no directive. -/
def hasGuard (directive content : Text) : Bool :=
  let directive := trim directive
  (!directive.isEmpty && (lines content).any fun l => trim l == directive) ||
    hasGuardPair (((lines content).map trim).filter fun l => !l.isEmpty)

/-! ### Signs of user interface code and of signals -/

/-- The classes whose mention shows user interface code. -/
def interfaceClasses : List Text := ["QWidget", "QDialog", "QMainWindow", "QDockWidget", "QFrame"]

/-- **Signs of user interface code**: one of the widget classes, a name in the namespace `Ui`, or a
call of `setupUi`. -/
def showsInterface (content : Text) : Bool :=
  anywhere (fun previous rest =>
    interfaceClasses.any (fun w => wordHere w previous rest) ||
    boundary previous rest &&
      (((after? "Ui::" rest).any fun r => r.head?.any isWordChar) ||
        (after? "setupUi" rest).any fun r => startsWith "(" (trimStart r)))
    content

/-- The macros whose mention shows signals or slots. -/
def signalMacros : List Text := ["Q_OBJECT", "Q_SIGNALS", "Q_SLOTS"]

/-- The rest of a line after an access word and one space, or all of it. -/
def afterAccess (t : Text) : Text :=
  ((after? "public " t).orElse fun _ =>
    (after? "private " t).orElse fun _ => after? "protected " t).getD t

/-- The heading of a section of signals or slots, after any blanks and an access word. -/
def isSignalHeading (t : Text) : Bool :=
  let t := afterAccess (trimStart t)
  ((after? "signals" t).orElse fun _ => after? "slots" t).any fun r => startsWith ":" (trimStart r)

/-- A call that emits a signal: the word `emit`, a name, an opening parenthesis. -/
def isEmission (rest : Text) : Bool :=
  ((after? "emit" rest).bind (afterSome? isBlank)).any fun r =>
    (afterSome? isWordChar r).any fun r => startsWith "(" (trimStart r)

/-- **Signs of signals and slots**: one of the macros, the heading of a section at the start of a
line, or the emission of a signal. -/
def hasSignals (content : Text) : Bool :=
  anywhere (fun previous rest =>
    signalMacros.any (fun w => wordHere w previous rest) ||
    (atLineStart previous && isSignalHeading rest) ||
    (boundary previous rest && isEmission rest))
    content

/-! ### The check -/

/-- The line that includes the generated meta-object source of a file. -/
def metaObjectLine (settings : Settings) (p : Path) : Text :=
  "#include \"" ++ settings.metaObjectPrefix ++ p.stem?.getD [] ++ ".cpp\""

/-- The configured header suffix without dots in front. -/
def Settings.suffix (settings : Settings) : Text := dropStart (· = '.') settings.headerSuffix

/-- The path a header should have. -/
def renamed (settings : Settings) (p : Path) : Path := p.withExtension settings.suffix

/-- The header has a suffix of its own. -/
def breaksSuffix (settings : Settings) (p : Path) : Bool :=
  settings.checkHeaderSuffix && SourceFile.isHeader p &&
    !sameAscii (SourceFile.extension p) settings.suffix

/-- The header has no guard. -/
def breaksGuard (settings : Settings) (p : Path) (content : Text) : Bool :=
  settings.checkIncludeGuard && SourceFile.isHeader p && !hasGuard settings.includeGuard content

/-- User interface code lies outside its directory. -/
def breaksInterfaceDir (settings : Settings) (p : Path) (content : Text) : Bool :=
  settings.checkInterfaceDir && showsInterface content &&
    !SourceFile.isUnder settings.interfaceDir p

/-- An implementation with signals lacks the include of its meta-object source. -/
def breaksMetaObject (settings : Settings) (p : Path) (content : Text) : Bool :=
  settings.checkMetaObjectInclude && SourceFile.isImplementation p && hasSignals content &&
    !(lines content).any fun l => trim l == metaObjectLine settings p

/-- What to do about a broken convention. -/
def advice (settings : Settings) (p : Path) : Convention → Text
  | .headerSuffix =>
    "Rename " ++ p.fileName?.getD [] ++ " to " ++ (renamed settings p).fileName?.getD [] ++
      " and update its includes"
  | .includeGuard => "Add `" ++ settings.includeGuard ++ "` at the top of " ++ p.fileName?.getD []
  | .interfaceDir =>
    "Move " ++ p.fileName?.getD [] ++ " into " ++ dropEnd (· = '/') settings.interfaceDir ++ "/"
  | .metaObjectInclude =>
    "Append `" ++ metaObjectLine settings p ++ "` at the end of " ++ p.fileName?.getD []

/-- Whether a header or an implementation breaks a convention. -/
def breaks (settings : Settings) (p : Path) (content : Text) : Convention → Bool
  | .headerSuffix => breaksSuffix settings p
  | .includeGuard => breaksGuard settings p content
  | .interfaceDir => breaksInterfaceDir settings p content
  | .metaObjectInclude => breaksMetaObject settings p content

/-- **The violations of a file**, one for each convention it breaks. A file that is neither a header
nor an implementation breaks none. -/
def check (settings : Settings) (p : Path) (content : Text) : List Violation :=
  if SourceFile.isHeader p || SourceFile.isImplementation p then
    (all.filter (breaks settings p content)).map fun k => k.violation (advice settings p k)
  else []

end BuildMender.Convention
