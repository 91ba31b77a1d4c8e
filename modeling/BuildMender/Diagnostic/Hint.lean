import BuildMender.Convention
import BuildMender.Text.Place

/-!
# Messages that hint at a convention

Some messages of a compiler or linker are what a broken convention looks like from outside: a header
without a guard shows up as a redefinition, a missing meta-object source as an undefined vtable. Each
convention has one rule for the messages that hint at it; the rules are tried in the order of
`Hint.order`, and the first that holds decides. Letters match without regard to case.
-/

namespace BuildMender.Hint

open Text

/-- A redefinition is reported. -/
def ofGuard (message : Text) : Bool :=
  anywhere (fun previous rest =>
    foldedWordHere "redefinition" previous rest ||
      foldedWordHere "defined more than once" previous rest)
    message

/-- Something a meta-object source defines is missing. -/
def ofMetaObject (message : Text) : Bool :=
  ["vtable for".toList, "staticmetaobject".toList, "qt_metacall".toList, "qt_metacast".toList,
    "metaobject()".toList].any fun p => occursFolded p message

/-- The text after the name of a generated interface header, `ui_` and a word and `.h`. -/
def afterInterfaceHeader? (previous : Option Char) (rest : Text) : Option Text :=
  if boundary previous rest then
    (((afterFolded? "ui_" rest).bind (afterSome? isWordChar)).bind (afterFolded? ".h")).filter
      (boundary (some 'h'))
  else none

/-- The text after the extension of an interface description. -/
def afterInterfaceExtension? (rest : Text) : Option Text :=
  (afterFolded? ".ui" rest).filter (boundary (some 'i'))

/-- One of some phrases stands further on in the line. -/
def laterInLine (phrases : List Text) (rest : Text) : Bool :=
  phrases.any fun p => occursFolded p (restOfLine rest)

/-- A generated interface header or an interface description was not found. -/
def ofInterfaceDir (message : Text) : Bool :=
  anywhere (fun previous rest =>
    (afterInterfaceHeader? previous rest).any
        (laterInLine ["no such file".toList, "not found".toList]) ||
      (afterInterfaceExtension? rest).any
        (laterInLine ["not found".toList, "does not exist".toList, "cannot open".toList]))
    message

/-- The text without its first character, if that satisfies `p`. -/
def dropOne (p : Char → Bool) : Text → Text
  | c :: cs => if p c then cs else c :: cs
  | [] => []

/-- After the name of a missing header: a closing quote or bracket and a colon, either of which may
be absent, then blanks and the complaint. -/
def isMissing (rest : Text) : Bool :=
  (afterSome? isBlank (dropOne (· = ':') (dropOne (fun c => c = '\x27' || c = '"' || c = '>') rest))).any
    fun r => (afterFolded? "file not found" r).isSome || (afterFolded? "no such file" r).isSome

/-- A header with a suffix other than the usual one was not found. -/
def ofHeaderSuffix (message : Text) : Bool :=
  anywhere (fun _ rest =>
    [".h".toList, ".hh".toList, ".hxx".toList].any fun ext => (afterFolded? ext rest).any isMissing)
    message

/-- Whether a message hints at a convention. -/
def suggests (message : Text) : Convention → Bool
  | .includeGuard => ofGuard message
  | .metaObjectInclude => ofMetaObject message
  | .interfaceDir => ofInterfaceDir message
  | .headerSuffix => ofHeaderSuffix message

/-- What to do about a convention that a message hints at. -/
def advice : Convention → Text
  | .includeGuard =>
    "Add the include-guard directive at the top of the header that is included twice"
  | .metaObjectInclude =>
    "Include the generated meta-object source (moc_<name>.cpp) at the end of the implementation file"
  | .interfaceDir =>
    "Move the UI class and its form into the configured UI directory so the UI compiler picks it up"
  | .headerSuffix => "Rename the header to the project\x27s header suffix and update the include"

/-- The order in which the conventions are tried. -/
def order : List Convention := [.includeGuard, .metaObjectInclude, .interfaceDir, .headerSuffix]

/-- **The convention a message hints at**: the first in order whose rule holds. -/
def ofMessage (message : Text) : Option Violation :=
  (order.find? (suggests message)).map fun k => k.violation (advice k)

end BuildMender.Hint
