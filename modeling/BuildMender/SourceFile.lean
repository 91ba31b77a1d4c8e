import BuildMender.Path
import BuildMender.Text.Case

/-!
# Source files

What role a file plays in a plugin project is read off its path: the extension, two fixed file names,
and whether it lies below the directory for user interface code. A header and its implementation are
told apart by two families of extensions, and each is found from the other by exchanging the
extension for one of the other family (`SourceFile.siblings`).

Tools spell paths in their own ways; `SourceFile.normalize` gives the spelling with slashes that this
library uses for the files named in a build log or in a patch.
-/

namespace BuildMender.SourceFile

/-- The extensions of headers. -/
def headerExtensions : List Text := ["h", "hh", "hpp", "hxx"]

/-- The extensions of implementation files. -/
def implementationExtensions : List Text := ["c", "cc", "cpp", "cxx", "m", "mm"]

/-- The extensions of user interface descriptions. -/
def interfaceExtensions : List Text := ["ui", "qml", "qrc"]

/-- The extension of a path in lower case, empty when there is none. -/
def extension (p : Path) : Text := (p.extension?.map Text.lowercase).getD []

/-- Whether a path has the extension of a header. -/
def isHeader (p : Path) : Bool := headerExtensions.contains (extension p)

/-- Whether a path has the extension of an implementation file. -/
def isImplementation (p : Path) : Bool := implementationExtensions.contains (extension p)

/-- The names a directory setting is made of, whichever slash separates them. -/
def directoryNames (dir : Text) : List Text :=
  (Text.split (fun c => c = '/' || c = '\\') dir).filter fun n => !(n.isEmpty || n == ['.'])

/-- Whether one list stands somewhere inside another, without a gap. -/
def runIn (run : List Text) : List Text → Bool
  | [] => run.isEmpty
  | n :: ns => run.isPrefixOf (n :: ns) || runIn run ns

/-- **Lying below a directory**: the names of the directory stand in a row among the components of the
path's parent. No path lies below a directory without names. -/
def isUnder (dir : Text) (p : Path) : Bool :=
  let names := directoryNames dir
  !names.isEmpty &&
    runIn names (((p.parent?.map Path.components).getD []).map Path.Component.text)

/-- The role of a file within a plugin project. -/
inductive Kind where
  | header
  | implementation
  | interface
  | buildScript
  | other
deriving DecidableEq, Inhabited

/-- The word for a role. -/
def Kind.label : Kind → Text
  | .header => "header"
  | .implementation => "implementation"
  | .interface => "ui"
  | .buildScript => "build_script"
  | .other => "other"

/-- The name of the build description in each directory. -/
def buildDescription : Text := "CMakeLists.txt"

/-- The name of the file that lists build presets. -/
def presetList : Text := "CMakePresets.json"

/-- **The role of a file.** A build script is recognised first, then whatever lies below the interface
directory or is an interface description, and only then headers and implementations. -/
def kind (interfaceDir : Text) (p : Path) : Kind :=
  let name := p.fileName?.getD []
  let ext := extension p
  if name == buildDescription || name == presetList || ext == "cmake".toList then .buildScript
  else if interfaceExtensions.contains ext || isUnder interfaceDir p then .interface
  else if headerExtensions.contains ext then .header
  else if implementationExtensions.contains ext then .implementation
  else .other

/-- **The counterparts of a header or an implementation**: the same path with each extension of the
other family. -/
def siblings (p : Path) : List Path :=
  if isHeader p then implementationExtensions.map (p.withExtension ·)
  else if isImplementation p then headerExtensions.map (p.withExtension ·)
  else []

/-- The text without the dots that stand for the starting directory at its front. -/
def dropHere : Text → Text
  | '.' :: '/' :: rest => dropHere rest
  | t => t

/-- **The spelling of a path with slashes**: trimmed, each backslash turned into a slash, and no
leading `./`. -/
def normalize (raw : Text) : Text := dropHere (Text.replace '\\' '/' (Text.trim raw))

end BuildMender.SourceFile
