import BuildMender.Dependency
import BuildMender.FileView
import BuildMender.Text.Case
import BuildMender.Text.Line

/-!
# Build caches

Configuring a build leaves a cache file in the build directory, with lines of the form
`KEY:TYPE=VALUE`. Reading it gives the places of the packages that were found. A line of another form
says nothing, and a package whose value says that it was not found gives a warning.

Looking for build directories and checking the places of packages ask the file view only.
-/

namespace BuildMender.Dependency

open Text

/-- What reading a cache gives. -/
structure CacheReport where
  /-- Whether there was a cache to read. -/
  success : Bool
  roots : Roots := .empty
  warnings : List Text := []
  errors : List Text := []
deriving Inhabited

namespace Cache

/-- The name of the cache file in a build directory. -/
def fileName : Text := "CMakeCache.txt"

/-! ### Lines -/

/-- **The key and the value of a trimmed line** of the form `KEY:TYPE=VALUE`: the key starts with
neither a blank nor a number sign and holds neither a colon nor an equals sign, the type is ASCII
letters and underscores. -/
def keyAndValue? (line : Text) : Option (Text × Text) :=
  let key := line.takeWhile fun c => c ≠ ':' && c ≠ '='
  match key with
  | [] => none
  | c :: _ =>
    if c = '#' || isBlank c then none
    else
      (after? ":" (line.dropWhile fun c => c ≠ ':' && c ≠ '=')).bind fun rest =>
        (valuePart? rest).map fun value => (key, value)
where
  /-- The text after the type and the equals sign. -/
  valuePart? (t : Text) : Option Text :=
    let isType := fun c => isAsciiLetter c || c = '_'
    if (t.takeWhile isType).isEmpty then none else after? "=" (t.dropWhile isType)

/-- Whether a trimmed line is a comment. -/
def isComment (line : Text) : Bool := startsWith "#" line || startsWith "//" line

/-- Whether a trimmed value says that the package was not found. -/
def isUnset (value : Text) : Bool := value.isEmpty || endsWith "-NOTFOUND" value

/-- The package a line is about, and its value. -/
def assignment? (line : Text) : Option (Dependency × Text) :=
  let line := trim line
  if line.isEmpty || isComment line then none
  else (keyAndValue? line).bind fun (key, value) => (ofCacheKey? (trim key)).map fun k => (k, trim value)

/-- The warning about a package that was not found. -/
def unsetWarning (k : Dependency) : Text :=
  k.label ++ " (" ++ k.cacheKey ++ ") is not set in the cache"

/-- A report with what one line says added to it. -/
def addLine (report : CacheReport) (line : Text) : CacheReport :=
  match assignment? line with
  | none => report
  | some (k, value) =>
    if isUnset value then { report with warnings := report.warnings ++ [unsetWarning k] }
    else { report with roots := report.roots.set k (some ⟨value⟩) }

/-- **What the text of a cache says.** -/
def parse (content : Text) : CacheReport :=
  (lines content).foldl addLine { success := true }

/-! ### Files -/

/-- A report of failure. -/
def failed (reason : Text) : CacheReport := { success := false, errors := [reason] }

/-- What the cache of a build directory says. -/
def ofDirectory (files : FileView) (dir : Path) : CacheReport :=
  let path := dir.join ⟨fileName⟩
  if files.isFile path then
    match files.read path with
    | .ok content => parse content
    | .error reason => failed ("Failed to read " ++ path.text ++ ": " ++ reason)
  else failed (fileName ++ " not found in " ++ dir.text ++ "; run configure first")

/-- One warning for each package whose place is missing or is no directory. -/
def placeWarnings (files : FileView) (roots : Roots) : List Text :=
  roots.entries.filterMap fun (k, p) =>
    if !files.exists? p then some (k.label ++ " path does not exist: " ++ p.text)
    else if !files.isDirectory p then some (k.label ++ " path is not a directory: " ++ p.text)
    else none

/-- Whether a directory is named like a build directory. -/
def isBuildName (name : Text) : Bool := occurs "build" (lowercase name)

/-- **The build directories directly below a root**: those named like one that hold a cache. -/
def buildDirectories (files : FileView) (root : Path) : List Path :=
  match files.list root with
  | .error _ => []
  | .ok entries =>
    (entries.filter fun e =>
      e.kind = .directory && isBuildName e.name && files.isFile (e.path.join ⟨fileName⟩)).map (·.path)

end Cache

end BuildMender.Dependency
