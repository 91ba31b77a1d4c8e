import BuildMender.Convention
import BuildMender.Patch

/-!
# What is reported

Besides results that stand for themselves, two things are put together only to be reported: what a
check found in a file, and what became of a patch.
-/

namespace BuildMender

/-- What a check found in a file. -/
structure FileCheck where
  path : Path
  violations : List Violation
  /-- Whether the file was mended. -/
  fixed : Bool := false
deriving DecidableEq, Inhabited

/-- What became of a patch. -/
structure PatchSummary where
  id : PatchId
  patch : Patch
  /-- When the patch was made. -/
  createdAt : Text
  nonCompliantFiles : List Text := []
  validationError : Option Text := none
  applied : Option ApplyReport := none
deriving DecidableEq, Inhabited

end BuildMender
