import BuildMender.Disk
import BuildMender.Patch.Diff
import BuildMender.Patch.EditStep

/-!
# Patches

A patch is what a backend proposes: a unified diff, or a list of edit steps. It is kept with its text,
the files it is for, whether it keeps the conventions, and its status. A patch is pending until it is
applied, once; then it is valid or invalid for good.
-/

namespace BuildMender

/-- The two forms of a patch. -/
inductive PatchKind where
  | unifiedDiff
  | editInstructions
deriving DecidableEq, Inhabited

/-- The word for a form. -/
def PatchKind.label : PatchKind → Text
  | .unifiedDiff => "unified_diff"
  | .editInstructions => "edit_instructions"

/-- The form of a patch's text: a diff exactly if it has a diff's marks. -/
def PatchKind.ofText (t : Text) : PatchKind :=
  if Diff.hasMarkers t then .unifiedDiff else .editInstructions

/-- What a patch says. -/
inductive PatchContent where
  | unifiedDiff (diff : Text)
  | editInstructions (steps : List EditStep)
deriving DecidableEq, Inhabited

namespace PatchContent

/-- The form of a patch. -/
def kind : PatchContent → PatchKind
  | .unifiedDiff _ => .unifiedDiff
  | .editInstructions _ => .editInstructions

/-- **What a patch's text says.** -/
def ofText (t : Text) : PatchContent :=
  match PatchKind.ofText t with
  | .unifiedDiff => .unifiedDiff t
  | .editInstructions => .editInstructions (EditStep.parse t)

/-- The files a patch names, each once, in the order in which it names them. -/
def files : PatchContent → List Text
  | .unifiedDiff diff => Diff.targets diff
  | .editInstructions steps => (steps.map (·.file)).foldl Diff.insertNew []

end PatchContent

/-- Where a patch stands. -/
inductive PatchStatus where
  | pending
  | valid
  | invalid
deriving DecidableEq, Inhabited

/-- The word for a status. -/
def PatchStatus.label : PatchStatus → Text
  | .pending => "pending"
  | .valid => "valid"
  | .invalid => "invalid"

/-- A proposed change. -/
structure Patch where
  content : PatchContent
  /-- The text it was read from. -/
  raw : Text
  /-- The files it is for, from the root of the project. -/
  targets : List Text
  status : PatchStatus := .pending
  compliant : Bool
  /-- Whether it asks to be committed. -/
  autoCommit : Bool
deriving DecidableEq, Inhabited

/-- **A pending patch from its text.** Without targets of its own it is for the files it names. -/
def Patch.ofText (text : Text) (targets : List Text) (compliant : Bool) : Patch :=
  let content := PatchContent.ofText text
  { content := content
    raw := text
    targets := if targets.isEmpty then content.files else targets
    compliant := compliant
    autoCommit := compliant }

/-- The name a patch is known by. -/
abbrev PatchId := Text

/-- Why a patch is refused. -/
inductive PatchError where
  | notFound (id : PatchId)
  | alreadyResolved (id : PatchId) (status : PatchStatus)
  | noTargets
  | missingTarget (target : Text)
  | outsideRoot (target : Text)
  | missingDiffMarkers
  | noEditSteps
  | searchTextNotFound (file search : Text)
  | versionControl (operation reason : Text)
  | files (path : Path) (error : FileError)
deriving DecidableEq

/-- What is wrong, in words. -/
def PatchError.message : PatchError → Text
  | .notFound id => "Patch " ++ id ++ " not found"
  | .alreadyResolved id status =>
    "Patch " ++ id ++ " was already applied or rejected (status: " ++ status.label ++ ")"
  | .noTargets => "Patch names no target files"
  | .missingTarget target => "Target file does not exist: " ++ target
  | .outsideRoot target => "Target file is outside the project root: " ++ target
  | .missingDiffMarkers => "Unified diff is missing its @@/---/+++ markers"
  | .noEditSteps => "Edit instructions contain no edit steps"
  | .searchTextNotFound file search => "Search text not found in " ++ file ++ ": " ++ search
  | .versionControl operation reason => "git " ++ operation ++ " failed: " ++ reason
  | .files path error => "I/O error on " ++ path.text ++ ": " ++ error.message

/-- What became of the commit after a patch was applied. -/
inductive CommitOutcome where
  | skipped
  | committed (message : Text)
  | failed (reason : Text)
deriving DecidableEq, Inhabited

/-- What became of a patch that was applied. -/
structure ApplyReport where
  id : PatchId
  kind : PatchKind
  files : List Text
  commit : CommitOutcome
deriving DecidableEq, Inhabited

end BuildMender
