import BuildMender.FileTask
import BuildMender.Process
import BuildMender.Progress

/-!
# Workspaces

What the work on a project changes: the files on disk, the calls of version control, and the events
that were shown. The paths that the tasks of a patch reach are noted as well.
-/

namespace BuildMender

/-- The state of the world around a project. -/
structure Workspace where
  disk : Disk
  /-- The commands of version control. -/
  runner : Runner := {}
  /-- The events so far. -/
  events : List Progress := []
  /-- The paths reached by tasks so far. -/
  reached : List Path := []
deriving Inhabited

namespace Workspace

/-- An event shown. -/
def emit (w : Workspace) (e : Progress) : Workspace := { w with events := w.events ++ [e] }

/-- Events shown. -/
def emitAll (w : Workspace) (es : List Progress) : Workspace := { w with events := w.events ++ es }

/-- A task run on the disk, with the paths that it reaches noted. -/
def perform {ε α : Type} (w : Workspace) (t : FileTask ε α) : Except ε α × Workspace :=
  ((t.run w.disk).1, { w with disk := (t.run w.disk).2, reached := w.reached ++ t.reached w.disk })

end Workspace

end BuildMender
