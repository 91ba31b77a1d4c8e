import BuildMender.Json
import BuildMender.Request

/-!
# Backends

A backend answers an envelope with text, or fails. Why it failed decides whether asking again could
help. A backend here is a list of answers still to come; it keeps the envelopes it received, and has
nothing to say once the answers are used up.
-/

namespace BuildMender

/-- Why a backend gave no answer. -/
inductive BackendError where
  /-- It ran and reported failure. -/
  | failed (message : Text) (exitCode : Option Int)
  | timeout (seconds : Nat)
  /-- It answered with blanks only. -/
  | emptyResponse
  /-- There is none, or it cannot be started. -/
  | notConfigured (message : Text)
  /-- Talking to it failed. -/
  | transport (message : Text)
deriving DecidableEq, Inhabited

namespace BackendError

/-- Whether asking again could help. -/
def isTransient : BackendError → Bool
  | .timeout _ | .transport _ => true
  | _ => false

/-- What went wrong, in words. -/
def message : BackendError → Text
  | .failed m (some code) => "AI backend exited with status " ++ Text.integer code ++ ": " ++ m
  | .failed m none => "AI backend failed: " ++ m
  | .timeout seconds => "AI backend did not answer within " ++ Text.decimal seconds ++ "s"
  | .emptyResponse => "AI backend returned an empty response"
  | .notConfigured m => "AI backend not available: " ++ m
  | .transport m => "AI backend I/O error: " ++ m

/-- An error as an object. -/
def toJson : BackendError → Json
  | .failed m code =>
    .object [("kind", .string "failed"), ("message", .string m), ("exit_code", .ofOption .number code)]
  | .timeout seconds => .object [("kind", .string "timeout"), ("seconds", .nat seconds)]
  | .emptyResponse => .object [("kind", .string "empty_response")]
  | .notConfigured m => .object [("kind", .string "not_configured"), ("message", .string m)]
  | .transport m => .object [("kind", .string "io"), ("message", .string m)]

end BackendError

/-- A backend with answers to come. -/
structure Backend where
  name : Text := "MockBackend"
  /-- The answers still to come. -/
  answers : List (Except BackendError Text) := []
  /-- The envelopes received. -/
  received : List Envelope := []
deriving Inhabited

namespace Backend

/-- What a backend says when its answers are used up. -/
def exhausted : BackendError := .transport "MockBackend: No more responses in queue"

/-- The answer to an envelope. -/
def ask (b : Backend) (e : Envelope) : Except BackendError Text × Backend :=
  match b.answers with
  | [] => (.error exhausted, { b with received := b.received ++ [e] })
  | a :: more => (a, { b with answers := more, received := b.received ++ [e] })

end Backend

end BuildMender
