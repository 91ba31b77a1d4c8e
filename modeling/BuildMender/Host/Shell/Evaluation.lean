import BuildMender.Host.Shell.Simple

/-!
# Commands carried out

`Evaluation.evaluate` carries out a command: each kind of command in its own way, and what all of them have
in common around it. A failure that nobody looks at ends the shell if a setting says so; only commands that
may be processes of their own fail in this sense.

The commands inside a command are carried out by a parameter, and `evaluator` ties the knot, to a depth
that no script has.
-/

namespace BuildMender.Host.Evaluation

/-! ### Loops -/

/-- What is passed over where a round of a loop ends, and whether it is the loop itself. -/
def endRound : Sh (Option Skip) := do
  let s ← get
  match s.skip with
  | some skip =>
    if skip = .loop ∨ skip = .round then
      set { s with skipCount := s.skipCount - 1, skip := if s.skipCount ≤ 1 then none else s.skip }
      return some (if s.skipCount ≤ 1 then skip else .loop)
    else return some skip
  | none => return none

/-- A loop entered for as long as something is done. -/
def inLoop (x : Sh Nat) : Sh Nat := do
  modify fun s => { s with loops := s.loops + 1 }
  let status ← x
  modify fun s => { s with loops := s.loops - 1 }
  return status

/-- The rounds of a loop, at most so many, after a status. -/
def rounds (ev : Evaluator) (tested untilTrue : Bool) (test body : Node) : Nat → Nat → Sh Nat
  | 0, status => pure status
  | n + 1, status => do
    let t ← ev { tested := true } (some test)
    match ← endRound with
    | some .round => rounds ev tested untilTrue test body n status
    | some .function => return t
    | some _ => return status
    | none =>
      if (t = 0) = untilTrue then return status
      else
        let status ← ev { tested := tested } (some body)
        match ← endRound with
        | none | some .round => rounds ev tested untilTrue test body n status
        | some _ => return status

/-- The rounds of a loop over words, after a status. -/
def eachRound (ev : Evaluator) (tested : Bool) (name : Raw) (body : Node) : List Raw → Nat → Sh Nat
  | [], status => pure status
  | w :: ws, _ => do
    Sh.setVariable name (some w)
    let status ← ev { tested := tested } (some body)
    match ← endRound with
    | none | some .round => eachRound ev tested name body ws status
    | some _ => return status

/-! ### Selections -/

/-- Whether one of some patterns fits a text. -/
def fitsAny (output : Node → Sh Raw) (text : Raw) : List Word → Sh Bool
  | [] => pure false
  | w :: ws => do
    let e ← Expansion.expand output { tilde := true, pattern := true } w
    if Pattern.isFit (Cell.pattern e.cells) text then return true else fitsAny output text ws

/-- The first of some cases that fits a text, carried out. -/
def select (ev : Evaluator) (m : Manner) (text : Raw) : List (List Word × Option Node) → Sh Nat
  | [] => pure 0
  | (patterns, body) :: more => do
    if (← get).skip.isSome then return 0
    else if ← fitsAny (Sh.output ev) text patterns then
      match body with
      | some n => ev m (some n)
      | none => return 0
    else select ev m text more

/-! ### Processes -/

/-- A command in a process of its own, waited for or not. -/
def apart (ev : Evaluator) (m : Manner) (line : Nat) (waited : Bool) (body : Node)
    (redirections : List Redirection) : Sh Nat := do
  let output := Sh.output ev
  modify fun s => { s with line := line }
  let aims ← Redirecting.expand output redirections
  let carriedOut := fun (tested : Bool) => do
    Redirecting.redirect output false aims
    ev { last := true, tested := tested } (some body)
  if waited && m.last && !(← Sh.hasTraps) then carriedOut m.tested
  else
    let batch ← Children.begin_
    if waited then
      let _ ← Sh.split ev batch .fore (carriedOut m.tested)
      Children.awaitBatch batch
    else
      let _ ← Sh.split ev batch (.back true) (carriedOut false)
      return 0

/-- The program that the first word of a command names looked for, so that it is known in all processes. -/
def lookAhead : Node → Sh Unit
  | .simple _ _ (w :: _) _ =>
    match Word.plain? w with
    | some name =>
      if Raw.isName name then do
        let _ ← Locate.find {} name
      else pure ()
    | none => pure ()
  | _ => pure ()

/-- The commands of a pipeline started, of which the first reads from a descriptor. -/
def startStages (ev : Evaluator) (m : Manner) (batch : Nat) (ground : Bool → Sh.Ground) :
    Option Nat → Bool → List Node → Sh Unit
  | _, _, [] => pure ()
  | source, first, n :: ns => do
    lookAhead n
    let pipe : Option (Nat × Nat) ← if ns.isEmpty then pure none else some <$> Sh.ask .pipe
    let _ ← Sh.split ev batch (ground first) do
      match pipe with
      | some (next, _) => do
        let _ ← Sh.ask (.close next)
      | none => pure ()
      match source with
      | some d => Sh.move d 0
      | none => pure ()
      match pipe with
      | some (_, sink) => Sh.move sink 1
      | none => pure ()
      ev { m with last := true } (some n)
    match source with
    | some d => do
      let _ ← Sh.ask (.close d)
    | none => pure ()
    match pipe with
    | some (_, sink) => do
      let _ ← Sh.ask (.close sink)
    | none => pure ()
    startStages ev m batch ground (pipe.map Prod.fst) false ns

/-- A pipeline. -/
def pipeline (ev : Evaluator) (m : Manner) (stages : List Node) (background : Bool) : Sh Nat := do
  let batch ← Children.begin_
  startStages ev m batch (fun first => if background then .back first else .fore) none true stages
  if background then return 0 else Children.awaitBatch batch

/-! ### Commands -/

/-- A command whose redirections are undone at its end. -/
def redirected (ev : Evaluator) (m : Manner) (line : Nat) (body : Node) (redirections : List Redirection) :
    Sh Nat := do
  let output := Sh.output ev
  modify fun s => { s with line := line }
  let aims ← Redirecting.expand output redirections
  Redirecting.enter
  let failed ← Redirecting.redirectSafely output aims
  let status ← if failed ≠ 0 then pure failed else ev { tested := m.tested } (some body)
  Redirecting.leave false
  return status

/-- **What each kind of command comes to**: its status. -/
def kind (ev : Evaluator) (m : Manner) : Node → Sh Nat
  | .simple line assignments words redirections =>
    Simple.evaluate ev m line assignments words redirections
  | .pipeline stages background => pipeline ev m stages background
  | .redirected line body redirections => redirected ev m line body redirections
  | .background line body redirections => apart ev m line false body redirections
  | .subshell line body redirections => apart ev m line true body redirections
  | .negation body => return if (← ev { tested := true } (some body)) = 0 then 1 else 0
  | .both first second => do
    let status ← ev { tested := true } (some first)
    if status ≠ 0 ∨ (← get).skip.isSome then return (← get).status else ev m (some second)
  | .either first second => do
    let status ← ev { tested := true } (some first)
    if status = 0 ∨ (← get).skip.isSome then return (← get).status else ev m (some second)
  | .sequence first second => do
    let _ ← ev { tested := m.tested } (some first)
    if (← get).skip.isSome then return (← get).status else ev m (some second)
  | .choice test yes no => do
    let status ← ev { tested := true } (some test)
    if (← get).skip.isSome then return (← get).status
    else if status = 0 then ev m (some yes)
    else
      match no with
      | some n => ev m (some n)
      | none => return 0
  | .loop untilTrue test body => inLoop (rounds ev m.tested untilTrue test body Act.forever 0)
  | .each line name words body => do
    modify fun s => { s with line := line }
    let ws ← words.mapM (Expansion.fields (Sh.output ev))
    inLoop (eachRound ev m.tested name body ws.flatten 0)
  | .select line word cases => do
    modify fun s => { s with line := line }
    let text ← Expansion.text (Sh.output ev) { tilde := true } word
    select ev m text cases
  | .define line name body => do
    modify fun s => { s with functions := (name, ⟨line, body⟩) :: s.functions.filter fun f => f.1 != name }
    return 0

/-- Whether the failure of a command can end the shell. -/
def mayEnd : Node → Bool
  | .simple .. | .pipeline .. | .background .. | .subshell .. => true
  | _ => false

/-- **A command carried out**: its status. -/
def evaluate (ev : Evaluator) (m : Manner) (n : Option Node) : Sh Nat := do
  let silent ← Sh.isOn .noCommands
  match if silent then none else n with
  | none => if m.last then Sh.raise .finish
  | some n =>
    Sh.serve ev
    let status ← kind ev m n
    modify fun s => { s with status := status }
    if mayEnd n then
      Sh.pause ev
      if !m.tested && status ≠ 0 && (← Sh.isOn .exitOnFailure) then Sh.raise .finish
    if m.last then Sh.raise .finish
  Sh.look Shell.status

/-- What carries out commands to a depth. -/
def evaluatorTo : Nat → Evaluator
  | 0, _, _ => pure 0
  | depth + 1, m, n => evaluate (evaluatorTo depth) m n

/-- **What carries out commands.** -/
def evaluator : Evaluator := evaluatorTo Act.forever

end BuildMender.Host.Evaluation
