import BuildMender.Host.Shell.Expansion

/-!
# Redirections

Before a command is carried out its descriptors are made to lead elsewhere, one redirection after the
other. If that concerns the shell itself it is undone afterwards: a copy of what a descriptor led to is
kept, out of the way of all other descriptors, and put back at the end.

The one thing to know is that a descriptor is closed while its copy is made. A redirection of the stream
of errors that fails then has nowhere left to complain.
-/

namespace BuildMender.Host.Redirecting

/-- Where a redirection leads once its words are expanded. -/
inductive Aim where
  | file (use : FileUse) (path : Raw)
  | descriptor (n : Nat)
  | closed
  | document (number : Nat)
deriving DecidableEq, Inhabited

/-- The number of a descriptor, or the sign that closes one. -/
def aimOf? (t : Raw) : Option Aim :=
  match t with
  | ['-'] => some .closed
  | [c] => if Raw.isDigit c then some (.descriptor (c.toNat - 48)) else none
  | _ => none

/-- **Redirections with their words expanded.** -/
def expand (output : Node → Sh Raw) (rs : List Redirection) : Sh (List (Nat × Aim)) :=
  rs.mapM fun
    | .mk n (.file use name) => do return (n, .file use (← Expansion.text output { tilde := true } name))
    | .mk n (.descriptor d) => pure (n, .descriptor d)
    | .mk n .closed => pure (n, .closed)
    | .mk n (.document number) => pure (n, .document number)
    | .mk n (.computed number) => do
      match aimOf? (← Expansion.text output { tilde := true } number) with
      | some aim => return (n, aim)
      | none => Sh.fail "Syntax error: Bad fd number"

/-! ### Opening -/

/-- A file opened. -/
def openFile (path : Raw) (mode : OpenMode) : Sh Nat := do
  match ← Sh.ask (.openFile path mode) with
  | .ok n => return n
  | .error e =>
    if mode.create then Sh.fail ("cannot create " ++ path ++ ": " ++ Sh.faultText e "Directory nonexistent")
    else Sh.fail ("cannot open " ++ path ++ ": " ++ Sh.faultText e "No such file")

/-- The fault of a file that must be kept. -/
def refuse (path : Raw) : Sh Nat :=
  Sh.fail ("cannot create " ++ path ++ ": " ++ Fault.message (.file .fileExists))

/-- A file opened to be written, unless it is there and must be kept. -/
def openNew (path : Raw) : Sh Nat := do
  if ← Sh.isOn .keepFiles then
    match ← Sh.ask (.status path) with
    | .error _ => openFile path { writing := true, create := true, new := true }
    | .ok s =>
      if s.kind == .file then refuse path
      else openFile path { writing := true }
  else openFile path { writing := true, create := true, empty := true }

/-- How much of a text can be written before somebody reads it. -/
def room : Nat := 4096

/-- The signals that do not end the writing of a text. -/
def ignoredSignals : List Nat := [Interrupt.interrupt, Interrupt.quit, 1, 20]

/-- A descriptor that a text can be read from. -/
def openText (t : Raw) : Sh Nat := do
  let (source, sink) ← Sh.ask .pipe
  if t.length ≤ room then
    let _ ← Sh.act (Act.writeAll sink t)
  else
    let _ ← Sh.fork do
      let _ ← Sh.ask (.close source)
      ignoredSignals.forM fun n => do
        let _ ← Sh.ask (.treat n .ignored)
      let _ ← Sh.ask (.treat Interrupt.pipe .standard)
      let _ ← Sh.act (Act.writeAll sink t)
      Sh.stop 0
  let _ ← Sh.ask (.close sink)
  return source

/-- What a redirection opens: a descriptor, and whether it is new; nothing if it closes one. -/
def openAim (output : Node → Sh Raw) : Aim → Sh (Option (Nat × Bool))
  | .file use path => do
    let n ← match use with
      | .read => openFile path { reading := true }
      | .write => openNew path
      | .overwrite => openFile path { writing := true, create := true, empty := true }
      | .append => openFile path { writing := true, create := true, append := true }
      | .both => openFile path { reading := true, writing := true, create := true }
    return some (n, true)
  | .descriptor n => pure (some (n, false))
  | .closed => pure none
  | .document number => do
    let d := ((← get).documents.lookup number).getD ⟨false, []⟩
    let t ← if d.expanded then Expansion.text output { quoted := true } d.text
      else pure (Word.letters d.text)
    return some (← openText t, true)

/-! ### Redirecting -/

/-- The least number of a descriptor that is out of the way. -/
def aside : Nat := 10

/-- What a descriptor leads to kept, if it was not already. -/
def keep (n : Nat) : Sh Unit := do
  match (← get).kept with
  | [] => pure ()
  | top :: more =>
    if (top.lookup n).isSome then pure ()
    else
      let copy ← Sh.ask (.copy n aside true)
      let _ ← Sh.ask (.close n)
      modify fun s => { s with kept := ((n, copy.toOption) :: top) :: more }

/-- A descriptor made to lead where another one leads. -/
def lead (source n : Nat) : Sh Unit := do
  match ← Sh.ask (.replace source n) with
  | .ok _ => pure ()
  | .error e => Sh.fail (Text.decimal source ++ ": " ++ e.message)

/-- **Descriptors redirected.** If it is to be undone, what they led to is kept. -/
def redirect (output : Node → Sh Raw) (undone : Bool) (aims : List (Nat × Aim)) : Sh Unit :=
  aims.forM fun (n, aim) => do
    if aim = .descriptor n then pure ()
    else
      let opened ← openAim output aim
      let stays := opened.map Prod.fst = some n
      if undone then
        if stays then modify fun s => { s with kept := match s.kept with
            | top :: more => (if (top.lookup n).isSome then top else (n, none) :: top) :: more
            | [] => [] }
        else keep n
      match opened with
      | none => do
        let _ ← Sh.ask (.close n)
      | some (source, isNew) =>
        if stays then pure ()
        else
          lead source n
          if isNew then
            let _ ← Sh.ask (.close source)

/-- Redirections that are undone later. A fault gives a status; nothing is raised. -/
def redirectSafely (output : Node → Sh Raw) (aims : List (Nat × Aim)) : Sh Nat := do
  match ← Sh.attempt (redirect output true aims) with
  | .ok _ => return 0
  | .error .error => return Sh.faulty
  | .error r => Sh.raise r

/-- A command begins whose redirections are undone at its end. -/
def enter : Sh Unit := modify fun s => { s with kept := [] :: s.kept }

/-- **The last redirections undone**, or made to stay. -/
def leave (stays : Bool) : Sh Unit := do
  match (← get).kept with
  | [] => pure ()
  | top :: more =>
    let order := top.mergeSort fun a b => a.1 ≤ b.1
    order.forM fun
      | (n, none) => do
        if !stays then
          let _ ← Sh.ask (.close n)
      | (n, some copy) => do
        if !stays then
          let _ ← Sh.ask (.replace copy n)
        let _ ← Sh.ask (.close copy)
    modify fun s => { s with kept := more }

/-- Redirections undone until so many are left. -/
def leaveTo (left : Nat) : Sh Unit := do
  let n := (← get).kept.length - left
  (List.range n).forM fun _ => leave false

end BuildMender.Host.Redirecting
