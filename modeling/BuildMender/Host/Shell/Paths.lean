import BuildMender.Host.Pattern
import BuildMender.Host.Shell.Basic
import BuildMender.Host.Shell.Field

/-!
# Paths that match a pattern

A field with signs of a pattern stands for the paths that match it. The pattern is followed from directory
to directory: what comes before the first piece with a sign is taken as it is, that piece is compared with
the names in the directory, and the rest is followed in each directory that matches. Names that begin with
a point match only if the pattern begins with one.
-/

namespace BuildMender.Host.Paths

/-- Whether a list between brackets is closed before the next slash. -/
def closes : Raw → Bool
  | [] => false
  | '\\' :: t =>
    match t with
    | [] => false
    | '/' :: _ => false
    | _ :: ']' :: _ => true
    | _ :: t => closes t
  | '/' :: _ => false
  | _ :: ']' :: _ => true
  | _ :: t => closes t

/-- A pattern split at its first piece with a sign: what comes before the piece, the piece, and what
comes after the slash behind it. -/
structure Pieces where
  before : Raw
  piece : Raw
  rest : Option Raw
deriving DecidableEq, Inhabited

/-- A pattern split; nothing if it has no sign. What was passed is kept the last first. -/
def pieces? : Raw → Raw → Bool → Raw → Option Pieces
  | before, piece, signs, [] => if signs then some ⟨before.reverse, piece.reverse, none⟩ else none
  | before, piece, signs, c :: t =>
    if c = '*' ∨ c = '?' then pieces? before (c :: piece) true t
    else if c = '[' then
      let inside := match t with
        | '!' :: t => t
        | t => t
      pieces? before (c :: piece) (signs || closes inside) t
    else if c = '/' then
      if signs then some ⟨before.reverse, piece.reverse, some t⟩
      else pieces? (c :: piece ++ before) [] false t
    else if c = '\\' then
      match t with
      | [] => pieces? before (c :: piece) signs []
      | d :: t =>
        if d = '/' then
          if signs then some ⟨before.reverse, piece.reverse, some t⟩
          else pieces? (d :: c :: piece ++ before) [] false t
        else pieces? before (d :: c :: piece) signs t
    else pieces? before (c :: piece) signs t

/-- A pattern without its backslashes. -/
def plain : Raw → Raw
  | '\\' :: c :: t => c :: plain t
  | c :: t => c :: plain t
  | [] => []

/-- **The paths that match a pattern** behind a path, to a depth. -/
def matching : Nat → Raw → Raw → Sh (List Raw)
  | 0, _, _ => pure []
  | n + 1, path, pattern =>
    match pieces? [] [] false pattern with
    | none => do
      if path.isEmpty then return []
      let path := path ++ plain pattern
      match ← Sh.ask (.status path) with
      | .ok _ => return [path]
      | .error _ => return []
    | some p => do
      let path := path ++ plain p.before
      match ← Sh.ask (.list (if path.isEmpty then ['.'] else path)) with
      | .error _ => return []
      | .ok names =>
        let hidden := (plain p.piece).head? = some '.'
        let names := if hidden then ['.'] :: ['.', '.'] :: names
          else names.filter fun name => name.head? != some '.'
        let names := names.filter (Pattern.isFit p.piece)
        match p.rest with
        | none => return names.map (path ++ ·)
        | some rest =>
          return (← names.mapM fun name => matching n (path ++ name ++ ['/']) rest).flatten

/-- The paths that fields stand for; a field that no path matches stands for itself. -/
def ofFields (fields : List (List Cell)) : Sh (List Raw) := do
  if ← Sh.isOn .noPatterns then return fields.map Cell.text
  let found ← fields.mapM fun f => do
    if !Cell.hasSign f then return [Cell.text f]
    let pattern := Cell.pattern f
    match ← matching (pattern.length + 1) [] pattern with
    | [] => return [Cell.text f]
    | ps => return Raw.sorted ps
  return found.flatten

end BuildMender.Host.Paths
