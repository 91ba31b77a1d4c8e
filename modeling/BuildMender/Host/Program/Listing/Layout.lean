import BuildMender.Host.Raw

/-!
# Entries on lines

Entries are put on lines of limited width in columns, which are filled downwards or across, or one after the
other with a sign between them. As many columns are used as fit. What an entry looks like is not touched.
-/

namespace BuildMender.Host.Listing

/-- An entry: what is printed, and how many columns of the output it takes. -/
structure Entry where
  text : Raw
  width : Nat
deriving DecidableEq, Inhabited

/-- The lines that entries are put on. -/
structure Page where
  /-- How wide lines are; nothing if there is no limit. -/
  width : Option Nat
  /-- How far tab stops are from each other; nothing if tabs are not used. -/
  tab : Option Nat
  /-- What ends a line. -/
  lineEnd : Char
deriving DecidableEq, Inhabited

namespace Page

/-! ### Columns -/

/-- The width of the smallest column. -/
def narrowest : Nat := 3

/-- The space between columns. -/
def gap : Nat := 2

/-- A list cut into pieces of some length. -/
def chunks {α : Type} (n : Nat) (xs : List α) : List (List α) :=
  (List.range ((xs.length + n - 1) / n)).map fun k => (xs.drop (k * n)).take n

/-- **The rows of entries** in so many columns, which are filled downwards or across. -/
def rows (down : Bool) (columns : Nat) (es : List Entry) : List (List Entry) :=
  if down then
    let height := (es.length + columns - 1) / columns
    let filled := chunks height es
    (List.range height).map fun r => filled.filterMap fun column => column[r]?
  else chunks columns es

/-- How wide columns have to be for some rows. -/
def columnWidths (columns : Nat) (rs : List (List Entry)) : List Nat :=
  (List.range columns).map fun k =>
    let space := if k + 1 = columns then 0 else gap
    rs.foldl (fun w r => max w ((r[k]?.map fun e => e.width + space).getD 0)) narrowest

/-- Whether columns fit on a line. -/
def isFit (width : Nat) (widths : List Nat) : Bool :=
  widths.all (· = narrowest) || widths.foldl (· + ·) 0 < width

/-- How many columns are used: the most that fit, and no more than some number. -/
def columnCount (width : Nat) (down : Bool) (es : List Entry) : Nat → Nat
  | 0 => 1
  | n + 1 =>
    if n = 0 || isFit width (columnWidths (n + 1) (rows down (n + 1) es)) then n + 1
    else columnCount width down es n

/-- The space from one place of a line to another. -/
def indentation (tab : Option Nat) (from_ until_ : Nat) : Raw := go (until_ - from_) from_
where
  /-- The space from a place on, of at most so many characters. -/
  go : Nat → Nat → Raw
    | 0, _ => []
    | n + 1, at_ =>
      if until_ ≤ at_ then []
      else
        match tab with
        | some t =>
          if (at_ + 1) / t < until_ / t then '\t' :: go n (at_ + t - at_ % t) else ' ' :: go n (at_ + 1)
        | none => ' ' :: go n (at_ + 1)

/-- A row whose columns have some widths, from a place of the line on. -/
def row (tab : Option Nat) : Nat → List Nat → List Entry → Raw
  | at_, w :: ws, e :: next :: es =>
    e.text ++ indentation tab (at_ + e.width) (at_ + w) ++ row tab (at_ + w) ws (next :: es)
  | _, _, es => es.flatMap Entry.text

/-- Entries one after the other, with a sign between them. -/
def joined (p : Page) (sign : Char) (es : List Entry) : Raw :=
  (es.foldl (fun (t, at_, first) e =>
    let fits := p.width.all fun w => at_ + e.width + gap < w
    let between := if first then [] else [sign, if fits then ' ' else p.lineEnd]
    let start := if first then 0 else if fits then at_ + gap else 0
    (t ++ between ++ e.text, start + (if p.width.isSome then e.width else 0), false)) (([] : Raw), 0, true)).1 ++
    [p.lineEnd]

/-- **Entries in columns.** -/
def inColumns (p : Page) (down : Bool) (es : List Entry) : Raw :=
  match p.width with
  | none => p.joined ' ' es
  | some width =>
    let count := columnCount width down es (min es.length ((width + narrowest - 1) / narrowest))
    let rs := rows down count es
    let widths := columnWidths count rs
    rs.flatMap fun r => row p.tab 0 widths r ++ [p.lineEnd]

/-- Each entry on a line of its own. -/
def single (p : Page) (es : List Entry) : Raw := es.flatMap fun e => e.text ++ [p.lineEnd]

end Page

end BuildMender.Host.Listing
