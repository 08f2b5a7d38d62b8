import MailTemplate.Script.Error
import MailTemplate.Text.Blank
import MailTemplate.Text.CellWidth

/-!
# Error reports

An error shown under the lines of the source that it is about: a heading, the place, and the lines
at fault with a mark that leads to the label of the error.  An error within one line is underlined,
one that spans lines is bracketed in the margin.

The positions of an error are taken as counts of characters here.
-/

namespace MailTemplate.Script.Report

/-! ### Lines of a source -/

/-- The characters that end a line. -/
def lineEnds : List Char :=
  ['\n', '\x0b', '\x0c', '\r', Char.ofNat 0x85, Char.ofNat 0x2028, Char.ofNat 0x2029]

/-- The lines of a text, each with its end; a carriage return and a line feed are one end. -/
def splitLines : List Char → List (List Char)
  | [] => []
  | '\r' :: '\n' :: rest => ['\r', '\n'] :: splitLines rest
  | c :: rest =>
    if lineEnds.contains c then [c] :: splitLines rest
    else
      match splitLines rest with
      | [] => [[c]]
      | line :: lines => (c :: line) :: lines

/-- A line of a source: its number, counted from zero, the number of characters before it, and its
characters with its end. -/
structure Line where
  index : Nat
  start : Nat
  text : List Char
  deriving DecidableEq, Repr

/-- Lines from a number and a position on. -/
def numberLines (index start : Nat) : List (List Char) → List Line
  | [] => []
  | text :: rest => ⟨index, start, text⟩ :: numberLines (index + 1) (start + text.length) rest

/-- The lines of a source; the empty source has one. -/
def linesOf (source : List Char) : List Line :=
  match numberLines 0 0 (splitLines source) with
  | [] => [⟨0, 0, []⟩]
  | lines => lines

/-- The line that holds a position; the position after the source is in the last line. -/
def lineAt? (source : List Char) (lines : List Line) (position : Nat) : Option Line :=
  if position ≤ source.length then (lines.filter fun l => l.start ≤ position).getLast? else none

/-! ### Columns -/

/-- The distance of the stops that a tab leads to. -/
def tabStop : Nat := 4

/-- The cells that a character in a column takes. -/
def cellsAt (column : Nat) (c : Char) : Nat :=
  if c = '\t' then (column / tabStop + 1) * tabStop - column
  else if Text.isBlank c then 1
  else Text.cellWidth c

/-- A line as shown: blanks at its end are left out, and the others are spaces. -/
def Line.shown (line : Line) : List Char :=
  (Text.trimRight line.text).zipIdx.flatMap fun (c, column) =>
    if Text.isBlank c then List.replicate (cellsAt column c) ' ' else [c]

/-- A row of `count` columns below a line: `mark` gives the first cell of a column and the rest. -/
def Line.rowBelow (line : Line) (count : Nat) (mark : Nat → Char × Char) : List Char :=
  let shown := Text.trimRight line.text
  (List.range count).flatMap fun column =>
    let (first, others) := mark column
    match (shown[column]?.map (cellsAt column)).getD 1 with
    | 0 => []
    | width + 1 => first :: List.replicate width others

/-- The columns after the last one at fault that a mark is drawn through. -/
def armLength : Nat := 2

/-! ### Margins -/

/-- Spaces. -/
def spaces (n : Nat) : List Char := List.replicate n ' '

/-- The margin of a line, with its number in so many columns. -/
def numberedMargin (width : Nat) (line : Line) : List Char :=
  let number := Nat.toDigits 10 (line.index + 1)
  ' ' :: spaces (width - number.length) ++ number ++ " │ ".toList

/-- The margin of a row without a number. -/
def plainMargin (width : Nat) : List Char := spaces (width + 2) ++ "│ ".toList

/-- The margin of lines that are left out. -/
def gapMargin (width : Nat) : List Char := spaces (width + 2) ++ "┆ ".toList

/-! ### Marks -/

/-- The rows of an error within one line. -/
def inlineRows (width : Nat) (line : Line) (start stop : Nat) (label : List Char) :
    List (List Char) :=
  let column := max ((start + stop) / 2) start - line.start
  let count := stop - line.start + armLength
  let underline (c : Nat) : Char × Char :=
    let inside := start ≤ line.start + c && line.start + c < stop
    if c = column then if inside then ('┬', '─') else ('│', ' ')
    else if inside then ('─', '─')
    else (' ', ' ')
  let arm (c : Nat) : Char × Char :=
    if c = column then ('╰', '─') else if column < c then ('─', '─') else (' ', ' ')
  [numberedMargin width line ++ line.shown,
   plainMargin width ++ line.rowBelow count underline,
   plainMargin width ++ line.rowBelow count arm ++ ' ' :: label]

/-- The rows of an error that starts in one line and ends in another. -/
def bracketRows (width : Nat) (first last : Line) (label : List Char) : List (List Char) :=
  let count := last.text.length + armLength
  let gap := if first.index + 1 < last.index then [gapMargin width ++ "┆   ".toList] else []
  [numberedMargin width first ++ "╭─▶ ".toList ++ first.shown] ++ gap ++
    [numberedMargin width last ++ "├─▶ ".toList ++ last.shown,
     plainMargin width ++ "│   ".toList ++ last.rowBelow count fun _ => (' ', ' '),
     plainMargin width ++ "╰───".toList ++ last.rowBelow count (fun _ => ('─', '─')) ++
       ' ' :: label]

end Report

/-- The error with the lines of the source that it is about. -/
def Error.report (source file : String) (e : Error) : String :=
  let chars := source.toList
  let lines := Report.linesOf chars
  let heading := "Error: ".toList ++ e.message.toList
  let start := e.span.start
  let stop := e.span.stop
  let label := e.cause.label.toList
  let rows : List (List Char) :=
    match Report.lineAt? chars lines start, Report.lineAt? chars lines (max start (stop - 1)) with
    | some first, some last =>
      let width := (Nat.toDigits 10 (last.index + 1)).length
      let place := file.toList ++ ':' :: Nat.toDigits 10 (first.index + 1) ++
        ':' :: Nat.toDigits 10 (start - first.start + 1)
      let marked :=
        if first.index = last.index then Report.inlineRows width first start stop label
        else Report.bracketRows width first last label
      [Report.spaces (width + 2) ++ "╭─[".toList ++ place ++ [']'],
       Report.spaces (width + 2) ++ ['│']] ++ marked ++
        [List.replicate (width + 2) '─' ++ ['╯']]
    | _, _ => []
  String.ofList ((heading :: rows).flatMap (· ++ ['\n']))

end MailTemplate.Script
