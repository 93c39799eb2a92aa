import LinModel.NumArray.Basic
import LinModel.Number.Columns

/-!
# The text of arrays

Numbers stand in rows between brackets. A row that would be longer than a line goes on in the next
one, set in as far as its bracket; rows of several dimensions stand below each other. Of an array
with more than a thousand numbers only the first and last three of every dimension are shown. The
text that shows what an array is names its type, on the last line if it fits there.

Key definitions: `NumArray.body`, `NumArray.written`, `NumArray.shown`.
-/
namespace LinModel.NumArray

/-- How long a line may be. -/
def lineWidth : Nat := 75

/-- How many numbers are shown in full. -/
def threshold : Nat := 1000

/-- How many items of a dimension are shown at either end otherwise. -/
def edgeCount : Nat := 3

/-- The items at either end of a list, or all of them if there are few. -/
def edges {α : Type} (items : List α) : List α :=
  if items.length ≤ 2 * edgeCount then items
  else items.take edgeCount ++ items.drop (items.length - edgeCount)

/-- The items of all dimensions that are shown of a large array. -/
def edgeItems {α : Type} : List Nat → List α → List α
  | [], items => items
  | n :: rest, items => ((edges (pieces (sizeOf rest) n items)).map (edgeItems rest)).flatten

/-- The shape of what is shown of a large array. -/
def edgeShape (shape : List Nat) : List Nat := shape.map (min · (2 * edgeCount))

/-- The blanks of a width. -/
def blanks (width : Nat) : String := String.ofList (List.replicate width ' ')

/-- How the items of an array are set out. -/
structure ArrayLayout where
  separator : String
  /-- Whether only the ends of long dimensions are shown. -/
  isSummary : Bool

/-- A separator without its blank. -/
def ArrayLayout.mark (l : ArrayLayout) : String := l.separator.trimAsciiEnd.toString

/-- Adds a word to the lines so far, on a new line if it does not fit. -/
def extendLine (width indent : Nat) (lines line word : String) : String × String :=
  if width < line.length + word.length ∧ indent < line.length then
    (lines ++ line.trimAsciiEnd.toString ++ "\n", blanks indent ++ word)
  else (lines, line ++ word)

/-- The words of a row with the place of what is left out. -/
def rowWords (l : ArrayLayout) (isCut : Bool) (words : List String) : List String :=
  if l.isSummary && isCut then words.take edgeCount ++ "..." :: words.drop edgeCount else words

/-- A row of words behind an indent, without the brackets. -/
def rowText (l : ArrayLayout) (width indent : Nat) (words : List String) : String :=
  let elementWidth := width - max l.mark.length 1
  let rec go : List String → String → String → String
    | [], lines, line => lines ++ line
    | [word], lines, line =>
      let (lines, line) := extendLine elementWidth indent lines line word
      lines ++ line
    | word :: rest, lines, line =>
      let (lines, line) := extendLine elementWidth indent lines line word
      go rest lines (line ++ l.separator)
  go words "" (blanks indent)

/-- The text of words under a shape, whose dimensions had other sizes before they were cut. Every
line but the first is set in. -/
def nestedText (l : ArrayLayout) : (width indent : Nat) → (full shape : List Nat) →
    List String → String
  | width, indent, size :: _, [n], words =>
    let body := rowText l width indent (rowWords l (n < size) words)
    "[" ++ (body.drop indent).toString ++ "]"
  | width, indent, size :: full, n :: rest, words =>
    let parts := (pieces (sizeOf rest) n words).map
      (nestedText l (width - 1) (indent + 1) full rest)
    let lineEnd := l.mark ++ String.ofList (List.replicate rest.length '\n')
    "[" ++ String.intercalate (lineEnd ++ blanks indent) (rowWords l (n < size) parts) ++ "]"
  | _, _, _, _, words => String.join words

/-- The text of an array's numbers between brackets, in lines of a width that are set in. -/
def body (separator : String) (width indent : Nat) (a : NumArray) : String :=
  if a.numbers.isEmpty then "[]"
  else
    let isSummary := threshold < a.numbers.length
    let numbers := if isSummary then edgeItems a.shape a.numbers else a.numbers
    let shape := if isSummary then edgeShape a.shape else a.shape
    let words := match a.shape, a.width, numbers with
      | [], .integer, [n] | [], .truth, [n] => [n.toText]
      | _, w, _ => Number.columns w numbers
    nestedText ⟨separator, isSummary⟩ width (indent + 1) a.shape shape words

/-- The text of an array for readers. -/
def written (a : NumArray) : String :=
  match a.shape, a.numbers with
  | [], [n] => n.toText
  | _, _ => a.body " " lineWidth 0

/-- The text that shows an array on the device. -/
def shownOnDevice (a : NumArray) : String :=
  let title := "Array("
  let text := if a.numbers.isEmpty then "[], shape=" ++ shapeText a.shape
    else a.body ", " (lineWidth - 1) title.length
  let note := "dtype=" ++ a.width.title ++ (if a.element.isPlain then ", weak_type=True)" else ")")
  let lastLine := (text.splitOn "\n").getLast?.getD ""
  let gap := if lineWidth < lastLine.length + note.length + 3 then blanks title.length else " "
  title ++ text ++ "," ++ gap ++ note

/-- The text that shows an array outside the device. -/
def shownOutside (a : NumArray) : String :=
  let title := "array("
  let text := title ++ a.body ", " (lineWidth - 1) title.length
  let large := threshold < a.numbers.length
  let isKnown := a.width != .single && !a.numbers.isEmpty
  let shape := if (a.numbers.isEmpty && a.shape != [0]) || large then
    ["shape=" ++ shapeText a.shape] else []
  let type := if isKnown then [] else ["dtype=" ++ a.width.title]
  match shape ++ type with
  | [] => text ++ ")"
  | notes =>
    let note := String.intercalate ", " notes ++ ")"
    let lastLine := ((text ++ ",").splitOn "\n").getLast?.getD ""
    let gap := if lineWidth < lastLine.length + note.length + 1 then "\n" ++ blanks title.length
      else " "
    text ++ "," ++ gap ++ note

/-- The text that shows what an array is. -/
def shown (a : NumArray) : String := if a.onDevice then a.shownOnDevice else a.shownOutside

end LinModel.NumArray
