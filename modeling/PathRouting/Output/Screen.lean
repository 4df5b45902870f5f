import PathRouting.Output.Style

/-!
# Lines on the screen

Errors and warnings, ruled headings, aligned pairs and tables. All functions give text with
escape codes and without the last line end.
-/
namespace PathRouting.Output

def ruleSign : String := "─"

def cross : String := "✗"

def repeated (text : String) (n : Nat) : String := String.join (List.replicate n text)

/-- So many blanks, none for a negative number. -/
def blanks (n : Int) : String := repeated " " n.toNat

def padRight (text : String) (width : Nat) : String := text ++ repeated " " (width - text.length)

def error (message : String) : String := (Style.colored .red).paint message

def warning (message : String) : String := (Style.colored .yellow).paint message

/-- The width of a terminal of so many columns: neither very narrow nor very wide. -/
def clampWidth (columns : Nat) : Nat := max 40 (min columns 120)

def defaultColumns : Nat := 80

def heading (title : String) (width : Int) (color : Color) : String :=
  let dashes := max 4 (width - title.length - 6)
  (⟨some color, true, false⟩ : Style).paint
    (ruleSign ++ ruleSign ++ " " ++ title ++ " " ++ repeated ruleSign dashes.toNat)

structure PairLayout where
  keyWidth : Int
  indent : Int
  keyColor : Color
  valueColor : Color

def PairLayout.standard : PairLayout := ⟨16, 2, .white, .cyan⟩

def pair (layout : PairLayout) (key value : String) : String :=
  blanks layout.indent ++ (Style.colored layout.keyColor).paint (key ++ ":") ++
    blanks (max 1 (layout.keyWidth - key.length - 1)) ++
    (Style.colored layout.valueColor).paint value

structure TableLayout where
  headerColor : Color
  rowColor : Color
  indent : Int

def TableLayout.standard : TableLayout := ⟨.cyan, .white, 2⟩

def widen : List Nat → List String → List Nat
  | w :: ws, cell :: cells => max w cell.length :: widen ws cells
  | ws, _ => ws

def columnWidths (headers : List String) (rows : List (List String)) : List Nat :=
  (rows.foldl widen (headers.map String.length)).map (· + 2)

/-- The cells of a row in their columns. A row may be short; cells beyond the columns are left
out. -/
def rowText (widths : List Nat) (cells : List String) : String :=
  String.join (List.zipWith padRight cells widths)

def table (layout : TableLayout) (headers : List String) (rows : List (List String)) :
    List String :=
  let widths := columnWidths headers rows
  let start := blanks layout.indent
  let header := (⟨some layout.headerColor, true, false⟩ : Style).paint (rowText widths headers)
  let rule := (⟨none, false, true⟩ : Style).paint (repeated ruleSign (widths.foldl (· + ·) 0))
  [start ++ header, start ++ rule] ++
    rows.map fun row => start ++ (Style.colored layout.rowColor).paint (rowText widths row)

def printed (colors : Bool) (line : String) : String :=
  (if colors then line else withoutCodes line) ++ "\n"

end PathRouting.Output
