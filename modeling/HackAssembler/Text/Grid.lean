import HackAssembler.Text.Width

/-!
# Grids

Rows of cells laid out in columns. One space stands between two columns, every cell but the last of
its row is filled up with spaces to the widest cell of its column, and every row ends with a line
feed.
-/

set_option autoImplicit false

namespace HackAssembler.Text.Grid

/-- The wider of two rows of column widths, column by column. -/
def wider : List Nat → List Nat → List Nat
  | a :: as, b :: bs => max a b :: wider as bs
  | [], bs => bs
  | as, [] => as

/-- How wide each column of some rows has to be. -/
def columnWidths (rows : List (List (List Char))) : List Nat :=
  rows.foldl (fun widths row => wider widths (row.map width)) []

/-- A cell filled up with spaces to a given width. -/
def pad (columns : Nat) (cell : List Char) : List Char :=
  cell ++ List.replicate (columns - width cell) ' '

def renderRow : List Nat → List (List Char) → List Char
  | _, [] => ['\n']
  | _, [cell] => cell ++ ['\n']
  | columns, cell :: more => pad (columns.headD 0) cell ++ ' ' :: renderRow columns.tail more

/-- All rows, each as wide as the widest cells ask for. -/
def render (rows : List (List (List Char))) : List Char :=
  let columns := columnWidths rows
  rows.flatMap (renderRow columns)

end HackAssembler.Text.Grid
