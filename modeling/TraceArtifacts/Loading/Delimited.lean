import TraceArtifacts.Text.Scan

/-!
# Delimited text

A row is a line, a cell is what stands between commas.
-/

namespace TraceArtifacts.Loading

inductive Place where
  | rowStart
  | cellStart
  | plain
  | quoted
  | afterQuote
deriving Repr, DecidableEq, Inhabited

/-- The rows of a text: `cell` holds the characters of the cell so far, the last one first, and `row` the cells
before it, the last one first. -/
def rowsFrom : Place → List Char → List String → List Char → List (List String)
  | .rowStart, _, _, [] => []
  | _, cell, row, [] => [(String.ofList cell.reverse :: row).reverse]
  | .quoted, cell, row, c :: rest =>
      if c = '"' then rowsFrom .afterQuote cell row rest
      else rowsFrom .quoted (c :: cell) row rest
  | .rowStart, _, _, c :: rest =>
      if c = '\n' then [] :: rowsFrom .rowStart [] [] rest
      else if c = '"' then rowsFrom .quoted [] [] rest
      else if c = ',' then rowsFrom .cellStart [] [""] rest
      else rowsFrom .plain [c] [] rest
  | .cellStart, _, row, c :: rest =>
      if c = '\n' then ("" :: row).reverse :: rowsFrom .rowStart [] [] rest
      else if c = '"' then rowsFrom .quoted [] row rest
      else if c = ',' then rowsFrom .cellStart [] ("" :: row) rest
      else rowsFrom .plain [c] row rest
  | .plain, cell, row, c :: rest =>
      if c = '\n' then (String.ofList cell.reverse :: row).reverse :: rowsFrom .rowStart [] [] rest
      else if c = ',' then rowsFrom .cellStart [] (String.ofList cell.reverse :: row) rest
      else rowsFrom .plain (c :: cell) row rest
  | .afterQuote, cell, row, c :: rest =>
      if c = '"' then rowsFrom .quoted (c :: cell) row rest
      else if c = '\n' then
        (String.ofList cell.reverse :: row).reverse :: rowsFrom .rowStart [] [] rest
      else if c = ',' then rowsFrom .cellStart [] (String.ofList cell.reverse :: row) rest
      else rowsFrom .plain (c :: cell) row rest

def rowsOf (s : String) : List (List String) := rowsFrom .rowStart [] [] s.toList

def lineCount (s : List Char) : Nat :=
  s.count '\n' + if s.getLast?.any (· != '\n') then 1 else 0

end TraceArtifacts.Loading
