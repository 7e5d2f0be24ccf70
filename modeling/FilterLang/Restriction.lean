import FilterLang.Resolver
import FilterLang.Text.Blank
import FilterLang.Text.Decimal

/-! The restrictions block: sort fields, sort order, limit and offset. -/
namespace FilterLang

inductive SortOrder where
  | asc
  | desc
  deriving DecidableEq

def SortOrder.text : SortOrder → Text
  | asc => ['a', 's', 'c']
  | desc => ['d', 'e', 's', 'c']

def SortOrder.ofText? (s : Text) : Option SortOrder := [asc, desc].find? (·.text = s)

/-- Reads an order, which may be left out. -/
def SortOrder.read (s : Text) : Except Error (Option SortOrder) :=
  if s.isEmpty then .ok none
  else match ofText? s with
    | some order => .ok (some order)
    | none => .error (.invalidValue .sortOrder s .unexpected)

/-- Reads a number of rows, which may be left out. It is read as a signed number first, so that a
negative one is told apart from text that is no number. -/
def readCount (subject : Subject) (s : Text) : Except Error (Option Nat) :=
  if s.isEmpty then .ok none
  else match Text.int64? s with
    | none => .error (.invalidValue subject s .unexpected)
    | some n => if n < 0 then .error (.invalidValue subject s .negative) else .ok (some n.toNat)

/-- The four positions of a block as written. One that is left out is empty. -/
structure Positions where
  sortFields : Text
  sortOrder : Text
  limit : Text
  offset : Text

namespace Positions

/-- Takes the next part of a list. Behind the last one there are empty parts only. -/
def next : List Text → Text × List Text
  | [] => ([], [])
  | part :: rest => (part, rest)

/-- Takes the positions of a block one after the other. Its blanks are removed first, and nothing
may be left over. -/
def parse (raw : Text) : Except Error Positions :=
  let block := raw.unblank
  if block.isEmpty then .ok ⟨[], [], [], []⟩
  else
    let (sortFields, rest) := next (block.splitOn ',')
    let (sortOrder, rest) := next rest
    let (limit, rest) := next rest
    let (offset, rest) := next rest
    if rest.isEmpty then .ok ⟨sortFields, sortOrder, limit, offset⟩
    else .error (.malformed (.positionCount block))

def print (p : Positions) : Text :=
  [','].intercalate [p.sortFields, p.sortOrder, p.limit, p.offset]

/-- The columns to sort by, if the block names any. -/
def sortColumns? (r : Resolver) (p : Positions) : Except Error (Option (List Text)) :=
  if p.sortFields.isEmpty then .ok none
  else ((p.sortFields.splitOn '|').mapM (r.column .sort)).map some

def order? (p : Positions) : Except Error (Option SortOrder) := SortOrder.read p.sortOrder

def limit? (p : Positions) : Except Error (Option Nat) := readCount .limit p.limit

def offset? (p : Positions) : Except Error (Option Nat) := readCount .offset p.offset

end Positions

/-- A restrictions block with its columns looked up. -/
structure Restriction where
  sortColumns : List Text
  order : Option SortOrder
  limit : Option Nat
  offset : Option Nat

namespace Restriction

/-- The most positions that a block may have. -/
def maxPositions : Nat := 4

/-- The columns of the names in the first position. -/
def readColumns (r : Resolver) (names : Text) : Except Error (List Text) :=
  if names.isEmpty then .ok [] else (names.splitOn '|').mapM (r.column .sort)

/-- Compiles a restrictions block. Its positions are counted before any of them is read, and an
order without fields sorts by the primary column. -/
def parse (r : Resolver) (raw : Text) : Except Error Restriction :=
  let block := raw.unblank
  let parts := block.splitOn ','
  if block.isEmpty then .ok ⟨[], none, none, none⟩
  else if parts.length > maxPositions then .error (.malformed (.positionCount block))
  else do
    let columns ← readColumns r (parts.getD 0 [])
    let order ← SortOrder.read (parts.getD 1 [])
    let limit ← readCount .limit (parts.getD 2 [])
    let offset ← readCount .offset (parts.getD 3 [])
    let columns := if columns.isEmpty && order.isSome then [r.primaryColumn] else columns
    return ⟨columns, order, limit, offset⟩

end Restriction

end FilterLang
