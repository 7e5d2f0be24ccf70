import FilterLang.Node
import FilterLang.Segment

/-! Blocks of conditions and of search text as trees. No field is looked up and no value is typed
here, so that one tree serves both the statement and the edits. -/
namespace FilterLang.Block

variable {α : Type}

/-- Reads the units of a scan in turn. Its fault comes last, after the units before it. -/
def collect (f : Segment → Except Error α) (scan : Scan) : Except Error (List α) := do
  let units ← scan.segments.mapM f
  match scan.fault with
  | none => return units
  | some fault => .error (.malformed fault)

/-- Reads a unit that has to be a condition. -/
def parseAtom (mode : Mode) : Segment → Except Error (Node Condition)
  | .atom text k => (Condition.parse mode text).map (.leaf · k)
  | .group _ _ => .error (.malformed .innerGroup)

/-- Reads a unit of a block. Groups hold conditions only. -/
def parseSegment (mode : Mode) : Segment → Except Error (Node Condition)
  | .group content k => (collect (parseAtom mode) (Scan.of false content)).map (.group · k)
  | segment => parseAtom mode segment

/-- Reads a whole block. One that is blank has no units. -/
def parse (mode : Mode) (raw : Text) : Except Error (List (Node Condition)) :=
  collect (parseSegment mode) (Scan.of true (mode.normalize raw))

end FilterLang.Block
