import FilterLang.Error
import FilterLang.Text.Blank

/-! One condition, and how it is read from its text. -/
namespace FilterLang

/-- A field set against a value, each exactly as written. -/
structure Condition where
  field : Text
  operator : Operator
  value : Text
  deriving DecidableEq

/-- The two kinds of block: conditions, and search text, which has one operator only. -/
inductive Mode where
  | standard
  | search
  deriving DecidableEq

/-- Blanks mean nothing between conditions, and anything inside search text. -/
def Mode.normalize : Mode → Text → Text
  | standard, s => s.unblank
  | search, s => s.map fun c => if Text.isBlank c then '%' else c

/-- The operator at which a condition is cut in two. -/
def Mode.operator? : Mode → Text → Option Operator
  | standard, atom => Operator.find? atom
  | search, _ => some .like

namespace Condition

def print (c : Condition) : Text := c.field ++ c.operator.token ++ c.value

/-- Reads a condition. It is cut where its operator stands first. -/
def parse (mode : Mode) (atom : Text) : Except Error Condition :=
  match mode.operator? atom with
  | none => .error (.unsupportedOperator atom)
  | some operator =>
    match Text.cut? operator.token atom with
    | none => .error (.unsupportedOperator atom)
    | some (field, value) => .ok ⟨field, operator, value⟩

/-- Whether a condition, once printed, is read as itself and touches nothing around it. -/
def readsBack (c : Condition) : Bool :=
  let text := c.print
  !text.contains '?' && !text.contains '(' && !text.contains ')' && !Connector.occursIn text &&
    match parse .standard text with
    | .ok c' => c' = c
    | .error _ => false

end Condition

end FilterLang
