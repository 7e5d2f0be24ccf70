import FilterLang.Error
import FilterLang.Value.Basic

/-! How the text of a condition's value tells its type. -/
namespace FilterLang.Value

/-- Whether `s` is the word `word`, written in any ASCII case. -/
def isWord (word s : Text) : Bool := s.map Char.toLower = word

def isNullWord (s : Text) : Bool := isWord "null".toList s || isWord "undefined".toList s

def boolWord? (s : Text) : Option Bool :=
  if isWord "true".toList s then some true
  else if isWord "false".toList s then some false
  else none

/-- Whether the text is a list of items; against overlaps every text is one. -/
def isList (operator : Operator) (s : Text) : Bool :=
  s.contains listSeparator || operator = .overlaps

/-- An item of an array. A null word is plain text here. -/
def ofItem (s : Text) : Value :=
  match boolWord? s with
  | some b => .bool b
  | none =>
    match Text.int64? s with
    | some n => .int n
    | none => .text s

/-- Text of at most `cap` characters. -/
def ofText (cap : Nat) (s : Text) : Except Error Value :=
  if s.length ≤ cap then .ok (.text s) else .error (.invalidValue .literal s .tooLong)

/-- A value behind a key of a JSON column. It is text, or a list of texts, unless it is null. -/
def classifyInner (operator : Operator) (cap : Nat) (s : Text) : Except Error Value :=
  if isNullWord s then .ok .null
  else if isList operator s then .ok (.array ((s.splitOn listSeparator).map .text))
  else ofText cap s

/-- A value of the column itself: a word, a number, a list, or else text. -/
def classifyPlain (operator : Operator) (cap : Nat) (s : Text) : Except Error Value :=
  if isNullWord s then .ok .null
  else match boolWord? s with
    | some b => .ok (.bool b)
    | none =>
      match if operator = .overlaps then none else Text.int64? s with
      | some n => .ok (.int n)
      | none =>
        if isList operator s then .ok (.array ((s.splitOn listSeparator).map ofItem))
        else ofText cap s

/-- The typed value of a text that stands against `operator`. -/
def classify (operator : Operator) (cap : Nat) (s : Text) : Except Error Value :=
  match Text.cut? pathMarker s with
  | some (key, inner) => (classifyInner operator cap inner).map (.path key)
  | none => classifyPlain operator cap s

end FilterLang.Value
