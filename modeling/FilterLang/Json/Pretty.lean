import FilterLang.Json.Basic

/-! JSON with one item to a line, each level two blanks further in. -/
namespace FilterLang.Json

def newline (indent : Nat) : Text := '\n' :: List.replicate (2 * indent) ' '

/-- Puts items on lines of their own between two brackets, which stand at `indent`. -/
def enclose (opening closing : Char) (indent : Nat) : List Text → Text
  | [] => [opening, closing]
  | items =>
    opening :: newline (indent + 1) ++ (',' :: newline (indent + 1)).intercalate items
      ++ newline indent ++ [closing]

def quoted (spelling : Text) : Text := '"' :: spelling ++ ['"']

def numeral (n : Numeral) : Text :=
  (if n.negative then ['-'] else []) ++ n.whole
    ++ (if n.fraction.isEmpty then [] else '.' :: n.fraction)
    ++ (if n.exponent = 0 then [] else 'e' :: Text.ofInt n.exponent)

mutual

def pretty (indent : Nat) : Json → Text
  | null => "null".toList
  | bool true => "true".toList
  | bool false => "false".toList
  | number n => numeral n
  | string spelling => quoted spelling
  | array items => enclose '[' ']' indent (prettyItems (indent + 1) items)
  | object members => enclose '\x7b' '\x7d' indent (prettyMembers (indent + 1) members)

def prettyItems (indent : Nat) : List Json → List Text
  | [] => []
  | v :: vs => pretty indent v :: prettyItems indent vs

def prettyMembers (indent : Nat) : List (Text × Json) → List Text
  | [] => []
  | (name, v) :: ms =>
    (quoted name ++ ": ".toList ++ pretty indent v) :: prettyMembers indent ms

end

end FilterLang.Json
