import FilterLang.Json.Numeral

/-! JSON documents. Strings keep their escapes, so that a document can be read before it is known
which of its strings have to make sense. -/
namespace FilterLang

inductive Json where
  | null
  | bool (b : Bool)
  | number (n : Numeral)
  /-- What stands between the quotes. -/
  | string (spelling : Text)
  | array (items : List Json)
  | object (members : List (Text × Json))

namespace Json

def hexDigit? (c : Char) : Option Nat :=
  if c.isDigit then some (c.toNat - '0'.toNat)
  else if 'a' ≤ c ∧ c ≤ 'f' then some (c.toNat - 'a'.toNat + 10)
  else if 'A' ≤ c ∧ c ≤ 'F' then some (c.toNat - 'A'.toNat + 10)
  else none

/-- The number that hexadecimal digits spell; other characters count as nothing. -/
def hexValue (s : Text) : Nat := s.foldl (fun n c => 16 * n + (hexDigit? c).getD 0) 0

/-- The escapes of one letter, with what they stand for. -/
def letterEscapes : List (Char × Char) :=
  [('"', '"'), ('\\', '\\'), ('/', '/'), ('b', '\x08'), ('f', '\x0c'), ('n', '\n'), ('r', '\r'),
    ('t', '\t')]

/-- The codes that a spelling stands for: characters, and the halves of escaped pairs. -/
def codes : Text → List Nat
  | [] => []
  | '\\' :: 'u' :: a :: b :: c :: d :: rest => hexValue [a, b, c, d] :: codes rest
  | '\\' :: c :: rest => ((letterEscapes.lookup c).getD c).toNat :: codes rest
  | c :: rest => c.toNat :: codes rest

def isHighHalf (n : Nat) : Bool := 0xD800 ≤ n && n ≤ 0xDBFF

def isLowHalf (n : Nat) : Bool := 0xDC00 ≤ n && n ≤ 0xDFFF

/-- Joins the two halves of each pair. A half on its own is no character. -/
def ofCodes? : List Nat → Option Text
  | [] => some []
  | [n] => if isHighHalf n || isLowHalf n then none else some [Char.ofNat n]
  | n :: m :: rest =>
    if isHighHalf n && isLowHalf m then
      (ofCodes? rest).map (Char.ofNat (0x10000 + (n - 0xD800) * 0x400 + (m - 0xDC00)) :: ·)
    else if isHighHalf n || isLowHalf n then none
    else (ofCodes? (m :: rest)).map (Char.ofNat n :: ·)

/-- The text that a string's spelling stands for. -/
def decode? (spelling : Text) : Option Text := ofCodes? (codes spelling)

/-- Control characters without a letter of their own are spelled by their code. -/
def escapeChar (c : Char) : Text :=
  match c with
  | '"' => ['\\', '"']
  | '\\' => ['\\', '\\']
  | '\x08' => ['\\', 'b']
  | '\t' => ['\\', 't']
  | '\n' => ['\\', 'n']
  | '\x0c' => ['\\', 'f']
  | '\r' => ['\\', 'r']
  | _ =>
    if c.toNat < 0x20 then
      ['\\', 'u', '0', '0', Nat.digitChar (c.toNat / 16), Nat.digitChar (c.toNat % 16)]
    else [c]

def ofText (s : Text) : Json := .string (s.flatMap escapeChar)

def ofInt (n : Int) : Json := .number (.ofInt n)

/-- The text of a string. -/
def text? : Json → Option Text
  | string spelling => decode? spelling
  | _ => none

def items? : Json → Option (List Json)
  | array items => some items
  | _ => none

/-- The members of an object, with their names decoded. -/
def members? : Json → Option (List (Text × Json))
  | object members => members.mapM fun (name, value) => (decode? name).map (·, value)
  | _ => none

mutual

/-- Whether every string can be decoded, every number fits a double, and values nest in one another
at most `depth` deep. -/
def isSound (depth : Nat) : Json → Bool
  | null | bool _ => true
  | number n => n.fitsDouble
  | string spelling => (decode? spelling).isSome
  | array items => 0 < depth && areSound (depth - 1) items
  | object members => 0 < depth && haveSound (depth - 1) members

def areSound (depth : Nat) : List Json → Bool
  | [] => true
  | v :: vs => isSound depth v && areSound depth vs

def haveSound (depth : Nat) : List (Text × Json) → Bool
  | [] => true
  | (name, v) :: ms => (decode? name).isSome && isSound depth v && haveSound depth ms

end

end Json

end FilterLang
