import FilterLang.Json.Basic

/-! Reading JSON. The whole text has to be one document, and no blank but the four of the standard
may stand around its values. -/
namespace FilterLang.Json

def isSpace (c : Char) : Bool := c = ' ' || c = '\t' || c = '\n' || c = '\r'

def skip (s : Text) : Text := s.dropWhile isSpace

/-- Reads a string up to its closing quote; the opening one stands before `s`. -/
def readString : Text → Option (Text × Text)
  | [] => none
  | '"' :: rest => some ([], rest)
  | '\\' :: 'u' :: a :: b :: c :: d :: rest =>
    if [a, b, c, d].all fun x => (hexDigit? x).isSome then
      (readString rest).map fun (s, rest) => ('\\' :: 'u' :: a :: b :: c :: d :: s, rest)
    else none
  | '\\' :: c :: rest =>
    if (letterEscapes.lookup c).isSome then
      (readString rest).map fun (s, rest) => ('\\' :: c :: s, rest)
    else none
  | c :: rest =>
    if c = '\\' || c.toNat < 0x20 then none
    else (readString rest).map fun (s, rest) => (c :: s, rest)

/-- Reads a run of digits, at least one. -/
def readDigits (s : Text) : Option (Text × Text) :=
  let (digits, rest) := s.span Char.isDigit
  if digits.isEmpty then none else some (digits, rest)

/-- The digits before the point. Only zero itself starts with a zero. -/
def readWhole : Text → Option (Text × Text)
  | '0' :: rest => if rest.head?.any Char.isDigit then none else some (['0'], rest)
  | s => readDigits s

/-- The digits after the point, if there is one. -/
def readFraction : Text → Option (Text × Text)
  | '.' :: rest => readDigits rest
  | s => some ([], s)

def readExponentDigits (negative : Bool) (s : Text) : Option (Int × Text) :=
  (readDigits s).map fun (digits, rest) =>
    let n : Int := Nat.ofDigitChars 10 digits 0
    (if negative then -n else n, rest)

/-- The exponent, if there is one. -/
def readExponent : Text → Option (Int × Text)
  | c :: rest =>
    if c = 'e' || c = 'E' then
      match rest with
      | '+' :: rest => readExponentDigits false rest
      | '-' :: rest => readExponentDigits true rest
      | rest => readExponentDigits false rest
    else some (0, c :: rest)
  | [] => some (0, [])

def readUnsigned (negative : Bool) (s : Text) : Option (Numeral × Text) := do
  let (whole, s) ← readWhole s
  let (fraction, s) ← readFraction s
  let (exponent, s) ← readExponent s
  return (⟨negative, whole, fraction, exponent⟩, s)

def readNumber : Text → Option (Numeral × Text)
  | '-' :: rest => readUnsigned true rest
  | s => readUnsigned false s

mutual

/-- Reads a value. Every call, here and in lists, takes one unit of `fuel`. -/
def readValue (fuel : Nat) (s : Text) : Option (Json × Text) :=
  match fuel, skip s with
  | 0, _ => none
  | _ + 1, 'n' :: 'u' :: 'l' :: 'l' :: rest => some (null, rest)
  | _ + 1, 't' :: 'r' :: 'u' :: 'e' :: rest => some (bool true, rest)
  | _ + 1, 'f' :: 'a' :: 'l' :: 's' :: 'e' :: rest => some (bool false, rest)
  | _ + 1, '"' :: rest => (readString rest).map fun (s, rest) => (string s, rest)
  | fuel + 1, '[' :: rest =>
    match skip rest with
    | ']' :: rest => some (array [], rest)
    | rest => (readItems fuel rest).map fun (items, rest) => (array items, rest)
  | fuel + 1, '\x7b' :: rest =>
    match skip rest with
    | '\x7d' :: rest => some (object [], rest)
    | rest => (readMembers fuel rest).map fun (members, rest) => (object members, rest)
  | _ + 1, s => (readNumber s).map fun (n, rest) => (number n, rest)

/-- Reads the items of an array up to its end, at least one. -/
def readItems (fuel : Nat) (s : Text) : Option (List Json × Text) :=
  match fuel with
  | 0 => none
  | fuel + 1 => do
    let (item, rest) ← readValue fuel s
    match skip rest with
    | ',' :: rest => (readItems fuel rest).map fun (items, rest) => (item :: items, rest)
    | ']' :: rest => some ([item], rest)
    | _ => none

/-- Reads the members of an object up to its end, at least one. -/
def readMembers (fuel : Nat) (s : Text) : Option (List (Text × Json) × Text) :=
  match fuel, skip s with
  | fuel + 1, '"' :: rest => do
    let (name, rest) ← readString rest
    match skip rest with
    | ':' :: rest =>
      let (value, rest) ← readValue fuel rest
      match skip rest with
      | ',' :: rest =>
        (readMembers fuel rest).map fun (members, rest) => ((name, value) :: members, rest)
      | '\x7d' :: rest => some ([(name, value)], rest)
      | _ => none
    | _ => none
  | _, _ => none

end

/-- Reads a document. Two units of fuel for each character are enough, because a list and its first
value are the only calls made on one text. -/
def parse (s : Text) : Option Json := do
  let (document, rest) ← readValue (2 * s.length + 1) s
  if (skip rest).isEmpty then some document else none

end FilterLang.Json
