import FilterLang.Text.Basic

/-! The characters that may pass from a request into a value. -/
namespace FilterLang

/-- ASCII letters and digits and Cyrillic letters always pass, and so does `extra`. A run of other
characters becomes one `replacement`, or nothing. -/
structure Charset where
  extra : List Char
  replacement : Option Char

namespace Charset

/-- For the values of conditions. -/
def condition : Charset := ⟨['\x7b', '\x7d', '_', '\'', ',', '-', '^', ' '], none⟩

/-- For search text, where a rejected run matches anything. -/
def search : Charset := ⟨['\'', ',', '^', ' ', '%'], some '%'⟩

def isCyrillic (c : Char) : Bool := ('А' ≤ c && c ≤ 'я') || c == 'ё' || c == 'Ё'

def allows (cs : Charset) (c : Char) : Bool :=
  c.isAlphanum || isCyrillic c || cs.extra.contains c

/-- Sanitizes a text, where `rejecting` says that a rejected run is under way. -/
def sanitizeFrom (cs : Charset) (rejecting : Bool) : Text → Text
  | [] => []
  | c :: s =>
    if cs.allows c then c :: cs.sanitizeFrom false s
    else if rejecting then cs.sanitizeFrom true s
    else cs.replacement.toList ++ cs.sanitizeFrom true s

def sanitize (cs : Charset) (s : Text) : Text := cs.sanitizeFrom false s

end Charset

end FilterLang
