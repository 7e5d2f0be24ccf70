import FilterLang.Text.Basic
import FilterLang.Text.CaseTable

/-! Small letters of any script. Only the capital sigma looks at its neighbours. -/
namespace FilterLang.Text

def inRuns (runs : List (Nat × Nat)) (c : Char) : Bool :=
  runs.any fun (first, last) => first ≤ c.toNat && c.toNat ≤ last

/-- The small form of one character, taken on its own. -/
def lowerChar (c : Char) : Text :=
  if c = 'İ' then ['i', '\u0307']
  else match capitals.find? (·.holds c.toNat) with
    | some run => [Char.ofNat (c.toNat + run.shift).toNat]
    | none => [c]

/-- Whether the next character that counts for case is a letter with case. -/
def meetsLetter (s : Text) : Bool :=
  match s.dropWhile (inRuns caseIgnorable) with
  | c :: _ => inRuns casedLetters c
  | [] => false

/-- Lowers `s`, where `before` is the text passed so far, last character first. A sigma that ends
a word has a small form of its own. -/
def lowerFrom (before : Text) : Text → Text
  | [] => []
  | c :: cs =>
    let small :=
      if c = 'Σ' then (if meetsLetter before && !meetsLetter cs then ['ς'] else ['σ'])
      else lowerChar c
    small ++ lowerFrom (c :: before) cs

def lower (s : Text) : Text := lowerFrom [] s

end FilterLang.Text
