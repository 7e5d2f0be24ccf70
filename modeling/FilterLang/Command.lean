import FilterLang.Text.Blank

/-! The lines that a session takes. -/
namespace FilterLang

inductive Command where
  | quit
  | help
  | targets
  | target (name : Text)
  | count
  | args
  | search (text : Text)
  | json
  | conditions (filter : Text)
  | unknown (word : Text)
  /-- A line that is no command is a filter, taken whole. -/
  | filter (line : Text)

/-- A command is the text before the first space, and its argument is the rest without the blanks
around it. -/
def Command.parse (line : Text) : Command :=
  let (word, rest) := (Text.cut? [' '] line).getD (line, [])
  let argument := rest.trim
  if word = ":quit".toList ∨ word = ":exit".toList then .quit
  else if word = ":help".toList then .help
  else if word = ":targets".toList then .targets
  else if word = ":target".toList then .target argument
  else if word = ":count".toList then .count
  else if word = ":args".toList then .args
  else if word = ":search".toList then .search argument
  else if word = ":json".toList then .json
  else if word = ":conditions".toList then .conditions argument
  else if word.head? = some ':' then .unknown word
  else .filter line

end FilterLang
