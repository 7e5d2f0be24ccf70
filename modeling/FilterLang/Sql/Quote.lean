import FilterLang.Value.Basic

/-! Values as SQL text. How text is quoted is up to the library that talks to the database, so
everything here takes it as a parameter. -/
namespace FilterLang.Sql

/-- Writes a text as a literal of a statement. -/
abbrev Quoting := Text → Text

namespace Quoting

/-- What is known of quoting for PostgreSQL, where `escape` says how a character is written inside a
literal. -/
structure EscapesBy (quote : Quoting) (escape : Char → Text) : Prop where
  /-- A backslash and one more character stand for a character, or it is kept. A quote and a
  backslash are not kept. -/
  char : ∀ c, (∃ d, escape c = ['\\', d]) ∨ escape c = [c] ∧ c ≠ '\\' ∧ c ≠ '\''
  /-- Where nothing had to be escaped there are only the quotes around the text. -/
  plain : ∀ s : Text, '\\' ∉ s.flatMap escape → quote s = '\'' :: s.flatMap escape ++ ['\'']
  /-- Else there is an `E` in front, without which a backslash would not escape. -/
  marked : ∀ s : Text, '\\' ∈ s.flatMap escape →
    quote s = 'E' :: '\'' :: s.flatMap escape ++ ['\'']

/-- The escapes that statements are run with. -/
def escapeChar (c : Char) : Text :=
  match c with
  | '\\' => ['\\', '\\']
  | '"' => ['\\', '"']
  | '\'' => ['\\', '\'']
  | '\x00' => ['\\', '0']
  | '\x08' => ['\\', 'b']
  | '\t' => ['\\', 't']
  | '\x1a' => ['\\', 'z']
  | '\n' => ['\\', 'n']
  | '\r' => ['\\', 'r']
  | _ => [c]

/-- The quoting that statements are run with. -/
def postgres : Quoting := fun s =>
  let escaped := s.flatMap escapeChar
  let body := '\'' :: escaped ++ ['\'']
  if escaped.contains '\\' then 'E' :: body else body

theorem postgres_escapesBy : EscapesBy postgres escapeChar where
  char := by
    intro c
    unfold escapeChar
    split <;> simp_all
  plain := by
    intro s h
    simp [postgres, h]
  marked := by
    intro s h
    simp [postgres, h]

end Quoting

/-- What stands in front of the items of an array. -/
def arrayOpening : Text := "array[".toList

mutual

/-- A value written into a statement. The key of a path is no part of it. -/
def literal (quote : Quoting) : Value → Text
  | .null => "null".toList
  | .bool b => Value.ofBool b
  | .int n => Text.ofInt n
  | .text s => quote s
  | .array items => arrayOpening ++ [','].intercalate (literals quote items) ++ [']']
  | .path _ inner => literal quote inner

def literals (quote : Quoting) : List Value → List Text
  | [] => []
  | v :: vs => literal quote v :: literals quote vs

end

@[simp] theorem literals_eq_map (quote : Quoting) (vs : List Value) :
    literals quote vs = vs.map (literal quote) := by
  induction vs with
  | nil => rfl
  | cons v vs ih => rw [literals, ih, List.map_cons]

end FilterLang.Sql
