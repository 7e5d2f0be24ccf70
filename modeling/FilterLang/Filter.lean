import FilterLang.Block

/-! A filter: three blocks of text between two question marks. -/
namespace FilterLang

/-- The blocks of a filter, each as written. -/
structure Filter where
  fields : Text
  conditions : Text
  restrictions : Text

namespace Filter

def print (f : Filter) : Text := f.fields ++ '?' :: f.conditions ++ '?' :: f.restrictions

/-- Splits a filter at its first two question marks; any other belongs to the last block. -/
def split (s : Text) : Except Error Filter :=
  match Text.cut? ['?'] s with
  | none => .error (.malformed (.blockCount s))
  | some (fields, rest) =>
    match Text.cut? ['?'] rest with
    | none => .error (.malformed (.blockCount s))
    | some (conditions, restrictions) => .ok ⟨fields, conditions, restrictions⟩

/-- The blocks keep every character of the filter. -/
theorem print_of_split {s : Text} {f : Filter} (h : split s = .ok f) : f.print = s := by
  unfold split at h
  split at h
  · contradiction
  · next hc =>
    split at h
    · contradiction
    · next hd =>
      cases h
      simp [print, ← Text.append_of_cut? hc, ← Text.append_of_cut? hd]

/-- Splits a filter that must not be empty. -/
def parse (s : Text) : Except Error Filter :=
  if s.isEmpty then .error (.missing .queryString) else split s

/-- The units of the condition block. -/
def nodes (f : Filter) : Except Error (List (Node Condition)) :=
  Block.parse .standard f.conditions

def withNodes (f : Filter) (nodes : List (Node Condition)) : Filter :=
  { f with conditions := Node.printAll nodes }

end Filter

end FilterLang
