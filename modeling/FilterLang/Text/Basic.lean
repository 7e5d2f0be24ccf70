/-! Text as a list of characters, with the one cut that the language is built on. -/
namespace FilterLang

/-- All text of the library. Cuts and joins are then plain list operations. -/
abbrev Text := List Char

namespace Text

/-- Cuts a text around the first occurrence of `mark`, which is not empty. -/
def cut? (mark : Text) : Text → Option (Text × Text)
  | [] => none
  | c :: cs =>
    if mark.isPrefixOf (c :: cs) then some ([], (c :: cs).drop mark.length)
    else (cut? mark cs).map fun (before, rest) => (c :: before, rest)

theorem append_of_cut? {mark s before rest : Text} (h : cut? mark s = some (before, rest)) :
    before ++ (mark ++ rest) = s := by
  induction s generalizing before with
  | nil => contradiction
  | cons c cs ih =>
    rw [cut?] at h
    split at h
    · next hp =>
      cases h
      exact List.prefix_iff_eq_append.mp (List.isPrefixOf_iff_prefix.mp hp)
    · obtain ⟨⟨b, r⟩, hb, he⟩ := Option.map_eq_some_iff.mp h
      cases he
      rw [List.cons_append, ih hb]

/-- Whether `mark` stands somewhere in the text. -/
def holds (mark s : Text) : Bool := (cut? mark s).isSome

end Text

end FilterLang
