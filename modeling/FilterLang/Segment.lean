import FilterLang.Error
import FilterLang.Outcome

/-! A block cut into its units. Each step takes one unit and the connector after it, so that what is
left gets shorter. -/
namespace FilterLang

/-- A unit of a block before its conditions are read. -/
inductive Segment where
  | atom (text : Text) (connector : Option Connector)
  | group (content : Text) (connector : Option Connector)

namespace Segment

def print : Segment → Text
  | atom text k => text ++ Connector.text k
  | group content k => '(' :: content ++ ')' :: Connector.text k

/-- Reads a group, whose opening parenthesis stands before `s`. It ends at the first closing one. -/
def readGroup (s : Text) : Except Fault (Text × Text) :=
  match Text.cut? [')'] s with
  | none => .error (.unbalanced ('(' :: s))
  | some (content, rest) =>
    if content.contains '(' then .error (.nestedGroup ('(' :: content ++ [')']))
    else if content.isEmpty then .error .emptyGroup
    else .ok (content, rest)

/-- Reads a condition's text, which goes up to the next connector. -/
def readAtom (s : Text) : Except Fault (Text × Text) :=
  let (text, rest) := Connector.span s
  if text.isEmpty then .error (.emptyCondition s)
  else if text.contains '(' || text.contains ')' then .error (.strayParenthesis text)
  else .ok (text, rest)

/-- Reads the connector after a unit. At the end of a block there must be none, and elsewhere one. -/
def readLink (s : Text) : Except Fault (Option Connector × Text) :=
  if s.isEmpty then .ok (none, [])
  else match Connector.lead? s with
    | none => .error (.missingConnector s)
    | some (k, rest) => if rest.isEmpty then .error (.danglingConnector k) else .ok (some k, rest)

/-- Reads one unit. Only where `grouping` is set may a parenthesis open a group. -/
def read (grouping : Bool) (s : Text) : Except Fault (Segment × Text) :=
  match grouping, s with
  | true, '(' :: tail => do
    let (content, rest) ← readGroup tail
    let (k, rest) ← readLink rest
    return (group content k, rest)
  | _, _ => do
    let (text, rest) ← readAtom s
    let (k, rest) ← readLink rest
    return (atom text k, rest)

theorem append_of_readGroup {s content rest : Text} (h : readGroup s = .ok (content, rest)) :
    content ++ ')' :: rest = s := by
  unfold readGroup at h
  split at h
  · contradiction
  · next hc =>
    split at h
    · contradiction
    · split at h
      · contradiction
      · cases h
        simpa using Text.append_of_cut? hc

theorem append_of_readAtom {s text rest : Text} (h : readAtom s = .ok (text, rest)) :
    text ≠ [] ∧ text ++ rest = s := by
  have hs := Connector.span_append s
  unfold readAtom at h
  split at h
  next hp =>
    split at h
    · contradiction
    · split at h
      · contradiction
      · cases h
        simp_all

theorem append_of_readLink {s rest : Text} {k : Option Connector}
    (h : readLink s = .ok (k, rest)) : Connector.text k ++ rest = s := by
  unfold readLink at h
  split at h
  · cases h
    simp_all [Connector.text]
  · split at h
    · contradiction
    · next hl =>
      split at h
      · contradiction
      · cases h
        exact Connector.append_of_lead? hl

/-- A unit that was read, and what follows it, make up the text. -/
theorem append_of_read {grouping : Bool} {s rest : Text} {g : Segment}
    (h : read grouping s = .ok (g, rest)) : g.print ++ rest = s := by
  unfold read at h
  split at h
  · obtain ⟨⟨content, r⟩, hg, h⟩ := bind_eq_ok_iff.mp h
    obtain ⟨⟨k, r'⟩, hk, h⟩ := bind_eq_ok_iff.mp h
    cases h
    simp [← append_of_readGroup hg, ← append_of_readLink hk, print]
  · obtain ⟨⟨text, r⟩, ha, h⟩ := bind_eq_ok_iff.mp h
    obtain ⟨⟨k, r'⟩, hk, h⟩ := bind_eq_ok_iff.mp h
    cases h
    simp [← (append_of_readAtom ha).2, ← append_of_readLink hk, print]

theorem print_ne_nil_of_read {grouping : Bool} {s rest : Text} {g : Segment}
    (h : read grouping s = .ok (g, rest)) : g.print ≠ [] := by
  unfold read at h
  split at h
  · obtain ⟨⟨content, r⟩, -, h⟩ := bind_eq_ok_iff.mp h
    obtain ⟨⟨k, r'⟩, -, h⟩ := bind_eq_ok_iff.mp h
    cases h
    simp [print]
  · obtain ⟨⟨text, r⟩, ha, h⟩ := bind_eq_ok_iff.mp h
    obtain ⟨⟨k, r'⟩, -, h⟩ := bind_eq_ok_iff.mp h
    cases h
    simp [print, (append_of_readAtom ha).1]

theorem length_of_read {grouping : Bool} {s rest : Text} {g : Segment}
    (h : read grouping s = .ok (g, rest)) : rest.length < s.length := by
  have hp := List.length_pos_iff.mpr (print_ne_nil_of_read h)
  simp only [← append_of_read h, List.length_append]
  omega

end Segment

/-- The units of a text up to its end, or up to the first fault. -/
structure Scan where
  segments : List Segment
  fault : Option Fault

namespace Scan

/-- One call on a scanner that stands in front of `s`: nothing at the end of the text, else a unit
and what is left behind it, or a fault, which leaves nothing. -/
def next (grouping : Bool) (s : Text) : Option (Except Fault Segment × Text) :=
  if s.isEmpty then none
  else match Segment.read grouping s with
    | .ok (g, rest) => some (.ok g, rest)
    | .error fault => some (.error fault, [])

theorem next_eq_none_iff {grouping : Bool} {s : Text} : next grouping s = none ↔ s = [] := by
  unfold next
  split
  · simp_all
  · split <;> simp_all

theorem next_eq_ok_iff {grouping : Bool} {s rest : Text} {g : Segment} :
    next grouping s = some (.ok g, rest) ↔ Segment.read grouping s = .ok (g, rest) := by
  have hne : Segment.read grouping s = .ok (g, rest) → s ≠ [] := by
    rintro hr rfl
    exact absurd (Segment.length_of_read hr) (Nat.not_lt_zero _)
  unfold next
  split
  · simp_all
  · split <;> simp_all

theorem next_eq_error_iff {grouping : Bool} {s rest : Text} {fault : Fault} :
    next grouping s = some (.error fault, rest) ↔
      s ≠ [] ∧ Segment.read grouping s = .error fault ∧ rest = [] := by
  unfold next
  split
  · simp_all
  · next hs =>
    simp only [List.isEmpty_iff] at hs
    split
    · simp_all
    · next hr => simp [hs, hr, eq_comm]

/-- Cuts a whole text into units, call by call. -/
def of (grouping : Bool) (s : Text) : Scan :=
  match _hn : next grouping s with
  | none => ⟨[], none⟩
  | some (.error fault, _) => ⟨[], some fault⟩
  | some (.ok g, rest) =>
    let tail := of grouping rest
    ⟨g :: tail.segments, tail.fault⟩
termination_by s.length
decreasing_by exact Segment.length_of_read (next_eq_ok_iff.mp _hn)

end Scan

end FilterLang
