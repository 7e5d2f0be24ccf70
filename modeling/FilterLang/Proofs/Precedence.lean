import FilterLang.Proofs.Leaves
import FilterLang.Proofs.Standing

/-! A where clause as a database reads it: parentheses first, then `and`, then `or`. The groups of a
tree survive that reading, but a level without parentheses falls apart at each `or`. -/
namespace FilterLang

variable {α β ε : Type}

namespace Sql

/-- The truth values of SQL. Only a row for which the clause says yes is found. -/
inductive Truth where
  | no
  | unknown
  | yes
  deriving DecidableEq

namespace Truth

def and : Truth → Truth → Truth
  | yes, t => t
  | no, _ => no
  | unknown, no => no
  | unknown, _ => unknown

def or : Truth → Truth → Truth
  | no, t => t
  | yes, _ => yes
  | unknown, yes => yes
  | unknown, _ => unknown

variable (s t u : Truth)

@[simp] theorem yes_and : yes.and t = t := rfl

@[simp] theorem and_yes : t.and yes = t := by cases t <;> rfl

@[simp] theorem or_no : t.or no = t := by cases t <;> rfl

@[simp] theorem and_self : t.and t = t := by cases t <;> rfl

@[simp] theorem or_self : t.or t = t := by cases t <;> rfl

theorem and_assoc : (s.and t).and u = s.and (t.and u) := by cases s <;> cases t <;> cases u <;> rfl

theorem or_assoc : (s.or t).or u = s.or (t.or u) := by cases s <;> cases t <;> cases u <;> rfl

theorem and_eq_yes_iff : s.and t = yes ↔ s = yes ∧ t = yes := by
  cases s <;> cases t <;> decide

end Truth

/-- What a clause is made of. A predicate counts as one word. -/
inductive Lexeme (α : Type) where
  | item (a : α)
  | link (k : Connector)
  | opening
  | closing

def Lexeme.template : Lexeme Predicate → Template
  | item p => p.template
  | link k => [.text (' ' :: k.sql), .text [' ']]
  | opening => [.text ['(']]
  | closing => [.text [')']]

/-- What was read since a parenthesis opened: the alternatives that an `or` has ended, and the units
that `and` has joined since then. -/
structure Scope where
  ended : Truth
  current : Truth

namespace Scope

def start : Scope := ⟨.no, .yes⟩

def truth (s : Scope) : Truth := s.ended.or s.current

def meet (s : Scope) (t : Truth) : Scope := { s with current := s.current.and t }

def link (s : Scope) : Connector → Scope
  | .and => s
  | .or => ⟨s.truth, .yes⟩

end Scope

/-- Where the reading of a clause stands. -/
structure Reader where
  /-- The number of the next item. -/
  next : Nat
  scope : Scope
  /-- The scopes around it, the nearest one first. -/
  outer : List Scope
  /-- Whether a unit has to come now. -/
  awaits : Bool

namespace Reader

/-- Reads one lexeme. The truth value of an item is known by its number. -/
def step (v : Nat → Truth) : Reader → Lexeme α → Option Reader
  | ⟨i, scope, outer, true⟩, .item _ => some ⟨i + 1, scope.meet (v i), outer, false⟩
  | ⟨i, scope, outer, true⟩, .opening => some ⟨i, .start, scope :: outer, true⟩
  | ⟨i, scope, outer, false⟩, .link k => some ⟨i, scope.link k, outer, true⟩
  | ⟨i, scope, around :: outer, false⟩, .closing =>
    some ⟨i, around.meet scope.truth, outer, false⟩
  | _, _ => none

def run (v : Nat → Truth) (r : Reader) (ls : List (Lexeme α)) : Option Reader :=
  ls.foldlM (step v) r

def truth? : Reader → Option Truth
  | ⟨_, scope, [], false⟩ => some scope.truth
  | _ => none

variable {v : Nat → Truth} {r : Reader} {ls ms : List (Lexeme α)}

theorem run_nil : run v r ([] : List (Lexeme α)) = some r := rfl

theorem run_cons {l : Lexeme α} : run v r (l :: ls) = (step v r l).bind fun r => run v r ls := rfl

theorem run_append : run v r (ls ++ ms) = (run v r ls).bind fun r => run v r ms :=
  List.foldlM_append ..

end Reader

/-- What a clause says, if the item with the number `j` says `v j` and its first one has the number
`i`. Without units it holds nothing back. -/
def truth? (v : Nat → Truth) (i : Nat) (ls : List (Lexeme α)) : Option Truth :=
  if ls.isEmpty then some .yes else (Reader.run v ⟨i, .start, [], true⟩ ls).bind Reader.truth?

end Sql

namespace Node

open Sql

variable {f : α → Except ε β}

mutual

/-- Groups are not empty, and in each of them connectors stand between units only. -/
def WellJoined : Node α → Prop
  | leaf _ _ => True
  | group children _ => children ≠ [] ∧ WellJoinedAll children

def WellJoinedAll : List (Node α) → Prop
  | [] => True
  | n :: ns => (n.connector = none ↔ ns = []) ∧ n.WellJoined ∧ WellJoinedAll ns

end

mutual

theorem wellJoined_of_traverse {n : Node α} {m : Node β} (h : n.traverse f = .ok m)
    (hj : n.WellJoined) :
    m.WellJoined ∧ m.connector = n.connector := by
  cases n with
  | leaf item k =>
    rw [traverse] at h
    obtain ⟨b, -, h⟩ := bind_eq_ok_iff.mp h
    cases h
    exact ⟨trivial, rfl⟩
  | group children k =>
    rw [traverse] at h
    obtain ⟨ms, hms, h⟩ := bind_eq_ok_iff.mp h
    cases h
    rw [WellJoined] at hj
    obtain ⟨hall, hmap⟩ := wellJoinedAll_of_traverseAll hms hj.2
    refine ⟨?_, rfl⟩
    rw [WellJoined]
    refine ⟨?_, hall⟩
    rintro rfl
    exact hj.1 (List.map_eq_nil_iff.mp hmap.symm)

/-- Replacing the items keeps the connectors. -/
theorem wellJoinedAll_of_traverseAll {ns : List (Node α)} {ms : List (Node β)}
    (h : traverseAll f ns = .ok ms) (hj : WellJoinedAll ns) :
    WellJoinedAll ms ∧ ms.map connector = ns.map connector := by
  cases ns with
  | nil =>
    cases h
    exact ⟨trivial, rfl⟩
  | cons n ns =>
    rw [traverseAll] at h
    obtain ⟨m, hm, h⟩ := bind_eq_ok_iff.mp h
    obtain ⟨ms, hms, h⟩ := bind_eq_ok_iff.mp h
    cases h
    rw [WellJoinedAll] at hj
    obtain ⟨hk, hn, hns⟩ := hj
    obtain ⟨hone, hsame⟩ := wellJoined_of_traverse hm hn
    obtain ⟨hall, hmap⟩ := wellJoinedAll_of_traverseAll hms hns
    have hempty : ms = [] ↔ ns = [] := by
      rw [← List.map_eq_nil_iff (f := connector), hmap, List.map_eq_nil_iff]
    rw [WellJoinedAll, hsame, hempty]
    exact ⟨⟨hk, hone, hall⟩, by rw [List.map_cons, List.map_cons, hsame, hmap]⟩

end

theorem wellJoinedAll_of_level {Q : Node Condition → Prop} {ns : List (Node Condition)}
    (hQ : ∀ n, Q n → n.WellJoined) (h : Level Q ns) : WellJoinedAll ns := by
  induction ns with
  | nil => trivial
  | cons n ns ih =>
    obtain ⟨hn, hk, hns⟩ := level_cons_iff.mp h
    rw [WellJoinedAll]
    exact ⟨hk, hQ n hn, ih hns⟩

/-- Every block that can be read is well joined. -/
theorem wellJoinedAll_of_parse {mode : Mode} {s : Text} {ns : List (Node Condition)}
    (h : Block.parse mode s = .ok ns) : WellJoinedAll ns := by
  apply wellJoinedAll_of_level _ (Block.parse_eq_ok_iff.mp h).2
  intro n hn
  cases n with
  | leaf c k => trivial
  | group children k =>
    rw [WellJoined]
    refine ⟨hn.1, wellJoinedAll_of_level ?_ hn.2⟩
    intro m hm
    cases m with
    | leaf c k => trivial
    | group _ _ => exact hm.elim

mutual

/-- The text of a unit without the connector after it. -/
def lexemes : Node α → List (Lexeme α)
  | leaf item _ => [.item item]
  | group children _ => .opening :: (lexemesAll children ++ [.closing])

def lexemesAll : List (Node α) → List (Lexeme α)
  | [] => []
  | n :: ns => n.lexemes ++ ((n.connector.map .link).toList ++ lexemesAll ns)

end

mutual

/-- What a unit says, if the number of its first item is `i`. -/
def truth (v : Nat → Truth) (i : Nat) : Node α → Truth
  | leaf _ _ => v i
  | group children _ => (first v i children).or (others v i children)

/-- What the units in front of the first `or` say. -/
def first (v : Nat → Truth) (i : Nat) : List (Node α) → Truth
  | [] => .yes
  | n :: ns =>
    if n.connector = some .and then (n.truth v i).and (first v (i + n.leaves.length) ns)
    else n.truth v i

/-- What the units behind the first `or` say. -/
def others (v : Nat → Truth) (i : Nat) : List (Node α) → Truth
  | [] => .no
  | n :: ns =>
    if n.connector = some .or then
      (first v (i + n.leaves.length) ns).or (others v (i + n.leaves.length) ns)
    else others v (i + n.leaves.length) ns

end

variable {v : Nat → Truth}

mutual

theorem run_lexemes {n : Node α} (h : n.WellJoined) (i : Nat) (scope : Scope) (outer : List Scope) :
    Reader.run v ⟨i, scope, outer, true⟩ n.lexemes =
      some ⟨i + n.leaves.length, scope.meet (n.truth v i), outer, false⟩ := by
  cases n with
  | leaf item k => simp [lexemes, leaves, truth, Reader.run_cons, Reader.run_nil, Reader.step]
  | group children k =>
    rw [WellJoined] at h
    obtain ⟨last, hrun, hlast⟩ := run_lexemesAll h.2 h.1 i .start (scope :: outer)
    have hgroup : last.truth = truth v i (group children k) := by
      rw [hlast, truth]
      rfl
    rw [lexemes, Reader.run_cons, Reader.step, Option.bind_some, Reader.run_append, hrun]
    simp [Reader.run_cons, Reader.run_nil, Reader.step, hgroup, leaves]

/-- The units of a level pass through the reader as one alternative and the others. -/
theorem run_lexemesAll {ns : List (Node α)} (h : WellJoinedAll ns) (hne : ns ≠ []) (i : Nat)
    (scope : Scope) (outer : List Scope) :
    ∃ last, Reader.run v ⟨i, scope, outer, true⟩ (lexemesAll ns) =
        some ⟨i + (leavesAll ns).length, last, outer, false⟩ ∧
      last.truth = (scope.meet (first v i ns)).truth.or (others v i ns) := by
  cases ns with
  | nil => exact absurd rfl hne
  | cons n ns =>
    rw [WellJoinedAll] at h
    obtain ⟨hk, hn, hns⟩ := h
    rw [lexemesAll, Reader.run_append, run_lexemes hn, Option.bind_some, leavesAll,
      List.length_append, ← Nat.add_assoc]
    by_cases hempty : ns = []
    · subst hempty
      have hnone : n.connector = none := hk.mpr rfl
      refine ⟨scope.meet (n.truth v i), ?_, ?_⟩
      · simp [hnone, lexemesAll, leavesAll, Reader.run_nil]
      · simp [hnone, first, others]
    · -- The connector decides whether the rest goes on with this alternative or opens another.
      obtain ⟨k, hlink⟩ := Option.ne_none_iff_exists'.mp fun h => hempty (hk.mp h)
      obtain ⟨last, hrun, hlast⟩ := run_lexemesAll hns hempty (i + n.leaves.length)
        ((scope.meet (n.truth v i)).link k) outer
      refine ⟨last, ?_, ?_⟩
      · simp [hlink, Reader.run_cons, Reader.step, hrun]
      · rw [hlast]
        cases k with
        | and => simp [first, others, hlink, Scope.link, Scope.meet, Truth.and_assoc]
        | or => simp [first, others, hlink, Scope.link, Scope.meet, Scope.truth, Truth.or_assoc]

end

theorem lexemesAll_eq_nil_iff {ns : List (Node α)} : lexemesAll ns = [] ↔ ns = [] := by
  rcases ns with _ | ⟨_ | _, ns⟩ <;> simp [lexemesAll, lexemes]

/-- A level says what one of its alternatives says, whatever the depth of its groups. -/
theorem truth?_lexemesAll {ns : List (Node α)} (h : WellJoinedAll ns) (i : Nat) :
    truth? v i (lexemesAll ns) = some ((first v i ns).or (others v i ns)) := by
  unfold truth?
  by_cases hempty : ns = []
  · subst hempty
    simp [lexemesAll, first, others]
  · obtain ⟨last, hrun, hlast⟩ := run_lexemesAll h hempty i .start []
    have hne : (lexemesAll ns).isEmpty = false := by
      rw [List.isEmpty_eq_false_iff, ne_eq, lexemesAll_eq_nil_iff]
      exact hempty
    rw [hne, hrun, Option.bind_some, Reader.truth?, hlast]
    rfl

-- `a and b or c`: the last word decides alone.
example : truth? (fun j => if j = 2 then .yes else .no) 0
    [.item 'a', .link .and, .item 'b', .link .or, .item 'c'] = some .yes := rfl

/-- Without an `or` there is one alternative only. -/
theorem others_eq_no {ns : List (Node α)} (h : some .or ∉ ns.map connector) (i : Nat) :
    others v i ns = .no := by
  induction ns generalizing i with
  | nil => rw [others]
  | cons n ns ih =>
    rw [List.map_cons, List.mem_cons, not_or] at h
    obtain ⟨hn, hns⟩ := h
    rw [others, if_neg (Ne.symm hn), ih hns]

mutual

theorem truth_of_uniform {t : Truth} {n : Node α} (h : n.WellJoined) (i : Nat)
    (hv : ∀ j, i ≤ j → j < i + n.leaves.length → v j = t) : n.truth v i = t := by
  cases n with
  | leaf item k =>
    rw [truth]
    exact hv i (Nat.le_refl i) (by simp [leaves])
  | group children k =>
    rw [WellJoined] at h
    rw [leaves] at hv
    obtain ⟨hfirst, hothers⟩ := first_of_uniform h.2 h.1 i hv
    rw [truth, hfirst]
    by_cases hor : some .or ∈ children.map connector
    · rw [hothers hor, Truth.or_self]
    · rw [others_eq_no hor, Truth.or_no]

/-- Where all items say the same, every alternative does. -/
theorem first_of_uniform {t : Truth} {ns : List (Node α)} (h : WellJoinedAll ns) (hne : ns ≠ [])
    (i : Nat) (hv : ∀ j, i ≤ j → j < i + (leavesAll ns).length → v j = t) :
    first v i ns = t ∧ (some .or ∈ ns.map connector → others v i ns = t) := by
  cases ns with
  | nil => exact absurd rfl hne
  | cons n ns =>
    rw [WellJoinedAll] at h
    obtain ⟨hk, hn, hns⟩ := h
    rw [leavesAll, List.length_append] at hv
    have htruth : n.truth v i = t := truth_of_uniform hn i fun j hi hj => hv j hi (by omega)
    by_cases hempty : ns = []
    · subst hempty
      have hnone : n.connector = none := hk.mpr rfl
      simp [first, hnone, htruth]
    · obtain ⟨hfirst, hothers⟩ := first_of_uniform hns hempty (i + n.leaves.length)
        fun j hi hj => hv j (by omega) (by omega)
      obtain ⟨k, hlink⟩ := Option.ne_none_iff_exists'.mp fun h => hempty (hk.mp h)
      cases k with
      | and => simpa [first, others, hlink, htruth, hfirst] using hothers
      | or =>
        refine ⟨by simp [first, hlink, htruth], fun _ => ?_⟩
        rw [others, if_pos hlink, hfirst]
        by_cases hor : some .or ∈ ns.map connector
        · rw [hothers hor, Truth.or_self]
        · rw [others_eq_no hor, Truth.or_no]

end

theorem truth?_of_uniform {t : Truth} {ns : List (Node α)} (h : WellJoinedAll ns) (hne : ns ≠ [])
    (i : Nat) (hv : ∀ j, i ≤ j → j < i + (leavesAll ns).length → v j = t) :
    truth? v i (lexemesAll ns) = some t := by
  have hgroup : truth v i (group ns none) = t := by
    apply truth_of_uniform
    · rw [WellJoined]
      exact ⟨hne, h⟩
    · rwa [leaves]
  rw [truth] at hgroup
  rw [truth?_lexemesAll h, hgroup]

end Node

namespace Sql.Clause

open Node

mutual

theorem unitTemplate_eq_flatMap {n : Node Predicate} (h : n.WellJoined) :
    unitTemplate n = n.lexemes.flatMap Lexeme.template ++ link n.connector := by
  cases n with
  | leaf p k => simp [unitTemplate, lexemes, Lexeme.template, connector]
  | group children k =>
    rw [WellJoined] at h
    simp [unitTemplate, lexemes, Lexeme.template, connector, template_eq_flatMap h.2]

/-- The text of a clause is that of its lexemes, one after the other. -/
theorem template_eq_flatMap {c : Clause} (h : WellJoinedAll c) :
    template c = (lexemesAll c).flatMap Lexeme.template := by
  match c with
  | [] => simp [template, lexemesAll]
  | [n] =>
    rw [WellJoinedAll] at h
    have hnone : n.connector = none := h.1.mpr rfl
    simp [template, lexemesAll, unitTemplate_eq_flatMap h.2.1, hnone, link]
  | n :: m :: ns =>
    rw [WellJoinedAll] at h
    obtain ⟨k, hlink⟩ := Option.ne_none_iff_exists'.mp fun hnone => absurd (h.1.mp hnone) (by simp)
    rw [template, lexemesAll, unitTemplate_eq_flatMap h.2.1, template_eq_flatMap h.2.2, hlink]
    simp [link, Lexeme.template]

end

end Sql.Clause

end FilterLang
