import FilterLang.Proofs.Deleting

/-! A condition in its place. A tree is taken apart around one of its conditions, so that what stands
before it and what stands after it, as units and as text, can be spoken of by themselves. -/
namespace FilterLang

open Occurrence

namespace Node

variable {ns : List (Node Condition)} {c : Condition} {first later : List Occurrence}
  {old : Occurrence}

/-- A gap in a level: the units before it, the connector behind it, and the units after that. -/
structure Gap where
  before : List (Node Condition)
  link : Option Connector
  after : List (Node Condition)

namespace Gap

/-- The level once a unit has been put into the gap. -/
def fill (g : Gap) (unit : Option Connector → Node Condition) : List (Node Condition) :=
  g.before ++ unit g.link :: g.after

/-- The level once the gap has been closed: its connector passes to the unit before it. -/
def close (g : Gap) : List (Node Condition) := relink g.link g.before ++ g.after

def front (g : Gap) : Text := printAll g.before

def back (g : Gap) : Text := Connector.text g.link ++ printAll g.after

theorem printAll_fill_leaf (g : Gap) (c : Condition) :
    printAll (g.fill (leaf c)) = g.front ++ c.print ++ g.back := by
  simp [fill, front, back, printAll_append, printAll, print]

theorem printAll_fill_group (g : Gap) (children : List (Node Condition)) :
    printAll (g.fill (group children)) = g.front ++ '(' :: printAll children ++ ')' :: g.back := by
  simp [fill, front, back, printAll_append, printAll, print]

end Gap

/-- A place for a condition: in the top level, or in a group that has its own place there. -/
inductive Spot where
  | top (g : Gap)
  | inner (outer inside : Gap)

namespace Spot

/-- The tree with a condition in the spot. -/
def fill : Spot → Condition → List (Node Condition)
  | top g, c => g.fill (leaf c)
  | inner outer inside, c => outer.fill (group (inside.fill (leaf c)))

def grouped : Spot → Bool
  | top _ => false
  | inner _ _ => true

/-- The text before the spot. -/
def front : Spot → Text
  | top g => g.front
  | inner outer inside => outer.front ++ '(' :: inside.front

/-- The text after the spot. -/
def back : Spot → Text
  | top g => g.back
  | inner outer inside => inside.back ++ ')' :: outer.back

/-- The conditions before the spot. -/
def earlier : Spot → List Occurrence
  | top g => ofNodes g.before
  | inner outer inside => ofNodes outer.before ++ inside.before.filterMap ofChild?

theorem printAll_fill (s : Spot) (c : Condition) :
    printAll (s.fill c) = s.front ++ c.print ++ s.back := by
  cases s with
  | top g => exact g.printAll_fill_leaf c
  | inner outer inside =>
    simp [fill, front, back, Gap.printAll_fill_group, Gap.printAll_fill_leaf]

end Spot

theorem ofNodes_cons (n : Node Condition) (ns : List (Node Condition)) :
    ofNodes (n :: ns) = ofNode n ++ ofNodes ns := List.flatMap_cons

/-- Each condition listed from a group has a gap of its own in it. -/
theorem exists_gap {children : List (Node Condition)} {k : Option Connector}
    (h : ofNode (group children k) = first ++ old :: later) :
    ∃ g : Gap, children = g.fill (leaf old.condition) ∧ g.before.filterMap ofChild? = first ∧
      old.inGroup = true := by
  change (relink k children).filterMap ofChild? = first ++ old :: later at h
  -- The last member is listed with the connector of the group, so the induction is on `relink`.
  fun_induction relink k children generalizing first with
  | case1 => simp at h
  | case2 n =>
    cases n with
    | group cs l =>
      have hnone : [] = first ++ old :: later := h
      simp at hnone
    | leaf c l =>
      obtain ⟨rfl, rfl, rfl⟩ : first = [] ∧ old = ⟨c, true, k⟩ ∧ later = [] := by
        simpa [withConnector, ofChild?, List.singleton_eq_append_iff] using h
      exact ⟨⟨[], l, []⟩, rfl, rfl, rfl⟩
  | case3 n m ns ih =>
    cases n with
    | group cs l =>
      obtain ⟨g, hg, hfirst, hin⟩ := ih (by simpa [List.filterMap_cons, ofChild?] using h)
      exact ⟨⟨group cs l :: g.before, g.link, g.after⟩, by rw [hg]; rfl, hfirst, hin⟩
    | leaf c l =>
      rw [List.filterMap_cons_some (by rfl : ofChild? (leaf c l) = some ⟨c, true, l⟩)] at h
      cases first with
      | nil =>
        obtain ⟨rfl, -⟩ := List.cons.inj h
        exact ⟨⟨[], l, m :: ns⟩, rfl, rfl, rfl⟩
      | cons o first =>
        obtain ⟨rfl, hrest⟩ := List.cons.inj h
        obtain ⟨g, hg, hfirst, hin⟩ := ih hrest
        refine ⟨⟨leaf c l :: g.before, g.link, g.after⟩, by rw [hg]; rfl, ?_, hin⟩
        simp [ofChild?, hfirst]

/-- A condition that is listed from a tree is listed from one of its units. -/
theorem exists_unit (h : ofNodes ns = first ++ old :: later) :
    ∃ before n after listed rest, ns = before ++ n :: after ∧ ofNode n = listed ++ old :: rest ∧
      first = ofNodes before ++ listed := by
  induction ns generalizing first with
  | nil => simp [ofNodes] at h
  | cons n ns ih =>
    have hsplit : (∃ rest, ofNode n = first ++ old :: rest) ∨
        ∃ listed, first = ofNode n ++ listed ∧ ofNodes ns = listed ++ old :: later := by
      rw [ofNodes_cons] at h
      rcases List.append_eq_append_iff.mp h with ⟨listed, hfirst, hrest⟩ | ⟨rest, hn, hrest⟩
      · exact .inr ⟨listed, hfirst, hrest⟩
      · cases rest with
        | nil => exact .inr ⟨[], by simpa using hn.symm, by simpa using hrest.symm⟩
        | cons o rest =>
          obtain ⟨rfl, -⟩ := List.cons.inj hrest
          exact .inl ⟨rest, hn⟩
    rcases hsplit with ⟨rest, hn⟩ | ⟨listed, rfl, hlisted⟩
    · exact ⟨[], n, ns, first, rest, rfl, hn, rfl⟩
    · obtain ⟨before, m, after, inner, rest, rfl, hm, rfl⟩ := ih hlisted
      refine ⟨n :: before, m, after, inner, rest, rfl, hm, ?_⟩
      rw [ofNodes_cons, List.append_assoc]

/-- Each condition listed from a tree has a spot of its own in it. -/
theorem exists_spot (h : ofNodes ns = first ++ old :: later) :
    ∃ s : Spot, ns = s.fill old.condition ∧ s.earlier = first ∧ s.grouped = old.inGroup := by
  obtain ⟨before, n, after, listed, rest, rfl, hn, rfl⟩ := exists_unit h
  cases n with
  | leaf c k =>
    obtain ⟨rfl, rfl, rfl⟩ : listed = [] ∧ old = ⟨c, false, k⟩ ∧ rest = [] := by
      simpa [ofNode, List.singleton_eq_append_iff] using hn
    exact ⟨.top ⟨before, k, after⟩, rfl, by simp [Spot.earlier], rfl⟩
  | group children k =>
    obtain ⟨inside, rfl, rfl, hin⟩ := exists_gap hn
    exact ⟨.inner ⟨before, k, after⟩ inside, rfl, rfl, hin.symm⟩

variable {name : Text}

theorem not_isOn_of_listed
    (h : ∀ o ∈ ns.filterMap ofChild?, o.condition.field ≠ name) :
    ∀ n ∈ ns, isOn name n = false := by
  intro n hn
  rw [← Bool.not_eq_true, isOn_iff]
  rintro ⟨o, ho, hname⟩
  exact h o (List.mem_filterMap.mpr ⟨n, hn, ho⟩) hname

theorem Gap.splitFirst?_fill {p : Node Condition → Bool} {unit : Option Connector → Node Condition}
    (g : Gap) (hu : p (unit g.link) = true) (hb : ∀ n ∈ g.before, p n = false) :
    splitFirst? p (g.fill unit) = some (g.before, unit g.link, g.after) :=
  splitFirst?_eq_some_iff.mpr ⟨rfl, hu, hb⟩

namespace Spot

/-- The tree with a condition in the spot that may bring parentheses of its own. In a group it
cannot. -/
def put (parentheses : Bool) : Spot → Condition → List (Node Condition)
  | top g, c => g.fill (single parentheses c)
  | inner outer inside, c => fill (inner outer inside) c

/-- The tree without the condition in the spot. A group that would be left empty goes too. -/
def clear : Spot → List (Node Condition)
  | top g => g.close
  | inner outer inside =>
    if inside.close.isEmpty then outer.close else outer.fill (group inside.close)

variable {s : Spot}

/-- The search for the first condition on a field ends at its spot, in a group as well. -/
theorem splitFirst?_group {outer inside : Gap} (hc : c.field = name)
    (hs : ∀ o ∈ (inner outer inside).earlier, o.condition.field ≠ name) :
    splitFirst? (mentions name) ((inner outer inside).fill c) =
        some (outer.before, group (inside.fill (leaf c)) outer.link, outer.after) ∧
      splitFirst? (isOn name) (inside.fill (leaf c)) =
        some (inside.before, leaf c inside.link, inside.after) := by
  obtain ⟨hout, hin⟩ := List.forall_mem_append.mp hs
  constructor
  · refine outer.splitFirst?_fill ?_ (forall_not_mentions_iff.mpr hout)
    simp [mentions, Gap.fill, isOn, hc]
  · exact inside.splitFirst?_fill (by simpa [isOn] using hc) (not_isOn_of_listed hin)

theorem splitFirst?_top {g : Gap} (hc : c.field = name)
    (hs : ∀ o ∈ (top g).earlier, o.condition.field ≠ name) :
    splitFirst? (mentions name) ((top g).fill c) = some (g.before, leaf c g.link, g.after) :=
  g.splitFirst?_fill (by simpa [mentions] using hc) (forall_not_mentions_iff.mpr hs)

/-- Replacing the first condition on a field fills its spot anew. -/
theorem replaceFirst?_fill {e : Entry} (hc : c.field = e.field)
    (hs : ∀ o ∈ s.earlier, o.condition.field ≠ e.field) :
    e.replaceFirst? (s.fill c) = e.toCondition.map fun d => some (s.put e.inGroup d) := by
  cases s with
  | top g =>
    simp only [Entry.replaceFirst?, splitFirst?_top hc hs, Entry.toNode]
    cases e.toCondition <;> rfl
  | inner outer inside =>
    obtain ⟨hout, hin⟩ := splitFirst?_group hc hs
    simp only [Entry.replaceFirst?, hout, hin]
    cases e.toCondition <;> rfl

/-- Deleting the first condition on a field clears its spot. -/
theorem deleteFirst?_fill (hc : c.field = name) (hs : ∀ o ∈ s.earlier, o.condition.field ≠ name) :
    deleteFirst? name (s.fill c) = some s.clear := by
  cases s with
  | top g =>
    rw [deleteFirst?, splitFirst?_top hc hs]
    rfl
  | inner outer inside =>
    obtain ⟨hout, hin⟩ := splitFirst?_group hc hs
    rw [deleteFirst?, hout, Option.bind_eq_bind, Option.bind_some]
    dsimp only
    rw [hin]
    rfl

theorem printAll_put (s : Spot) (parentheses : Bool) (c : Condition) :
    printAll (s.put parentheses c) =
      s.front ++ (if parentheses && !s.grouped then '(' :: c.print ++ [')'] else c.print) ++
        s.back := by
  cases s with
  | inner outer inside =>
    rw [grouped, Bool.not_true, Bool.and_false]
    exact printAll_fill (inner outer inside) c
  | top g =>
    cases parentheses with
    | false => exact g.printAll_fill_leaf c
    | true =>
      calc printAll ((top g).put true c)
        _ = g.front ++ '(' :: printAll [leaf c none] ++ ')' :: g.back :=
          g.printAll_fill_group [leaf c none]
        _ = g.front ++ ('(' :: c.print ++ [')']) ++ g.back := by
          simp [printAll, print, Connector.text]

end Spot

end Node

open Node

/-- The first condition on a field: its spot in the tree, what stands before and after it in a
listing, and the answer to a question for it. A question without a name has no answer. -/
structure Reading.FirstOn (name filter : Text) (ns : List (Node Condition)) (s : Spot)
    (old : Occurrence) (later : List Occurrence) : Prop where
  tree : ns = s.fill old.condition
  listed : ofNodes ns = s.earlier ++ old :: later
  field : old.condition.field = name
  earlier : ∀ o ∈ s.earlier, o.condition.field ≠ name
  grouped : s.grouped = old.inGroup
  reported : Reading.condition? name filter =
    if name = [] then .error (.missing .fieldName) else .ok (some old.entry)

theorem Reading.exists_firstOn {name filter : Text} {f : Filter} {ns : List (Node Condition)}
    (hf : Filter.parse filter = .ok f) (hn : f.nodes = .ok ns)
    (h : ∃ o ∈ ofNodes ns, o.condition.field = name) :
    ∃ s old later, FirstOn name filter ns s old later := by
  obtain ⟨old, hfound⟩ : ∃ old, (ofNodes ns).find? (·.condition.field = name) = some old :=
    Option.isSome_iff_exists.mp (List.find?_isSome.mpr (by simpa using h))
  obtain ⟨hfield, first, later, hlisted, hfirst⟩ := List.find?_eq_some_iff_append.mp hfound
  obtain ⟨s, htree, hearlier, hgrouped⟩ := exists_spot hlisted
  subst hearlier
  refine ⟨s, old, later, htree, hlisted, by simpa using hfield, by simpa using hfirst, hgrouped, ?_⟩
  simp only [condition?, occurrence?, occurrences, hf, hn, bind, Except.bind, pure, Except.pure,
    hfound]
  cases name <;> rfl

end FilterLang
