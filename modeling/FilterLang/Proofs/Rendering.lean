import FilterLang.Sql.Clause

/-! A second look at compiling units. All conditions are made predicates first, in one tree, and the
tree is written down afterwards. That this comes to the same lets fields and types be looked at apart
from text and numbering. -/
namespace FilterLang.Sql

/-- The predicates of a block, with its groups and connectors. -/
abbrev Clause := List (Node Predicate)

namespace Clause

def link : Option Connector → Template
  | none => []
  | some k => [.text (' ' :: k.sql)]

mutual

def unitTemplate : Node Predicate → Template
  | .leaf p k => p.template ++ link k
  | .group children k => .text ['('] :: (template children ++ .text [')'] :: link k)

/-- The units of a clause, with a space between each two. -/
def template : Clause → Template
  | [] => []
  | [n] => unitTemplate n
  | n :: m :: ns => unitTemplate n ++ .text [' '] :: template (m :: ns)

end

/-- Looks up the fields of a block and types its values, from left to right. -/
def ofNodes (settings : Settings) (r : Resolver) (mode : Mode) (nodes : List (Node Condition)) :
    Except Error Clause :=
  Node.traverseAll (Predicate.of settings r mode) nodes

/-- Puts the search, as one group, in front of the conditions. -/
def join (search conditions : Clause) : Clause :=
  if search.isEmpty then conditions
  else .group search (if conditions.isEmpty then none else some .and) :: conditions

/-- The clause of both blocks. They are read before any field of either is looked up. -/
def ofBlocks (settings : Settings) (r : Resolver) (conditions search : Text) :
    Except Error Clause := do
  let searchNodes ← Block.parse .search search
  let conditionNodes ← Block.parse .standard conditions
  let searchClause ← ofNodes settings r .search searchNodes
  let conditionClause ← ofNodes settings r .standard conditionNodes
  return join searchClause conditionClause

/-- The clause with its keyword. Without units there is neither. -/
def whereTemplate (c : Clause) : Template :=
  if c.isEmpty then [] else .text "where ".toList :: template c

end Clause

variable {quote : Quoting} {bind : BindMode} {used : UInt64}

namespace Template

variable {t u : Template}

/-- However the slots are filled, there is some text. -/
def Solid (t : Template) : Prop := ∀ quote bind used, (t.render quote bind used).sql ≠ []

theorem solid_text (c : Char) (s : Text) (t : Template) : Solid (.text (c :: s) :: t) := by
  intro quote bind used
  simp [render]

theorem Solid.append (h : t.Solid) : Solid (t ++ u) := by
  intro quote bind used
  rw [render_append]
  simp [h quote bind used]

/-- A space between two templates is the one that `push` sets, as neither is ever empty. -/
theorem render_spaced (ht : t.Solid) (hu : u.Solid) :
    render quote bind used (t ++ .text [' '] :: u) =
      (t.render quote bind used).push
        (u.render quote bind (used + .ofNat (t.render quote bind used).args.length)) := by
  have hfront := ht quote bind used
  have hback := hu quote bind (used + .ofNat (t.render quote bind used).args.length)
  rw [render_append]
  simp [render, Fragment.push, hfront, hback]

theorem render_link (k : Option Connector) (t : Template) :
    render quote bind used (t ++ Clause.link k) = (t.render quote bind used).linked k := by
  rw [render_append]
  cases k <;> simp [Clause.link, render, Fragment.empty, Fragment.linked]

end Template

/-- A predicate opens with its operand or with a word. -/
theorem Predicate.solid_template (p : Predicate) : p.template.Solid := by
  have hoperand : ∀ (o : Operand) (t : Template), Template.Solid (o.template ++ t) := by
    intro o t
    cases o <;> exact Template.solid_text 'q' _ _
  cases p with
  | isNull o => exact hoperand o _
  | isNotNull o => exact hoperand o _
  | compare o op v => exact hoperand o _
  | anyOf o items => exact hoperand o _
  | noneOf o items => exact Template.solid_text 'n' _ _
  | overlaps o items => exact hoperand o _
  | like o pattern => cases o <;> exact Template.solid_text 'l' _ _

namespace Clause

theorem solid_unitTemplate (n : Node Predicate) : (unitTemplate n).Solid := by
  cases n with
  | leaf p k =>
    rw [unitTemplate]
    exact p.solid_template.append
  | group children k =>
    rw [unitTemplate]
    exact Template.solid_text '(' _ _

theorem solid_template {c : Clause} (hne : c ≠ []) : (template c).Solid := by
  match c with
  | [] => exact absurd rfl hne
  | [n] =>
    rw [template]
    exact solid_unitTemplate n
  | n :: m :: ns =>
    rw [template]
    exact (solid_unitTemplate n).append

/-- A group is its units between parentheses, and its connector behind them. -/
theorem render_group (children : Clause) (k : Option Connector) :
    (unitTemplate (.group children k)).render quote bind used =
      ((template children).render quote bind used).enclosed.linked k := by
  have hbody : unitTemplate (.group children k) =
      (.text ['('] :: (template children ++ [.text [')']])) ++ link k := by
    simp [unitTemplate]
  rw [hbody, Template.render_link]
  simp [Template.render, Template.render_append, Fragment.enclosed, Fragment.empty]

@[simp] theorem render_nil : (template []).render quote bind used = .empty := by
  rw [template, Template.render]

/-- The first unit of a clause is rendered, and the others are pushed onto it. -/
theorem render_cons (n : Node Predicate) (c : Clause) :
    (template (n :: c)).render quote bind used =
      ((unitTemplate n).render quote bind used).push
        ((template c).render quote bind
          (used + .ofNat ((unitTemplate n).render quote bind used).args.length)) := by
  cases c with
  | nil =>
    rw [render_nil, Fragment.push_empty, template]
  | cons m c =>
    rw [template]
    exact Template.render_spaced (solid_unitTemplate n) (solid_template (List.cons_ne_nil m c))

/-- The keyword is one more fragment in front. -/
theorem render_whereTemplate {c : Clause} (hne : c ≠ []) :
    c.whereTemplate.render quote bind used =
      whereOpening.push ((template c).render quote bind used) := by
  have hsql := solid_template hne quote bind used
  simp [whereTemplate, hne, Template.render, Fragment.push, whereOpening, hsql]

/-- Behind the keyword stands the search as a group, and the conditions are pushed onto it. -/
theorem render_join {d : Clause} (hd : d ≠ []) (c : Clause) :
    (join d c).whereTemplate.render quote bind 0 =
      let front := whereOpening.push
        ((unitTemplate (.group d (if c.isEmpty then none else some .and))).render quote bind 0)
      front.push ((template c).render quote bind (.ofNat front.args.length)) := by
  have hjoin : join d c = .group d (if c.isEmpty then none else some .and) :: c := by
    simp [join, hd]
  have hargs : ∀ f : Fragment, (whereOpening.push f).args = f.args := fun f => by
    simp [whereOpening]
  dsimp only
  rw [hjoin, render_whereTemplate (List.cons_ne_nil _ _), render_cons, Fragment.push_assoc, hargs,
    UInt64.zero_add]

end Clause

variable {settings : Settings} {r : Resolver} {mode : Mode}

mutual

theorem compileUnit_eq (n : Node Condition) (used : UInt64) :
    compileUnit quote settings r mode bind used n =
      (n.traverse (Predicate.of settings r mode)).map fun m =>
        (Clause.unitTemplate m).render quote bind used := by
  match n with
  | .leaf c k =>
    rw [compileUnit, compileLeaf, Node.traverse]
    cases Predicate.of settings r mode c with
    | error e => rfl
    | ok p =>
      have hleaf : Clause.unitTemplate (.leaf p k) = p.template ++ Clause.link k := by
        rw [Clause.unitTemplate]
      dsimp only [Bind.bind, Except.bind, pure, Except.pure, Except.map]
      rw [hleaf, Template.render_link]
  | .group children k =>
    rw [compileUnit_group, compileNodes_eq children used, Clause.ofNodes, Node.traverse]
    cases Node.traverseAll (Predicate.of settings r mode) children with
    | error e => rfl
    | ok c => exact congrArg Except.ok (Clause.render_group c k).symm

/-- Units are compiled as the clause of their predicates is rendered. -/
theorem compileNodes_eq (nodes : List (Node Condition)) (used : UInt64) :
    compileNodes quote settings r mode bind used nodes =
      (Clause.ofNodes settings r mode nodes).map fun c => c.template.render quote bind used := by
  match nodes with
  | [] =>
    rw [compileNodes_nil, Clause.ofNodes, Node.traverseAll, Except.map, Clause.template,
      Template.render]
  | n :: ns =>
    rw [compileNodes_cons, compileUnit_eq n used, Clause.ofNodes, Node.traverseAll]
    cases n.traverse (Predicate.of settings r mode) with
    | error e => rfl
    | ok m =>
      dsimp only [Except.map, Bind.bind, Except.bind]
      rw [compileNodes_eq ns, Clause.ofNodes]
      cases Node.traverseAll (Predicate.of settings r mode) ns with
      | error e => rfl
      | ok c => exact congrArg Except.ok (Clause.render_cons m c).symm

end

/-- No unit is lost. -/
theorem Clause.eq_nil_iff_of_ofNodes {nodes : List (Node Condition)} {c : Clause}
    (h : ofNodes settings r mode nodes = .ok c) : c = [] ↔ nodes = [] := by
  cases nodes with
  | nil =>
    cases h
    simp
  | cons n ns =>
    rw [ofNodes, Node.traverseAll] at h
    obtain ⟨m, -, h⟩ := bind_eq_ok_iff.mp h
    obtain ⟨ms, -, h⟩ := bind_eq_ok_iff.mp h
    cases h
    simp

/-- A search is rendered as a group behind the keyword. -/
theorem compileSearch_eq {nodes : List (Node Condition)} (hne : nodes ≠ []) (alone : Bool) :
    compileSearch quote settings r bind alone nodes =
      (Clause.ofNodes settings r .search nodes).map fun c =>
        whereOpening.push ((Clause.unitTemplate
          (.group c (if alone then none else some .and))).render quote bind 0) := by
  have hsome : nodes.isEmpty = false := by simpa using hne
  simp only [compileSearch, hsome, compileNodes_eq, Clause.render_group]
  cases Clause.ofNodes settings r .search nodes <;> rfl

/-- Where there are no conditions, pushing them would make no difference. -/
theorem push_compileNodes (front : Fragment) (nodes : List (Node Condition)) :
    (if nodes.isEmpty then .ok front
      else (compileNodes quote settings r mode bind used nodes).map front.push) =
      (compileNodes quote settings r mode bind used nodes).map front.push := by
  cases nodes with
  | nil => rw [compileNodes_nil, Except.map, Fragment.push_empty, ite_self]
  | cons n ns => rfl

/-- A where clause is compiled as the predicates of both blocks are rendered together. -/
theorem compileWhere_eq (conditions search : Text) :
    compileWhere quote settings r bind conditions search =
      (Clause.ofBlocks settings r conditions search).map fun c =>
        c.whereTemplate.render quote bind 0 := by
  rw [compileWhere, Clause.ofBlocks]
  cases Block.parse .search search with
  | error e => rfl
  | ok searchNodes =>
    cases Block.parse .standard conditions with
    | error e => rfl
    | ok conditionNodes =>
      by_cases hs : searchNodes = []
      · subst hs
        by_cases hc : conditionNodes = []
        · subst hc
          rfl
        have hsome : conditionNodes.isEmpty = false := by simpa using hc
        simp only [Bind.bind, Except.bind, compileSearch, hsome, compileNodes_eq]
        cases h : Clause.ofNodes settings r .standard conditionNodes with
        | error e => rfl
        | ok c =>
          have hne : c ≠ [] := mt (Clause.eq_nil_iff_of_ofNodes h).mp hc
          exact congrArg Except.ok (Clause.render_whereTemplate hne).symm
      · have hsome : searchNodes.isEmpty = false := by simpa using hs
        simp only [Bind.bind, Except.bind, hsome, compileSearch_eq hs]
        cases h : Clause.ofNodes settings r .search searchNodes with
        | error e => rfl
        | ok d =>
          have hd : d ≠ [] := mt (Clause.eq_nil_iff_of_ofNodes h).mp hs
          refine (push_compileNodes _ conditionNodes).trans ?_
          rw [compileNodes_eq]
          cases h : Clause.ofNodes settings r .standard conditionNodes with
          | error e => rfl
          | ok c =>
            have halone : conditionNodes.isEmpty = c.isEmpty := by
              rw [Bool.eq_iff_iff, List.isEmpty_iff, List.isEmpty_iff]
              exact (Clause.eq_nil_iff_of_ofNodes h).symm
            rw [halone]
            exact congrArg Except.ok (Clause.render_join hd c).symm

variable {conditions search : Text} {clause : Clause} {f : Fragment}

theorem Clause.ofBlocks_eq_ok_iff :
    ofBlocks settings r conditions search = .ok clause ↔
      ∃ searchNodes conditionNodes searchClause conditionClause,
        Block.parse .search search = .ok searchNodes ∧
        Block.parse .standard conditions = .ok conditionNodes ∧
        ofNodes settings r .search searchNodes = .ok searchClause ∧
        ofNodes settings r .standard conditionNodes = .ok conditionClause ∧
        join searchClause conditionClause = clause := by
  simp only [ofBlocks, bind_eq_ok_iff, pure, Except.pure, Except.ok.injEq]
  constructor
  · rintro ⟨sn, hsn, cn, hcn, sc, hsc, cc, hcc, hj⟩
    exact ⟨sn, cn, sc, cc, hsn, hcn, hsc, hcc, hj⟩
  · rintro ⟨sn, cn, sc, cc, hsn, hcn, hsc, hcc, hj⟩
    exact ⟨sn, hsn, cn, hcn, sc, hsc, cc, hcc, hj⟩

/-- What a compiled where clause was put together from. -/
theorem compileWhere_eq_ok_iff :
    compileWhere quote settings r bind conditions search = .ok f ↔
      ∃ searchNodes conditionNodes searchClause conditionClause,
        Block.parse .search search = .ok searchNodes ∧
        Block.parse .standard conditions = .ok conditionNodes ∧
        Clause.ofNodes settings r .search searchNodes = .ok searchClause ∧
        Clause.ofNodes settings r .standard conditionNodes = .ok conditionClause ∧
        (Clause.join searchClause conditionClause).whereTemplate.render quote bind 0 = f := by
  rw [compileWhere_eq, map_eq_ok_iff]
  constructor
  · rintro ⟨clause, h, rfl⟩
    obtain ⟨sn, cn, sc, cc, hsn, hcn, hsc, hcc, rfl⟩ := Clause.ofBlocks_eq_ok_iff.mp h
    exact ⟨sn, cn, sc, cc, hsn, hcn, hsc, hcc, rfl⟩
  · rintro ⟨sn, cn, sc, cc, hsn, hcn, hsc, hcc, rfl⟩
    exact ⟨_, Clause.ofBlocks_eq_ok_iff.mpr ⟨sn, cn, sc, cc, hsn, hcn, hsc, hcc, rfl⟩, rfl⟩

end FilterLang.Sql
