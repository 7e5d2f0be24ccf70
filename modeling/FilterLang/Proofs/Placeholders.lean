import FilterLang.Proofs.Joining
import FilterLang.Proofs.Leaves
import FilterLang.Proofs.Listing

/-! The two ways of filling a statement. Whether its values are written out or passed apart, the
text around them is the same, and placeholders count them from left to right. -/
namespace FilterLang

namespace Node

mutual

theorem length_leaves_le (n : Node Condition) : n.leaves.length ≤ n.print.length := by
  match n with
  | .leaf c k =>
    have hpos := List.length_pos_iff.mpr c.print_ne_nil
    simp only [leaves, print, List.length_singleton, List.length_append]
    omega
  | .group children k =>
    have hchildren := length_leavesAll_le children
    simp only [leaves, print, List.length_append, List.length_cons]
    omega

theorem length_leavesAll_le (ns : List (Node Condition)) :
    (leavesAll ns).length ≤ (printAll ns).length := by
  match ns with
  | [] => simp [leavesAll]
  | n :: ns =>
    have hfirst := length_leaves_le n
    have hrest := length_leavesAll_le ns
    simp only [leavesAll, printAll, List.length_append]
    omega

end

end Node

/-- A block has no more conditions than characters. -/
theorem Block.length_leavesAll_le {mode : Mode} {s : Text} {ns : List (Node Condition)}
    (h : Block.parse mode s = .ok ns) : (Node.leavesAll ns).length ≤ s.length := by
  have hnormal : (mode.normalize s).length ≤ s.length := by
    cases mode with
    | standard => exact List.length_filter_le _ s
    | search => exact Nat.le_of_eq (List.length_map _)
  rw [← (Block.parse_eq_ok_iff.mp h).1] at hnormal
  exact Nat.le_trans (Node.length_leavesAll_le ns) hnormal

namespace Sql

open Node

variable {quote : Quoting} {settings : Settings} {r : Resolver} {t u : Template}

/-- Texts with a fill between each two of them. -/
def weave : List Text → List Text → Text
  | gap :: gaps, fill :: fills => gap ++ (fill ++ weave gaps fills)
  | gap :: _, [] => gap
  | [], _ => []

/-- The next `n` placeholders after `used` ones. Their numbers are machine words. -/
def placeholders (used : UInt64) (n : Nat) : List Text :=
  (List.range n).map fun i => placeholder (used + .ofNat (i + 1))

theorem placeholders_succ (used : UInt64) (n : Nat) :
    placeholders used (n + 1) = placeholder (used + 1) :: placeholders (used + 1) n := by
  have hnext : ∀ i, used + 1 + UInt64.ofNat (i + 1) = used + UInt64.ofNat (i + 1 + 1) := by
    intro i
    rw [UInt64.ofNat_add (i + 1), UInt64.add_comm (.ofNat (i + 1)), ← UInt64.add_assoc]
    rfl
  simp only [placeholders, List.range_succ_eq_map, List.map_cons, List.map_map]
  refine congrArg₂ List.cons rfl (List.map_congr_left fun i _ => ?_)
  exact congrArg placeholder (hnext i).symm

/-- As long as a machine word holds the last number, placeholders are counted without a gap. -/
theorem placeholders_eq {used : UInt64} {n : Nat} (h : used.toNat + n < UInt64.size) :
    placeholders used n = (List.range' (used.toNat + 1) n).map fun i => '$' :: Text.ofNat i := by
  rw [placeholders, List.range'_eq_map_range, List.map_map]
  refine List.map_congr_left fun i hi => ?_
  have hi := List.mem_range.mp hi
  have hsize : UInt64.size = 0x10000000000000000 := rfl
  have hnumber : (used + .ofNat (i + 1)).toNat = used.toNat + 1 + i := by
    rw [UInt64.toNat_add, UInt64.toNat_ofNat_of_lt' (by omega), Nat.mod_eq_of_lt (by omega)]
    omega
  simp only [placeholder, hnumber, Function.comp_apply]

-- Behind the last word the count starts again.
example : placeholders 0xFFFFFFFFFFFFFFFF 2 = ["$0".toList, "$1".toList] := by cbv

namespace Template

/-- The values of a template, in their order. -/
def slots : Template → List Value
  | [] => []
  | .text _ :: rest => slots rest
  | .quoted _ :: rest => slots rest
  | .slot v :: rest => v :: slots rest

/-- The texts before, between and after the values. -/
def gaps (quote : Quoting) : Template → List Text
  | [] => [[]]
  | .text s :: rest => (gaps quote rest).modifyHead (s ++ ·)
  | .quoted s :: rest => (gaps quote rest).modifyHead (quote s ++ ·)
  | .slot _ :: rest => [] :: gaps quote rest

theorem length_gaps (quote : Quoting) (t : Template) :
    (t.gaps quote).length = t.slots.length + 1 := by
  induction t with
  | nil => rfl
  | cons p t ih => cases p <;> simp [gaps, slots, ih]

theorem slots_append (t u : Template) : (t ++ u).slots = t.slots ++ u.slots := by
  induction t with
  | nil => rfl
  | cons p t ih => cases p <;> simp [slots, ih]

/-- Text in front of everything goes into the first gap. -/
theorem weave_modifyHead (s : Text) (t : Template) (fills : List Text) :
    weave ((t.gaps quote).modifyHead (s ++ ·)) fills = s ++ weave (t.gaps quote) fills := by
  have hne : t.gaps quote ≠ [] := by
    intro he
    have hlen := length_gaps quote t
    simp [he] at hlen
  obtain ⟨gap, rest, hg⟩ := List.exists_cons_of_ne_nil hne
  cases fills <;> simp [hg, weave]

theorem render_placeholder (used : UInt64) (t : Template) :
    t.render quote .placeholder used =
      ⟨weave (t.gaps quote) (placeholders used t.slots.length), t.slots⟩ := by
  induction t generalizing used with
  | nil => rfl
  | cons p t ih =>
    cases p with
    | text s => rw [render, ih, gaps, weave_modifyHead, slots]
    | quoted s => rw [render, ih, gaps, weave_modifyHead, slots]
    | slot v => simp [render, ih, slots, gaps, placeholders_succ, weave]

theorem render_literal (used : UInt64) (t : Template) :
    t.render quote .literal used = ⟨weave (t.gaps quote) (t.slots.map (literal quote)), []⟩ := by
  induction t with
  | nil => rfl
  | cons p t ih =>
    cases p with
    | text s => rw [render, ih, gaps, weave_modifyHead, slots]
    | quoted s => rw [render, ih, gaps, weave_modifyHead, slots]
    | slot v => simp [render, ih, slots, gaps, weave]

/-- Text can be put around a template without touching its values. -/
theorem exists_between (before after : Text) (t : Template) :
    ∃ u : Template, u.slots = t.slots ∧ ∀ quote bind used,
      (u.render quote bind used).sql = before ++ (t.render quote bind used).sql ++ after := by
  refine ⟨.text before :: (t ++ [.text after]), ?_, fun quote bind used => ?_⟩
  · simp [slots, slots_append]
  · simp [render, render_append, Fragment.empty]

end Template

/-- The values that a predicate passes: none where it asks for null, and one elsewhere. -/
def Predicate.values : Predicate → List Value
  | isNull _ => []
  | isNotNull _ => []
  | compare _ _ v => [v]
  | anyOf _ items => [.array items]
  | noneOf _ items => [.array items]
  | overlaps _ items => [.array items]
  | like _ pattern => [.text pattern]

theorem Predicate.slots_template (p : Predicate) : p.template.slots = p.values := by
  have hoperand : ∀ o : Operand, o.template.slots = [] := fun o => by cases o <;> rfl
  have hlowered : ∀ o : Operand, o.lowered.slots = [] := fun o => by cases o <;> rfl
  cases p <;>
    simp [template, values, Template.slots, Template.slots_append, hoperand, hlowered]

namespace Clause

mutual

/-- The values of a clause are those of its predicates, in the order in which these stand. -/
theorem slots_template (c : Clause) :
    (template c).slots = (leavesAll c).flatMap fun p => p.template.slots := by
  match c with
  | [] => simp [template, Template.slots, leavesAll]
  | [n] => simp [template, slots_unitTemplate n, leavesAll]
  | n :: m :: ns =>
    have hrest := slots_template (m :: ns)
    rw [template, Template.slots_append, Template.slots, hrest, slots_unitTemplate n,
      ← List.flatMap_append]
    rfl

theorem slots_unitTemplate (n : Node Predicate) :
    (unitTemplate n).slots = n.leaves.flatMap fun p => p.template.slots := by
  have hlink : ∀ k, Template.slots (link k) = [] := by
    intro k
    cases k <;> rfl
  match n with
  | .leaf p k => simp [unitTemplate, Template.slots_append, hlink, leaves]
  | .group children k =>
    simp [unitTemplate, Template.slots_append, Template.slots, hlink, slots_template children,
      leaves]

end

theorem slots_whereTemplate (c : Clause) : c.whereTemplate.slots = (template c).slots := by
  cases c with
  | nil => simp [whereTemplate, template]
  | cons n c => simp [whereTemplate, Template.slots]

theorem slots_join (a b : Clause) :
    (template (join a b)).slots = (template a).slots ++ (template b).slots := by
  simp only [slots_template, leavesAll_join, List.flatMap_append]

end Clause

/-- The values that each condition binds by itself follow one another. -/
theorem forall₂_args_of_ofNodes (quote : Quoting) {mode : Mode} {nodes : List (Node Condition)}
    {clause : Clause} (h : Clause.ofNodes settings r mode nodes = .ok clause) :
    List.Forall₂ (fun c values =>
        (compileLeaf quote settings r mode .placeholder 0 none c).map Fragment.args = .ok values)
      (leavesAll nodes) ((leavesAll clause).map fun p => p.template.slots) := by
  rw [List.forall₂_map_right_iff]
  refine (forall₂_leaves_of_traverseAll h).imp ?_
  intro c p hp
  rw [compileLeaf, hp]
  exact congrArg Except.ok (congrArg Fragment.args (Template.render_placeholder 0 p.template))

/-- A statement with a where clause in it is a template of its own with the values of the clause. -/
theorem exists_template_joinParts {escape : Char → Text} (hquote : quote.EscapesBy escape)
    (c : Clause) (before after : List Text) :
    ∃ t : Template, t.slots = c.whereTemplate.slots ∧
      ∀ bind, joinParts (before ++ (c.whereTemplate.render quote bind 0).sql :: after) =
        (t.render quote bind 0).sql := by
  by_cases hne : c = []
  · refine ⟨[.text (joinParts (before ++ [] :: after))], ?_, ?_⟩ <;>
      simp [hne, Clause.whereTemplate, Template.slots, Template.render, Fragment.empty]
  · obtain ⟨front, back, hjoin⟩ := exists_joinParts before after
    obtain ⟨t, hslots, hsql⟩ := c.whereTemplate.exists_between front back
    refine ⟨t, hslots, fun bind => ?_⟩
    obtain ⟨htrim, hpart⟩ := Clause.trim_whereTemplate hquote hne bind 0
    rw [hjoin _ htrim hpart, hsql]

/-- A request as far as it is read before any value gets into a statement. -/
structure Plan where
  select : Text
  source : Text
  clause : Clause
  restrictions : Text

def plan (settings : Settings) (r : Resolver) (target filter search : Text) :
    Except Error Plan := do
  if filter.isEmpty then .error (.missing .parameters)
  if target.trim.isEmpty then .error (.missing .target)
  let blocks ← Filter.split filter
  let select ← compileSelect r blocks.fields
  let clause ← Clause.ofBlocks settings r blocks.conditions search
  let restriction ← Restriction.parse r blocks.restrictions
  let source := "from ".toList ++ target.trim ++ ' ' :: tableAlias
  return ⟨select, source, clause, restrictionSql restriction⟩

theorem plan_eq_ok_iff {target filter search : Text} {plan : Plan} :
    Sql.plan settings r target filter search = .ok plan ↔
      filter.isEmpty = false ∧ target.trim.isEmpty = false ∧
        ∃ f select clause restriction, Filter.parse filter = .ok f ∧
          compileSelect r f.fields = .ok select ∧
          Clause.ofBlocks settings r f.conditions search = .ok clause ∧
          Restriction.parse r f.restrictions = .ok restriction ∧
          ⟨select, "from ".toList ++ target.trim ++ ' ' :: tableAlias, clause,
            restrictionSql restriction⟩ = plan := by
  constructor
  · intro h
    unfold Sql.plan at h
    dsimp only at h
    split at h
    · cases h
    · next hfilter =>
      split at h
      · cases h
      · next htarget =>
        obtain ⟨f, hf, h⟩ := bind_eq_ok_iff.mp h
        obtain ⟨select, hselect, h⟩ := bind_eq_ok_iff.mp h
        obtain ⟨clause, hclause, h⟩ := bind_eq_ok_iff.mp h
        obtain ⟨restriction, hrestriction, h⟩ := bind_eq_ok_iff.mp h
        exact ⟨by simpa using hfilter, by simpa using htarget, f, select, clause, restriction,
          Filter.split_eq_ok_iff.mp hf, hselect, hclause, hrestriction, Except.ok.inj h⟩
  · rintro ⟨hfilter, htarget, f, select, clause, restriction, hf, hselect, hclause, hrestriction,
      rfl⟩
    simp [Sql.plan, hfilter, htarget, Filter.split_eq_ok_iff.mpr hf, hselect, hclause,
      hrestriction, bind, Except.bind, pure, Except.pure]

namespace Plan

def whereClause (quote : Quoting) (p : Plan) (bind : BindMode) : Fragment :=
  p.clause.whereTemplate.render quote bind 0

def mainSql (quote : Quoting) (p : Plan) (bind : BindMode) : Text :=
  joinParts [p.select, p.source, (p.whereClause quote bind).sql, p.restrictions]

def countSql (quote : Quoting) (p : Plan) (bind : BindMode) : Text :=
  "select count(*) from (".toList ++
    joinParts ["select 1".toList, p.source, (p.whereClause quote bind).sql] ++
    ") ".toList ++ tableAlias

def query (quote : Quoting) (p : Plan) (withCount withArgs : Bool) : Query where
  mainSql := p.mainSql quote (.ofFlag withArgs)
  countSql := if withCount then some (p.countSql quote (.ofFlag withArgs)) else none
  args := if withArgs then some (p.whereClause quote (.ofFlag withArgs)).args else none

end Plan

/-- How values are passed makes no difference until everything has been read. -/
theorem compile_eq_map_plan (quote : Quoting) (q : Request) :
    compile quote settings r q =
      (plan settings r q.target q.filter q.search).map
        (·.query quote q.withCount q.withArgs) := by
  simp only [compile, plan, compileWhere_eq, bind, Except.bind]
  split
  · rfl
  split
  · rfl
  cases Filter.split q.filter with
  | error err => rfl
  | ok blocks =>
    dsimp only
    cases compileSelect r blocks.fields with
    | error err => rfl
    | ok select =>
      dsimp only
      cases Clause.ofBlocks settings r blocks.conditions q.search with
      | error err => rfl
      | ok clause =>
        dsimp only [Except.map]
        cases Restriction.parse r blocks.restrictions with
        | error err => rfl
        | ok restriction => rfl

/-- Both statements of a plan are templates with the values of its where clause. -/
theorem Plan.exists_templates {escape : Char → Text} (hquote : quote.EscapesBy escape) (p : Plan) :
    ∃ main count : Template, main.slots = p.clause.whereTemplate.slots ∧
      count.slots = p.clause.whereTemplate.slots ∧
      ∀ bind, p.mainSql quote bind = (main.render quote bind 0).sql ∧
        p.countSql quote bind = (count.render quote bind 0).sql := by
  obtain ⟨main, hmain, hmainSql⟩ :=
    exists_template_joinParts hquote p.clause [p.select, p.source] [p.restrictions]
  obtain ⟨inner, hinner, hinnerSql⟩ :=
    exists_template_joinParts hquote p.clause ["select 1".toList, p.source] []
  obtain ⟨count, hcount, hcountSql⟩ :=
    inner.exists_between "select count(*) from (".toList (") ".toList ++ tableAlias)
  refine ⟨main, count, hmain, hcount.trans hinner, fun bind => ⟨hmainSql bind, ?_⟩⟩
  calc p.countSql quote bind
    _ = "select count(*) from (".toList ++ (inner.render quote bind 0).sql ++
        (") ".toList ++ tableAlias) := by
      rewrite [← hinnerSql]
      exact List.append_assoc _ _ _
    _ = (count.render quote bind 0).sql := (hcountSql quote bind 0).symm

/-- A block passes no more values than it has characters. -/
theorem Clause.length_slots_le {mode : Mode} {s : Text} {nodes : List (Node Condition)} {c : Clause}
    (hp : Block.parse mode s = .ok nodes) (h : ofNodes settings r mode nodes = .ok c) :
    (template c).slots.length ≤ s.length := by
  have hleaves : (leavesAll nodes).length = (leavesAll c).length :=
    (forall₂_leaves_of_traverseAll h).length_eq
  have hslots : (template c).slots.length ≤ (leavesAll c).length := by
    rw [slots_template]
    induction leavesAll c with
    | nil => simp
    | cons p ps ih =>
      have hp : p.values.length ≤ 1 := by cases p <;> simp [Predicate.values]
      simp only [List.flatMap_cons, List.length_append, List.length_cons, p.slots_template]
      omega
  exact Nat.le_trans hslots (hleaves ▸ Block.length_leavesAll_le hp)

theorem Plan.length_slots_le {target filter search : Text} {p : Plan}
    (h : plan settings r target filter search = .ok p) :
    p.clause.whereTemplate.slots.length ≤ filter.length + search.length := by
  obtain ⟨-, -, f, select, clause, restriction, hf, -, hblocks, -, rfl⟩ := plan_eq_ok_iff.mp h
  obtain ⟨searchNodes, nodes, searchClause, ownClause, hsn, hn, hsc, hc, rfl⟩ :=
    Clause.ofBlocks_eq_ok_iff.mp hblocks
  have hsearch := Clause.length_slots_le hsn hsc
  have hconditions := Clause.length_slots_le hn hc
  have hfilter : f.conditions.length ≤ filter.length := by
    rw [← Filter.print_of_split (Filter.split_eq_ok_iff.mpr hf)]
    simp only [Filter.print, List.length_append, List.length_cons]
    omega
  rw [Clause.slots_whereTemplate, Clause.slots_join, List.length_append]
  omega

/-- Values written out and values passed apart make the same statement around them, or the same
error. Placeholders are numbered from left to right, without a gap as far as a machine word counts,
and the values are those of the conditions in their order. A request never has more values than
characters. -/
theorem bind_modes_agree (quote : Quoting) (escape : Char → Text)
    (hquote : quote.EscapesBy escape) (settings : Settings) (r : Resolver) :
    (∀ (mode : Mode) (nodes : List (Node Condition)),
      (∃ err, ∀ bind used, compileNodes quote settings r mode bind used nodes = .error err) ∨
      ∃ gaps args, gaps.length = args.length + 1 ∧
        (∃ parts, args = parts.flatten ∧ List.Forall₂ (fun c values =>
          (compileLeaf quote settings r mode .placeholder 0 none c).map Fragment.args =
            .ok values) (leavesAll nodes) parts) ∧
        ∀ used,
          compileNodes quote settings r mode .placeholder used nodes =
            .ok ⟨weave gaps (placeholders used args.length), args⟩ ∧
          compileNodes quote settings r mode .literal used nodes =
            .ok ⟨weave gaps (args.map (literal quote)), []⟩) ∧
    (∀ (target filter search : Text) (withCount : Bool),
      (∃ err, ∀ withArgs,
        compile quote settings r ⟨target, filter, search, withCount, withArgs⟩ = .error err) ∨
      ∃ mainGaps countGaps args,
        mainGaps.length = args.length + 1 ∧ countGaps.length = args.length + 1 ∧
        args.length ≤ filter.length + search.length ∧
        compile quote settings r ⟨target, filter, search, withCount, true⟩ = .ok {
          mainSql := weave mainGaps (placeholders 0 args.length)
          countSql :=
            if withCount then some (weave countGaps (placeholders 0 args.length)) else none
          args := some args } ∧
        compile quote settings r ⟨target, filter, search, withCount, false⟩ = .ok {
          mainSql := weave mainGaps (args.map (literal quote))
          countSql :=
            if withCount then some (weave countGaps (args.map (literal quote))) else none
          args := none }) ∧
    ∀ (used : UInt64) (n : Nat), used.toNat + n < UInt64.size →
      placeholders used n = (List.range' (used.toNat + 1) n).map fun i => '$' :: Text.ofNat i := by
  refine ⟨?_, ?_, fun used n h => placeholders_eq h⟩
  · intro mode nodes
    simp only [compileNodes_eq]
    cases h : Clause.ofNodes settings r mode nodes with
    | error err => exact .inl ⟨err, fun _ _ => rfl⟩
    | ok clause =>
      refine .inr ⟨clause.template.gaps quote, clause.template.slots, Template.length_gaps _ _, ?_,
        ?_⟩
      · exact ⟨_, Clause.slots_template clause, forall₂_args_of_ofNodes quote h⟩
      · intro used
        simp [Except.map, Template.render_placeholder, Template.render_literal]
  · intro target filter search withCount
    simp only [compile_eq_map_plan]
    cases h : plan settings r target filter search with
    | error err => exact .inl ⟨err, fun _ => rfl⟩
    | ok p =>
      obtain ⟨main, count, hmain, hcount, hsql⟩ := p.exists_templates hquote
      refine .inr ⟨main.gaps quote, count.gaps quote, p.clause.whereTemplate.slots,
        hmain ▸ main.length_gaps quote, hcount ▸ count.length_gaps quote, Plan.length_slots_le h,
        ?_, ?_⟩
      · simp [Except.map, Plan.query, BindMode.ofFlag, hsql, Template.render_placeholder, hmain,
          hcount, Plan.whereClause]
      · simp [Except.map, Plan.query, BindMode.ofFlag, hsql, Template.render_literal, hmain, hcount]

/-- Behind a null, which passes nothing, two values are numbered next to each other. -/
theorem bind_modes_agree_postgres :
    Quoting.EscapesBy .postgres Quoting.escapeChar ∧
    ∃ nodes gaps args, Block.parse .standard "a==null||(b==x'y*c<5)".toList = .ok nodes ∧
      compileNodes .postgres ⟨48, ⟨['\''], none⟩, .search⟩ ⟨some, [], []⟩ .standard .placeholder 7
        nodes = .ok ⟨weave gaps (placeholders 7 args.length), args⟩ ∧
      weave gaps (placeholders 7 args.length) = "q.a is null or (q.b = $8 and q.c < $9)".toList ∧
      weave gaps (args.map (literal .postgres)) =
        "q.a is null or (q.b = E'x\\'y' and q.c < 5)".toList := by
  have hparse : Block.parse .standard "a==null||(b==x'y*c<5)".toList = .ok
      [.leaf ⟨['a'], .eq, "null".toList⟩ (some .or), .group
        [.leaf ⟨['b'], .eq, "x'y".toList⟩ (some .and), .leaf ⟨['c'], .lt, ['5']⟩ none] none] := by
    cbv
  obtain ⟨err, h⟩ | ⟨gaps, args, -, -, h⟩ :=
    (bind_modes_agree .postgres _ Quoting.postgres_escapesBy ⟨48, ⟨['\''], none⟩, .search⟩
      ⟨some, [], []⟩).1 .standard
      [.leaf ⟨['a'], .eq, "null".toList⟩ (some .or), .group
        [.leaf ⟨['b'], .eq, "x'y".toList⟩ (some .and), .leaf ⟨['c'], .lt, ['5']⟩ none] none]
  · cases h .literal 0
  · obtain ⟨hplaceholder, hliteral⟩ := h 7
    refine ⟨Quoting.postgres_escapesBy, _, gaps, args, hparse, hplaceholder, ?_, ?_⟩
    · exact (congrArg Fragment.sql (Except.ok.inj hplaceholder)).symm.trans rfl
    · exact (congrArg Fragment.sql (Except.ok.inj hliteral)).symm.trans rfl

end Sql

end FilterLang
