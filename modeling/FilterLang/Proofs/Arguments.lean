import FilterLang.Proofs.Detection
import FilterLang.Proofs.Listing
import FilterLang.Proofs.Placeholders
import FilterLang.Proofs.Sources

/-! The values that are passed beside a statement. A statement and a listing go through the same
conditions by different code, and meet them in the same order. -/
namespace FilterLang

open Node Occurrence

variable {settings : Settings} {r : Resolver} {c : Condition} {s : Text}

namespace Value

variable {T : Text → Prop} {v : Value} {operator : Operator} {cap : Nat}

/-- The value without the key in front of it. -/
def unkeyed : Value → Value
  | path _ inner => inner
  | v => v

/-- What is passed for a value: nothing for a null, and against overlaps always an array. -/
def arguments (operator : Operator) (v : Value) : List Value :=
  match v.unkeyed with
  | null => []
  | array items => [array items]
  | v => if operator = .overlaps then [array [v]] else [v]

theorem BoundOf.ne_null_ne_path (h : v.BoundOf T) :
    v ≠ .null ∧ ∀ key inner, v ≠ .path key inner := by
  rcases h with h | ⟨items, rfl, -⟩
  · cases v with
    | null | array _ | path _ _ => exact h.elim
    | bool _ | int _ | text _ => simp
  · simp

theorem unkeyed_eq_self (h : v = .null ∨ v.BoundOf T) : v.unkeyed = v := by
  rcases h with rfl | h
  · rfl
  · cases v with
    | path key inner => exact absurd rfl (h.ne_null_ne_path.2 key inner)
    | null | bool _ | int _ | text _ | array _ => rfl

/-- Behind a key there is no other key. -/
theorem unkeyed_of_classify (h : classify operator cap s = .ok v) :
    v.unkeyed = .null ∨ v.unkeyed.BoundOf fun _ => True := by
  unfold classify at h
  split at h
  · obtain ⟨inner, hinner, rfl⟩ := map_eq_ok_iff.mp h
    exact classifyInner_eq_ok (fun _ _ => trivial) hinner
  · have hv := classifyPlain_eq_ok (T := fun _ => True) (fun _ _ => trivial) h
    rwa [unkeyed_eq_self hv]

theorem arguments_unkeyed (h : v.unkeyed = .null ∨ v.unkeyed.BoundOf T) :
    v.unkeyed.arguments operator = v.arguments operator := by
  rw [arguments, unkeyed_eq_self h]
  rfl

end Value

theorem Condition.ofToken?_of_stands {k : Option Connector} (h : c.Stands .standard k) :
    Operator.ofToken? c.operator.token = some c.operator := by
  apply Operator.ofToken?_token
  exact Operator.ne_like_of_find? (Condition.operator_of_parse h.reads)

/-- The conditions of a tree are met in the same order by what goes through its groups and by what
lists them. -/
theorem leavesAll_eq_map_ofNodes {ns : List (Node Condition)} (hs : Shaped ns) :
    leavesAll ns = (ofNodes ns).map condition := by
  -- A listing passes over groups inside a group, but no group that was read has one.
  have hchildren : ∀ children : List (Node Condition),
      (∀ n ∈ children, LeafOf (fun _ _ => True) n) →
        leavesAll children = (children.filterMap ofChild?).map condition := by
    intro children hl
    induction children with
    | nil => rfl
    | cons n children ih =>
      obtain ⟨hn, hrest⟩ := List.forall_mem_cons.mp hl
      cases n with
      | group cs k => exact hn.elim
      | leaf c k => simp [leavesAll, leaves, ofChild?, ih hrest]
  have hsaid : (ofNodes ns).map condition = (standingAll ns).map condition := by
    have h := congrArg (List.map Prod.fst) (map_said_ofNodes ns)
    simpa [saidAll, Function.comp_def, said] using h
  rw [hsaid]
  clear hsaid
  induction ns with
  | nil => rfl
  | cons n ns ih =>
    obtain ⟨hn, -, hns⟩ := level_cons_iff.mp hs
    rw [leavesAll, standingAll_cons, List.map_append, ih hns]
    cases n with
    | leaf c k => rfl
    | group children k => rw [leaves, hchildren children hn.2.2, standing]

namespace Entry

/-- The pattern that a unit of search text looks for: what stands behind the key, or else the whole
text, in small letters. -/
def pattern (settings : Settings) (e : Entry) : Value :=
  let text := settings.searchCharset.sanitize e.value
  .text ('%' :: (((Text.cut? Value.pathMarker text).map Prod.snd).getD text).lower ++ ['%'])

/-- The values that a listed condition passes. -/
def arguments (settings : Settings) (e : Entry) : Except Error (List Value) :=
  match Operator.ofToken? e.operator with
  | none => .error (.unsupportedOperator e.operator)
  | some operator =>
    (Value.classify operator settings.textCap (settings.conditionCharset.sanitize e.value)).map
      (Value.arguments operator)

end Entry

namespace Sql

variable {p : Predicate} {o : Operand} {operator : Operator} {v : Value}

/-- Nothing that is passed is null or keyed. -/
theorem Predicate.Of.boundOf_slots {C T : Text → Prop} (h : p.Of C T) :
    ∀ v ∈ p.template.slots, v.BoundOf T := by
  rw [p.slots_template]
  cases p with
  | isNull o | isNotNull o => simp [values]
  | compare o op v => simpa [values] using .inl h.2
  | anyOf o items | noneOf o items | overlaps o items =>
    simpa [values] using .inr ⟨items, rfl, h.2⟩
  | like o pattern => simpa [values] using .inl h.2

/-- A predicate leaves one slot for each value that is passed. -/
theorem Predicate.slots_ofValue (hv : v = .null ∨ v.BoundOf fun _ => True)
    (h : ofValue o operator v = .ok p) : p.template.slots = v.arguments operator := by
  rw [p.slots_template]
  rcases hv with rfl | hv | ⟨items, rfl, -⟩
  · cases operator <;> cases h <;> rfl
  · cases v with
    | null | array _ | path _ _ => exact hv.elim
    | bool _ | int _ | text _ => cases operator <;> cases h <;> rfl
  · cases operator <;> cases h <;> rfl

theorem Predicate.slots_ofCondition (h : ofCondition settings r c = .ok p) :
    ∃ v, Value.classify c.operator settings.textCap
        (settings.conditionCharset.sanitize c.value) = .ok v ∧
      p.template.slots = v.arguments c.operator := by
  obtain ⟨column, -, h⟩ := bind_eq_ok_iff.mp h
  obtain ⟨v, hv, h⟩ := bind_eq_ok_iff.mp h
  refine ⟨v, hv, ?_⟩
  have hbound := Value.unkeyed_of_classify hv
  rw [← Value.arguments_unkeyed hbound]
  cases v <;> exact slots_ofValue hbound h

theorem Predicate.slots_ofSearch {e : Entry} (hv : e.value = c.value)
    (h : ofSearch settings r c = .ok p) : p.template.slots = [e.pattern settings] := by
  rw [p.slots_template]
  obtain ⟨column, -, h⟩ := bind_eq_ok_iff.mp h
  dsimp only at h
  split at h
  · next key rest hcut =>
    cases h
    simp [values, Entry.pattern, Predicate.pattern, hv, hcut]
  · next hcut =>
    cases h
    simp [values, Entry.pattern, Predicate.pattern, hv, hcut]

namespace Clause

variable {nodes : List (Node Condition)} {clause : Clause}

/-- What is listed of a block and the predicates that it compiles to belong together, one by one. -/
theorem forall₂_listed {mode : Mode} (hp : Block.parse mode s = .ok nodes)
    (h : ofNodes settings r mode nodes = .ok clause) :
    List.Forall₂ (fun o p => o.condition.Stands mode none ∧
        Predicate.of settings r mode o.condition = .ok p)
      (Occurrence.ofNodes nodes) (leavesAll clause) := by
  obtain ⟨hs, hstand, -⟩ := canonical_iff.mp (Block.parse_eq_ok_iff.mp hp).2
  have hall := forall₂_leaves_of_traverseAll h
  rw [leavesAll_eq_map_ofNodes hs, List.forall₂_map_left_iff] at hall
  refine (List.forall₂_and_left _ _).mpr ⟨?_, hall⟩
  intro o ho
  exact hstand o.said (map_said_ofNodes nodes ▸ List.mem_map_of_mem ho)

/-- A search leaves a slot for the pattern of each of its units, in their order. -/
theorem slots_ofNodes_search (hp : Block.parse .search s = .ok nodes)
    (h : ofNodes settings r .search nodes = .ok clause) :
    (template clause).slots = ((Occurrence.ofNodes nodes).map entry).map (·.pattern settings) := by
  have hall := forall₂_listed hp h
  rw [slots_template]
  generalize Occurrence.ofNodes nodes = os at hall ⊢
  generalize leavesAll clause = ps at hall ⊢
  induction hall with
  | nil => rfl
  | @cons o p os ps hop _ ih =>
    rw [List.flatMap_cons, ih, Predicate.slots_ofSearch (e := o.entry) rfl hop.2]
    rfl

/-- Conditions leave slots for what they pass, in their order. -/
theorem slots_ofNodes_standard (hp : Block.parse .standard s = .ok nodes)
    (h : ofNodes settings r .standard nodes = .ok clause) :
    ∃ parts, ((Occurrence.ofNodes nodes).map entry).mapM (·.arguments settings) = .ok parts ∧
      (template clause).slots = parts.flatten := by
  refine ⟨(leavesAll clause).map fun p => p.template.slots, ?_, ?_⟩
  · apply mapM_eq_ok_iff_forall₂.mpr
    rw [List.forall₂_map_left_iff, List.forall₂_map_right_iff]
    refine (forall₂_listed hp h).imp ?_
    rintro o p ⟨hstand, hop⟩
    obtain ⟨v, hv, hslots⟩ := Predicate.slots_ofCondition hop
    have htoken := Condition.ofToken?_of_stands hstand
    simp [Entry.arguments, entry, htoken, hv, hslots, Except.map]
  · rw [slots_template, List.flatMap_def]

end Clause

end Sql

/-- Without a search text there are no units to list. -/
theorem Reading.searchConditions_eq_ok {search : Text} {nodes : List (Node Condition)}
    (h : Block.parse .search search = .ok nodes) :
    (if search.isEmpty then .ok [] else searchConditions search) =
      .ok ((ofNodes nodes).map entry) := by
  cases search with
  | nil =>
    have hnil : Block.parse .search [] = .ok [] := by cbv
    rw [hnil] at h
    cases h
    rfl
  | cons c search => simp [searchConditions, h, bind, Except.bind, pure, Except.pure]

/-- The values passed beside a statement are the patterns of its search and then what its conditions
pass, both in the order in which they are listed. None of them is null or keyed, and each is bound
by one value. -/
theorem arguments_follow_listing (quote : Sql.Quoting) (settings : Settings) (r : Resolver)
    (target filter search : Text) (withCount : Bool) (q : Sql.Query)
    (h : Sql.compile quote settings r ⟨target, filter, search, withCount, true⟩ = .ok q) :
    ∃ found listed parts,
      (if search.isEmpty then .ok [] else Reading.searchConditions search) = .ok found ∧
      Reading.conditions filter = .ok listed ∧
      listed.mapM (·.arguments settings) = .ok parts ∧
      ∃ args, q.args = some args ∧ args = found.map (·.pattern settings) ++ parts.flatten ∧
        (∀ v ∈ args, v ≠ .null ∧ ∀ key inner, v ≠ .path key inner) ∧
        q.bindings = args.map Value.binding := by
  rw [Sql.compile_eq_map_plan] at h
  obtain ⟨plan, hplan, rfl⟩ := map_eq_ok_iff.mp h
  obtain ⟨-, -, f, select, clause, restriction, hf, -, hblocks, -, rfl⟩ :=
    Sql.plan_eq_ok_iff.mp hplan
  obtain ⟨searchNodes, nodes, searchClause, ownClause, hsn, hn, hsc, hc, hjoin⟩ :=
    Sql.Clause.ofBlocks_eq_ok_iff.mp hblocks
  obtain ⟨parts, hparts, hslots⟩ := Sql.Clause.slots_ofNodes_standard hn hc
  refine ⟨_, _, parts, Reading.searchConditions_eq_ok hsn, Reading.conditions_eq_ok hf hn, hparts,
    clause.whereTemplate.slots, ?_, ?_, ?_, ?_⟩
  · simp [Sql.Plan.query, Sql.Plan.whereClause, Sql.BindMode.ofFlag,
      Sql.Template.render_placeholder]
  · rw [Sql.Clause.slots_whereTemplate, ← hjoin, Sql.Clause.slots_join, hslots,
      Sql.Clause.slots_ofNodes_search hsn hsc]
  · intro v hv
    rw [Sql.Clause.slots_whereTemplate, Sql.Clause.slots_template] at hv
    obtain ⟨p, hp, hv⟩ := List.mem_flatMap.mp hv
    exact ((Sql.Clause.of_ofBlocks hblocks p hp).boundOf_slots v hv).ne_null_ne_path
  · simp [Sql.Query.bindings, Sql.Plan.query, Sql.Plan.whereClause, Sql.BindMode.ofFlag,
      Sql.Template.render_placeholder]

/-- A key in a search and one in a condition, a null that passes nothing, and a single value that
overlaps takes as an array. -/
theorem arguments_follow_listing_mixed :
    ∃ q, Sql.compile .postgres .standard ⟨some, [], []⟩ ⟨"t".toList,
        "?(a==null||b>>true)*c==k^^x,y*d<5?".toList, "e~~K^^AB".toList, false, true⟩ = .ok q ∧
      q.args = some [.text "%ab%".toList, .array [.bool true],
        .array [.text "x".toList, .text "y".toList], .int 5] := by
  have hsearch : Block.parse .search "e~~K^^AB".toList =
      .ok [.leaf ⟨"e".toList, .like, "K^^AB".toList⟩ none] := by cbv
  have hnodes : Block.parse .standard "(a==null||b>>true)*c==k^^x,y*d<5".toList = .ok
      [.group [.leaf ⟨"a".toList, .eq, "null".toList⟩ (some .or),
          .leaf ⟨"b".toList, .overlaps, "true".toList⟩ none] (some .and),
        .leaf ⟨"c".toList, .eq, "k^^x,y".toList⟩ (some .and),
        .leaf ⟨"d".toList, .lt, "5".toList⟩ none] := by cbv
  have hparse : Filter.parse "?(a==null||b>>true)*c==k^^x,y*d<5?".toList =
      .ok ⟨[], "(a==null||b>>true)*c==k^^x,y*d<5".toList, []⟩ := by cbv
  obtain ⟨clause, hblocks⟩ : ∃ clause, Sql.Clause.ofBlocks .standard ⟨some, [], []⟩
      "(a==null||b>>true)*c==k^^x,y*d<5".toList "e~~K^^AB".toList = .ok clause :=
    ⟨_, Sql.Clause.ofBlocks_eq_ok_iff.mpr ⟨_, _, _, _, hsearch, hnodes, rfl, rfl, rfl⟩⟩
  obtain ⟨q, hq⟩ : ∃ q, Sql.compile .postgres .standard ⟨some, [], []⟩ ⟨"t".toList,
      "?(a==null||b>>true)*c==k^^x,y*d<5?".toList, "e~~K^^AB".toList, false, true⟩ = .ok q := by
    rw [Sql.compile_eq_map_plan]
    exact ⟨_, map_eq_ok_iff.mpr ⟨_, Sql.plan_eq_ok_iff.mpr ⟨by decide, by decide, _, _, _, _,
      hparse, by cbv, hblocks, by cbv, rfl⟩, rfl⟩⟩
  obtain ⟨found, listed, parts, hfound, hlisted, hparts, args, hargs, hall, -⟩ :=
    arguments_follow_listing _ _ _ _ _ _ _ _ hq
  rw [Reading.searchConditions_eq_ok hsearch] at hfound
  cases hfound
  rw [Reading.conditions_eq_ok hparse hnodes] at hlisted
  cases hlisted
  cases hparts
  exact ⟨q, hq, hargs.trans (congrArg some hall)⟩

end FilterLang
