import FilterLang.Proofs.Precedence

/-! The search in front of the conditions. Its `and` reaches no further than the first `or` behind
it, so it narrows a result only where there is none. -/
namespace FilterLang.Sql

open Node

namespace Clause

variable {s c : Clause} {v : Nat → Truth}

theorem wellJoinedAll_join (hs : WellJoinedAll s) (hc : WellJoinedAll c) :
    WellJoinedAll (join s c) := by
  by_cases hempty : s = []
  · simpa [join, hempty] using hc
  · by_cases hlast : c = [] <;>
      simp [join, hempty, hlast, WellJoinedAll, WellJoined, connector, hs, hc]

/-- The search is one more unit of the first alternative. -/
theorem truth?_join (hs : WellJoinedAll s) (hc : WellJoinedAll c) :
    ∃ x, truth? v 0 (lexemesAll s) = some x ∧
      truth? v 0 (lexemesAll (join s c)) =
        some ((x.and (first v (leavesAll s).length c)).or (others v (leavesAll s).length c)) := by
  refine ⟨_, truth?_lexemesAll hs 0, ?_⟩
  rw [truth?_lexemesAll (wellJoinedAll_join hs hc)]
  by_cases hempty : s = []
  · subst hempty
    simp [join, leavesAll, first, others]
  · by_cases hlast : c = [] <;>
      simp [join, hempty, hlast, first, others, truth, connector, leaves]

/-- Put in front of `c`, the search `s` holds back every row that it does not find, and no other. -/
def Narrows (s c : Clause) : Prop :=
  ∀ v x y z, truth? v 0 (lexemesAll s) = some x →
    truth? v (leavesAll s).length (lexemesAll c) = some y →
    truth? v 0 (lexemesAll (join s c)) = some z → (z = .yes ↔ x = .yes ∧ y = .yes)

/-- Rows that the search does not find and every condition does come back through an `or`. -/
theorem not_narrows (hs : WellJoinedAll s) (hc : WellJoinedAll c) (hne : s ≠ [])
    (hor : some .or ∈ c.map connector) : ¬ Narrows s c := by
  intro h
  have hcne : c ≠ [] := by
    rintro rfl
    cases hor
  -- A row of which the search says no and every condition yes.
  let v : Nat → Truth := fun j => if j < (leavesAll s).length then .no else .yes
  have hno : ∀ j, 0 ≤ j → j < 0 + (leavesAll s).length → v j = .no := by
    intro j _ hj
    exact if_pos (by omega)
  have hyes : ∀ j, (leavesAll s).length ≤ j → j < (leavesAll s).length + (leavesAll c).length →
      v j = .yes := by
    intro j hj _
    exact if_neg (by omega)
  have hsearch : truth? v 0 (lexemesAll s) = some .no := truth?_of_uniform hs hne 0 hno
  have hconditions : truth? v (leavesAll s).length (lexemesAll c) = some .yes :=
    truth?_of_uniform hc hcne _ hyes
  obtain ⟨x, hx, hjoin⟩ := truth?_join (v := v) hs hc
  rw [hsearch] at hx
  cases hx
  obtain ⟨hfirst, hothers⟩ := first_of_uniform hc hcne _ hyes
  rw [hfirst, hothers hor] at hjoin
  have hboth := (h v _ _ _ hsearch hconditions hjoin).mp rfl
  cases hboth.1

theorem narrows_iff (hs : WellJoinedAll s) (hc : WellJoinedAll c) :
    Narrows s c ↔ (s ≠ [] → some .or ∉ c.map connector) := by
  constructor
  · intro h hne hor
    exact not_narrows hs hc hne hor h
  · intro h v x y z hx hy hz
    obtain ⟨x', hx', hjoin⟩ := truth?_join (v := v) hs hc
    rw [hx] at hx'
    cases hx'
    rw [truth?_lexemesAll hc] at hy
    cases hy
    rw [hjoin] at hz
    cases hz
    by_cases hempty : s = []
    · subst hempty
      cases hx
      simp
    · rw [others_eq_no (h hempty), Truth.or_no, Truth.or_no, Truth.and_eq_yes_iff]

end Clause

variable {settings : Settings} {r : Resolver}

theorem Clause.wellJoinedAll_of_ofNodes {mode : Mode} {raw : Text} {nodes : List (Node Condition)}
    {clause : Clause} (hp : Block.parse mode raw = .ok nodes)
    (h : Clause.ofNodes settings r mode nodes = .ok clause) :
    WellJoinedAll clause ∧ clause.map connector = nodes.map connector :=
  wellJoinedAll_of_traverseAll h (wellJoinedAll_of_parse hp)

/-- The text of a where clause is read as one search unit in front of the first alternative of the
conditions. It finds what both blocks find exactly if there is no search or no `||` of the
conditions stands outside their groups. -/
theorem search_narrows_iff (quote : Quoting) (settings : Settings) (r : Resolver)
    (bind : BindMode) (conditions search : Text) (f : Fragment)
    (h : compileWhere quote settings r bind conditions search = .ok f) :
    ∃ searchNodes conditionNodes s c,
      Block.parse .search search = .ok searchNodes ∧
      Block.parse .standard conditions = .ok conditionNodes ∧
      Clause.ofNodes settings r .search searchNodes = .ok s ∧
      Clause.ofNodes settings r .standard conditionNodes = .ok c ∧
      f = (Clause.join s c).whereTemplate.render quote bind 0 ∧
      (Clause.join s c).template = (lexemesAll (Clause.join s c)).flatMap Lexeme.template ∧
      (∀ v, ∃ x y z, truth? v 0 (lexemesAll s) = some x ∧
        truth? v (leavesAll s).length (lexemesAll c) = some (Truth.or y z) ∧
        truth? v 0 (lexemesAll (Clause.join s c)) = some ((x.and y).or z)) ∧
      (Clause.Narrows s c ↔ (searchNodes ≠ [] → some .or ∉ conditionNodes.map connector)) := by
  obtain ⟨searchNodes, conditionNodes, s, c, hsn, hcn, hsc, hcc, rfl⟩ :=
    compileWhere_eq_ok_iff.mp h
  obtain ⟨hs, hsmap⟩ := Clause.wellJoinedAll_of_ofNodes hsn hsc
  obtain ⟨hc, hcmap⟩ := Clause.wellJoinedAll_of_ofNodes hcn hcc
  have hempty : s = [] ↔ searchNodes = [] := by
    rw [← List.map_eq_nil_iff, hsmap, List.map_eq_nil_iff]
  refine ⟨searchNodes, conditionNodes, s, c, hsn, hcn, hsc, hcc, rfl,
    Clause.template_eq_flatMap (Clause.wellJoinedAll_join hs hc), ?_, ?_⟩
  · intro v
    obtain ⟨x, hx, hjoin⟩ := Clause.truth?_join (v := v) hs hc
    exact ⟨x, _, _, hx, truth?_lexemesAll hc _, hjoin⟩
  · rw [Clause.narrows_iff hs hc, hcmap, ne_eq, hempty]

/-- An `or` inside a group does not end the reach of the search. -/
theorem search_narrows_grouped :
    compileWhere .postgres .standard ⟨some, [], []⟩ .literal "a==1*(b==2||c==3)".toList
        "a~~x".toList =
      .ok ⟨"where (lower(q.a::text) like '%x%') and q.a = 1 and (q.b = 2 or q.c = 3)".toList, []⟩ ∧
    Clause.Narrows [.leaf (.like (.column ['a']) "%x%".toList) none]
      [.leaf (.compare (.column ['a']) .eq (.int 1)) (some .and),
        .group [.leaf (.compare (.column ['b']) .eq (.int 2)) (some .or),
          .leaf (.compare (.column ['c']) .eq (.int 3)) none] none] := by
  have hsearch : Block.parse .search "a~~x".toList =
      .ok [.leaf ⟨['a'], .like, ['x']⟩ none] := by cbv
  have hconditions : Block.parse .standard "a==1*(b==2||c==3)".toList = .ok
      [.leaf ⟨['a'], .eq, ['1']⟩ (some .and),
        .group [.leaf ⟨['b'], .eq, ['2']⟩ (some .or), .leaf ⟨['c'], .eq, ['3']⟩ none] none] := by
    cbv
  have hwhere : compileWhere .postgres .standard ⟨some, [], []⟩ .literal
      "a==1*(b==2||c==3)".toList "a~~x".toList = .ok
      ⟨"where (lower(q.a::text) like '%x%') and q.a = 1 and (q.b = 2 or q.c = 3)".toList, []⟩ :=
    compileWhere_eq_ok_iff.mpr ⟨_, _,
      [.leaf (.like (.column ['a']) "%x%".toList) none],
      [.leaf (.compare (.column ['a']) .eq (.int 1)) (some .and),
        .group [.leaf (.compare (.column ['b']) .eq (.int 2)) (some .or),
          .leaf (.compare (.column ['c']) .eq (.int 3)) none] none],
      hsearch, hconditions, rfl, rfl, rfl⟩
  obtain ⟨searchNodes, conditionNodes, s, c, hsn, hcn, hsc, hcc, -, -, -, hiff⟩ :=
    search_narrows_iff _ _ _ _ _ _ _ hwhere
  rw [hsearch] at hsn
  cases hsn
  rw [hconditions] at hcn
  cases hcn
  cases hsc
  cases hcc
  exact ⟨hwhere, hiff.mpr fun _ => by decide⟩

/-- A row with the right count is found, although the search does not find it. -/
theorem search_passed_by_alternative :
    ∃ s c, (Block.parse .search "content~~abc".toList >>=
        Clause.ofNodes .standard ⟨some, [], []⟩ .search) = .ok s ∧
      (Block.parse .standard "ID==5||count==2".toList >>=
        Clause.ofNodes .standard ⟨some, [], []⟩ .standard) = .ok c ∧
      compileWhere .postgres .standard ⟨some, [], []⟩ .literal "ID==5||count==2".toList
        "content~~abc".toList = .ok
        ⟨"where (lower(q.content::text) like '%abc%') and q.ID = 5 or q.count = 2".toList, []⟩ ∧
      truth? (fun j => if j = 2 then .yes else .no) 0 (lexemesAll s) = some .no ∧
      truth? (fun j => if j = 2 then .yes else .no) 0 (lexemesAll (Clause.join s c)) = some .yes ∧
      ¬ Clause.Narrows s c := by
  have hsearch : Block.parse .search "content~~abc".toList =
      .ok [.leaf ⟨"content".toList, .like, "abc".toList⟩ none] := by cbv
  have hconditions : Block.parse .standard "ID==5||count==2".toList = .ok
      [.leaf ⟨"ID".toList, .eq, ['5']⟩ (some .or), .leaf ⟨"count".toList, .eq, ['2']⟩ none] := by
    cbv
  refine ⟨[.leaf (.like (.column "content".toList) "%abc%".toList) none],
    [.leaf (.compare (.column "ID".toList) .eq (.int 5)) (some .or),
      .leaf (.compare (.column "count".toList) .eq (.int 2)) none],
    bind_eq_ok_iff.mpr ⟨_, hsearch, rfl⟩, bind_eq_ok_iff.mpr ⟨_, hconditions, rfl⟩,
    compileWhere_eq_ok_iff.mpr ⟨_, _, _, _, hsearch, hconditions, rfl, rfl, rfl⟩, rfl, rfl,
    ?_⟩
  intro h
  have hboth := (h (fun j => if j = 2 then .yes else .no) .no .yes .yes rfl rfl rfl).mp rfl
  cases hboth.1

end FilterLang.Sql
