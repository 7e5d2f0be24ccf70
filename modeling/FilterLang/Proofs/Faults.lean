import FilterLang.Proofs.Leaves
import FilterLang.Proofs.Listing

/-! Which of several faults a request is refused for. A tree of conditions fails as the plain list of
them does, at the first one that fails by itself. -/
namespace FilterLang

section Steps

variable {α β γ ε : Type} {f : α → Except ε β} {as : List α} {e : ε}

/-- The first of the items that fails does so with `e`. -/
def FirstFault (f : α → Except ε β) (as : List α) (e : ε) : Prop :=
  ∃ before a after, as = before ++ a :: after ∧ (∀ b ∈ before, ∃ c, f b = .ok c) ∧ f a = .error e

theorem firstFault_iff_mapM : FirstFault f as e ↔ as.mapM f = .error e := mapM_eq_error_iff.symm

theorem exists_map_eq_ok_iff {x : Except ε β} (g : β → γ) :
    (∃ c, x.map g = .ok c) ↔ ∃ b, x = .ok b := by
  cases x <;> simp [Except.map]

/-- What is made of the results plays no part in which item fails first. -/
theorem firstFault_map_iff (g : β → γ) :
    FirstFault (fun a => (f a).map g) as e ↔ FirstFault f as e := by
  simp only [FirstFault, exists_map_eq_ok_iff, map_eq_error_iff]

/-- Where an item fails there is a first one that does. -/
theorem exists_firstFault_iff : (∃ e, FirstFault f as e) ↔ ∃ a ∈ as, ∃ e, f a = .error e := by
  constructor
  · rintro ⟨e, before, a, after, rfl, -, ha⟩
    exact ⟨a, by simp, e, ha⟩
  · rintro ⟨a, ha, e, he⟩
    cases h : as.mapM f with
    | error e => exact ⟨e, firstFault_iff_mapM.mpr h⟩
    | ok bs =>
      obtain ⟨b, hb⟩ := exists_mapM_eq_ok_iff.mp ⟨bs, h⟩ a ha
      rw [hb] at he
      cases he

end Steps

namespace Node

variable {α β ε : Type} (f : α → Except ε β)

mutual

theorem map_leaves_traverse (n : Node α) : (n.traverse f).map leaves = n.leaves.mapM f := by
  cases n with
  | leaf item k =>
    rw [traverse, leaves, List.mapM_cons, List.mapM_nil]
    cases f item <;> rfl
  | group children k =>
    rw [traverse, leaves, ← map_leaves_traverseAll children]
    cases traverseAll f children <;> rfl

/-- The items of a tree are replaced as in the list of them, whatever groups and connectors there
are: up to the same failure, or to the same items. -/
theorem map_leaves_traverseAll (ns : List (Node α)) :
    (traverseAll f ns).map leavesAll = (leavesAll ns).mapM f := by
  cases ns with
  | nil => rfl
  | cons n ns =>
    rw [traverseAll, leavesAll, List.mapM_append, ← map_leaves_traverse n,
      ← map_leaves_traverseAll ns]
    cases n.traverse f with
    | error e => rfl
    | ok m => cases traverseAll f ns <;> rfl

end

end Node

namespace Sql

open Node

variable {settings : Settings} {r : Resolver} {mode : Mode} {nodes : List (Node Condition)}
  {e : Error}

theorem compileLeaf_eq (quote : Quoting) (bind : BindMode) (used : UInt64) (k : Option Connector)
    (c : Condition) :
    compileLeaf quote settings r mode bind used k c =
      (Predicate.of settings r mode c).map fun p =>
        (p.template.render quote bind used).linked k := by
  rw [compileLeaf]
  cases Predicate.of settings r mode c <;> rfl

/-- How a condition is bound and linked does not decide whether it compiles. -/
theorem exists_compileLeaf_iff (quote : Quoting) (bind : BindMode) (used : UInt64)
    (k : Option Connector) (c : Condition) :
    (∃ x, compileLeaf quote settings r mode bind used k c = .ok x) ↔
      ∃ p, Predicate.of settings r mode c = .ok p := by
  rw [compileLeaf_eq, exists_map_eq_ok_iff]

theorem firstFault_compileLeaf_iff (quote : Quoting) (bind : BindMode) (used : UInt64)
    (k : Option Connector) (cs : List Condition) :
    FirstFault (compileLeaf quote settings r mode bind used k) cs e ↔
      FirstFault (Predicate.of settings r mode) cs e := by
  rw [funext (compileLeaf_eq quote bind used k)]
  exact firstFault_map_iff _

theorem Clause.ofNodes_eq_error_iff :
    ofNodes settings r mode nodes = .error e ↔
      FirstFault (Predicate.of settings r mode) (leavesAll nodes) e := by
  rw [firstFault_iff_mapM, ← map_leaves_traverseAll, map_eq_error_iff, ofNodes]

theorem Clause.exists_ofNodes_iff :
    (∃ clause, ofNodes settings r mode nodes = .ok clause) ↔
      ∀ c ∈ leavesAll nodes, ∃ p, Predicate.of settings r mode c = .ok p := by
  rw [← exists_mapM_eq_ok_iff, ← map_leaves_traverseAll, exists_map_eq_ok_iff, ofNodes]

/-- Both blocks are read before either is compiled, the search first each time. -/
theorem Clause.ofBlocks_eq_error_iff {conditions search : Text} :
    ofBlocks settings r conditions search = .error e ↔
      Block.parse .search search = .error e ∨
        ∃ searched, Block.parse .search search = .ok searched ∧
          (Block.parse .standard conditions = .error e ∨
            ∃ nodes, Block.parse .standard conditions = .ok nodes ∧
              (ofNodes settings r .search searched = .error e ∨
                (∃ clause, ofNodes settings r .search searched = .ok clause) ∧
                  ofNodes settings r .standard nodes = .error e)) := by
  simp only [ofBlocks, bind_eq_error_iff, pure, Except.pure, reduceCtorEq, and_false, exists_false,
    or_false, exists_and_right]

theorem Clause.exists_ofBlocks_iff {conditions search : Text} :
    (∃ clause, ofBlocks settings r conditions search = .ok clause) ↔
      ∃ searched nodes, Block.parse .search search = .ok searched ∧
        Block.parse .standard conditions = .ok nodes ∧
        (∃ clause, ofNodes settings r .search searched = .ok clause) ∧
        ∃ clause, ofNodes settings r .standard nodes = .ok clause := by
  simp only [ofBlocks_eq_ok_iff]
  constructor
  · rintro ⟨-, searched, nodes, found, own, hsearch, hparse, hfound, hown, -⟩
    exact ⟨searched, nodes, hsearch, hparse, ⟨found, hfound⟩, own, hown⟩
  · rintro ⟨searched, nodes, hsearch, hparse, ⟨found, hfound⟩, own, hown⟩
    exact ⟨join found own, searched, nodes, found, own, hsearch, hparse, hfound, hown, rfl⟩

/-- A tree of conditions is refused exactly if one of them is, and for what the first of these is
refused for by itself, however it is bound and linked there. A where clause is refused for its search
text if that cannot be read, then for its conditions if these cannot be read, then for the first unit
of the search and then for the first condition that does not compile; else it compiles. -/
theorem first_fault_decides (quote : Quoting) (settings : Settings) (r : Resolver)
    (bind alone : BindMode) (used n : UInt64) (k : Option Connector) :
    (∀ mode nodes,
      ((∃ e, compileNodes quote settings r mode bind used nodes = .error e) ↔
        ∃ c ∈ leavesAll nodes, ∃ e, compileLeaf quote settings r mode alone n k c = .error e) ∧
      ∀ e, compileNodes quote settings r mode bind used nodes = .error e ↔
        FirstFault (compileLeaf quote settings r mode alone n k) (leavesAll nodes) e) ∧
    (∀ conditions search,
      (∀ e, compileWhere quote settings r bind conditions search = .error e ↔
        Block.parse .search search = .error e ∨
          ∃ searched, Block.parse .search search = .ok searched ∧
            (Block.parse .standard conditions = .error e ∨
              ∃ nodes, Block.parse .standard conditions = .ok nodes ∧
                (FirstFault (compileLeaf quote settings r .search alone n k)
                    (leavesAll searched) e ∨
                  (∀ c ∈ leavesAll searched,
                    ∃ x, compileLeaf quote settings r .search alone n k c = .ok x) ∧
                  FirstFault (compileLeaf quote settings r .standard alone n k)
                    (leavesAll nodes) e))) ∧
      ((∃ x, compileWhere quote settings r bind conditions search = .ok x) ↔
        ∃ searched nodes, Block.parse .search search = .ok searched ∧
          Block.parse .standard conditions = .ok nodes ∧
          (∀ c ∈ leavesAll searched,
            ∃ x, compileLeaf quote settings r .search alone n k c = .ok x) ∧
          ∀ c ∈ leavesAll nodes,
            ∃ x, compileLeaf quote settings r .standard alone n k c = .ok x)) := by
  have hnodes : ∀ mode nodes e, compileNodes quote settings r mode bind used nodes = .error e ↔
      FirstFault (compileLeaf quote settings r mode alone n k) (leavesAll nodes) e := by
    intro mode nodes e
    rw [compileNodes_eq, map_eq_error_iff, Clause.ofNodes_eq_error_iff, firstFault_compileLeaf_iff]
  refine ⟨fun mode nodes => ⟨?_, hnodes mode nodes⟩, fun conditions search => ⟨?_, ?_⟩⟩
  · simp only [hnodes, exists_firstFault_iff]
  · intro e
    rw [compileWhere_eq, map_eq_error_iff, Clause.ofBlocks_eq_error_iff]
    simp only [Clause.ofNodes_eq_error_iff, Clause.exists_ofNodes_iff, firstFault_compileLeaf_iff,
      exists_compileLeaf_iff]
  · rw [compileWhere_eq, exists_map_eq_ok_iff, Clause.exists_ofBlocks_iff]
    simp only [Clause.exists_ofNodes_iff, exists_compileLeaf_iff]

end Sql

end FilterLang
