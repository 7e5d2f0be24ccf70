import FilterLang.Proofs.Rendering
import Mathlib.Data.List.Forall2

/-! The items of a tree in their order, and what the clause of a request takes from each of them. -/
namespace FilterLang

variable {α β ε : Type}

namespace Node

mutual

/-- The items of a unit, at whatever depth. -/
def leaves : Node α → List α
  | leaf item _ => [item]
  | group children _ => leavesAll children

def leavesAll : List (Node α) → List α
  | [] => []
  | n :: ns => n.leaves ++ leavesAll ns

end

variable {f : α → Except ε β}

mutual

theorem forall₂_leaves_of_traverse {n : Node α} {m : Node β} (h : n.traverse f = .ok m) :
    List.Forall₂ (fun a b => f a = .ok b) n.leaves m.leaves := by
  cases n with
  | leaf item k =>
    rw [traverse] at h
    obtain ⟨b, hb, h⟩ := bind_eq_ok_iff.mp h
    cases h
    exact .cons hb .nil
  | group children k =>
    rw [traverse] at h
    obtain ⟨ms, hms, h⟩ := bind_eq_ok_iff.mp h
    cases h
    exact forall₂_leaves_of_traverseAll hms

/-- A replacement that succeeds keeps the items in their order. -/
theorem forall₂_leaves_of_traverseAll {ns : List (Node α)} {ms : List (Node β)}
    (h : traverseAll f ns = .ok ms) :
    List.Forall₂ (fun a b => f a = .ok b) (leavesAll ns) (leavesAll ms) := by
  cases ns with
  | nil =>
    cases h
    exact .nil
  | cons n ns =>
    rw [traverseAll] at h
    obtain ⟨m, hm, h⟩ := bind_eq_ok_iff.mp h
    obtain ⟨ms, hms, h⟩ := bind_eq_ok_iff.mp h
    cases h
    exact List.rel_append (forall₂_leaves_of_traverse hm) (forall₂_leaves_of_traverseAll hms)

end

/-- Every new item stands for an old one. -/
theorem exists_of_mem_leavesAll {ns : List (Node α)} {ms : List (Node β)} {b : β}
    (h : traverseAll f ns = .ok ms) (hb : b ∈ leavesAll ms) :
    ∃ a ∈ leavesAll ns, f a = .ok b := by
  have hall := (forall₂_leaves_of_traverseAll h).flip
  generalize leavesAll ns = as at hall ⊢
  generalize leavesAll ms = bs at hall hb
  induction hall with
  | nil => cases hb
  | @cons y x ys xs hxy _ ih =>
    rcases List.mem_cons.mp hb with rfl | hb
    · exact ⟨x, List.mem_cons_self, hxy⟩
    · obtain ⟨a, ha, hab⟩ := ih hb
      exact ⟨a, List.mem_cons_of_mem _ ha, hab⟩

end Node

namespace Sql.Clause

open Node

@[simp] theorem leavesAll_join (a b : Clause) :
    leavesAll (join a b) = leavesAll a ++ leavesAll b := by
  cases a <;> simp [join, leavesAll, leaves]

/-- The fixed text between predicates has the property, and it is kept when templates are put
together. -/
structure Additive (P : Template → Prop) : Prop where
  nil : P []
  append {t u : Template} : P t → P u → P (t ++ u)
  text : ∀ s ∈ ["(", ")", " "], P [.text s.toList]
  link (k : Option Connector) : P (link k)

variable {P : Template → Prop}

mutual

/-- What is additive and holds of every predicate holds of the whole clause. -/
theorem Additive.template (h : Additive P) (c : Clause) (hleaf : ∀ p ∈ leavesAll c, P p.template) :
    P (template c) := by
  match c with
  | [] => simpa [Clause.template] using h.nil
  | [n] =>
    rw [Clause.template]
    exact h.unitTemplate n (by simpa [leavesAll] using hleaf)
  | n :: m :: ns =>
    rw [leavesAll, List.forall_mem_append] at hleaf
    rw [Clause.template, ← List.singleton_append]
    have hrest : P (Clause.template (m :: ns)) := h.template (m :: ns) hleaf.2
    exact h.append (h.unitTemplate n hleaf.1) (h.append (h.text " " (by simp)) hrest)

theorem Additive.unitTemplate (h : Additive P) (n : Node Predicate)
    (hleaf : ∀ p ∈ n.leaves, P p.template) : P (unitTemplate n) := by
  match n with
  | .leaf p k =>
    rw [Clause.unitTemplate]
    exact h.append (hleaf p (by simp [leaves])) (h.link k)
  | .group children k =>
    rw [Clause.unitTemplate, ← List.singleton_append]
    have hinner : P (Clause.template children) :=
      h.template children (by simpa [leaves] using hleaf)
    exact h.append (h.text "(" (by simp))
      (h.append hinner (h.append (h.text ")" (by simp)) (h.link k)))

end

end Sql.Clause

end FilterLang
