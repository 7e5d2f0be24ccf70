import FilterLang.Entry
import FilterLang.Proofs.RoundTrip

/-! The conditions of a tree, each with what stands right behind it. A text together with the
conditions listed from it leaves only one tree, so a tree is read back as listed exactly if nothing
in its text turns into something else. -/
namespace FilterLang

variable {ns ms : List (Node Condition)} {n : Node Condition} {k l : Option Connector}
  {P : Condition → Option Connector → Prop}

theorem Condition.stands_iff {mode : Mode} {c : Condition} :
    c.Stands mode k ↔ c.Stands mode none ∧ (k = some .or → c.print.getLast? ≠ some '|') := by
  constructor
  · intro h
    exact ⟨{ h with noBar := by simp }, h.noBar⟩
  · rintro ⟨h, hb⟩
    exact { h with noBar := hb }

namespace Occurrence

open Node

/-- The condition and whether it stands in a group, without what joins it to the next. -/
def said (o : Occurrence) : Condition × Bool := (o.condition, o.inGroup)

def ofChild? : Node Condition → Option Occurrence
  | .leaf c k => some ⟨c, true, k⟩
  | .group _ _ => none

/-- The conditions of one unit, each with the connector right behind it: before a parenthesis that
closes there is none. -/
def standing : Node Condition → List Occurrence
  | .leaf c k => [⟨c, false, k⟩]
  | .group children _ => children.filterMap ofChild?

def standingAll (ns : List (Node Condition)) : List Occurrence := ns.flatMap standing

def saidAll (ns : List (Node Condition)) : List (Condition × Bool) := (standingAll ns).map said

/-- No bar at the end of the condition runs into a `||` behind it. -/
def Sealed (o : Occurrence) : Prop :=
  o.separator = some .or → o.condition.print.getLast? ≠ some '|'

@[simp] theorem standingAll_nil : standingAll [] = [] := rfl

@[simp] theorem standingAll_cons : standingAll (n :: ns) = standing n ++ standingAll ns := rfl

@[simp] theorem standingAll_append : standingAll (ns ++ ms) = standingAll ns ++ standingAll ms :=
  List.flatMap_append

@[simp] theorem saidAll_nil : saidAll [] = [] := rfl

@[simp] theorem saidAll_cons : saidAll (n :: ns) = (standing n).map said ++ saidAll ns :=
  List.map_append

@[simp] theorem saidAll_append : saidAll (ns ++ ms) = saidAll ns ++ saidAll ms := by
  simp [saidAll]

theorem exists_mem_saidAll_iff {p : Condition → Prop} :
    (∃ x ∈ saidAll ns, p x.1) ↔ ∃ o ∈ standingAll ns, p o.condition := by
  constructor
  · rintro ⟨x, hx, hp⟩
    obtain ⟨o, ho, rfl⟩ := List.mem_map.mp hx
    exact ⟨o, ho, hp⟩
  · rintro ⟨o, ho, hp⟩
    exact ⟨o.said, List.mem_map_of_mem ho, hp⟩

theorem forall_mem_saidAll_iff {p : Condition → Prop} :
    (∀ x ∈ saidAll ns, p x.1) ↔ ∀ o ∈ standingAll ns, p o.condition := by
  rw [saidAll, List.forall_mem_map]
  rfl

/-- Which connector a listing shows makes no difference to what it says. -/
theorem map_said_ofNode (n : Node Condition) : (ofNode n).map said = (standing n).map said := by
  have hrelink : ∀ (k : Option Connector) (cs : List (Node Condition)),
      ((relink k cs).filterMap ofChild?).map said = (cs.filterMap ofChild?).map said := by
    intro k cs
    fun_induction relink k cs with
    | case1 => rfl
    | case2 n => cases n <;> rfl
    | case3 n m ns ih =>
      cases n with
      | leaf c l => simpa [List.filterMap_cons, ofChild?] using ih
      | group children l => simpa [List.filterMap_cons, ofChild?] using ih
  cases n with
  | leaf c k => rfl
  | group children k => exact hrelink k children

theorem map_said_ofNodes (ns : List (Node Condition)) :
    (ofNodes ns).map said = saidAll ns := by
  induction ns with
  | nil => rfl
  | cons n ns ih =>
    rw [saidAll_cons, ← ih, ← map_said_ofNode, ofNodes, List.flatMap_cons, List.map_append]
    rfl

theorem standing_ne_nil (h : UnitOf P n) : standing n ≠ [] := by
  cases n with
  | leaf c k => simp [standing]
  | group children k =>
    obtain ⟨hne, -, hl⟩ := h
    obtain ⟨m, rest, rfl⟩ := List.exists_cons_of_ne_nil hne
    cases m with
    | leaf c l => simp [standing, ofChild?]
    | group cs l => exact (hl _ List.mem_cons_self).elim

theorem inGroup_of_mem_standing {o : Occurrence} (h : o ∈ standing n) : o.inGroup = n.isGroup := by
  cases n with
  | leaf c k =>
    obtain rfl := List.mem_singleton.mp h
    rfl
  | group children k =>
    obtain ⟨m, -, hm⟩ := List.mem_filterMap.mp h
    cases m with
    | leaf c l =>
      cases hm
      rfl
    | group cs l => cases hm

end Occurrence

namespace Node

open Occurrence

/-- Connectors stand between units only, and groups hold conditions, at least one. -/
def Shaped (ns : List (Node Condition)) : Prop := Level (UnitOf fun _ _ => True) ns

theorem saidAll_eq_nil_iff (hs : Shaped ns) : saidAll ns = [] ↔ ns = [] := by
  cases ns with
  | nil => simp
  | cons n ns => simp [standing_ne_nil (hs.2 n List.mem_cons_self)]

theorem leafOf_iff :
    LeafOf P n ↔ LeafOf (fun _ _ => True) n ∧ ∀ o ∈ ofChild? n, P o.condition o.separator := by
  cases n <;> simp [LeafOf, ofChild?]

theorem unitOf_iff :
    UnitOf P n ↔
      UnitOf (fun _ _ => True) n ∧ ∀ o ∈ standing n, P o.condition o.separator := by
  cases n with
  | leaf c k => simp [UnitOf, standing]
  | group children k =>
    simp only [UnitOf, Level, standing, List.mem_filterMap]
    constructor
    · rintro ⟨hne, hl, hc⟩
      refine ⟨⟨hne, hl, fun m hm => (leafOf_iff.mp (hc m hm)).1⟩, ?_⟩
      rintro o ⟨m, hm, ho⟩
      exact (leafOf_iff.mp (hc m hm)).2 o ho
    · rintro ⟨⟨hne, hl, hc⟩, ho⟩
      exact ⟨hne, hl, fun m hm => leafOf_iff.mpr ⟨hc m hm, fun o hmo => ho o ⟨m, hm, hmo⟩⟩⟩

/-- A tree is as it should be if its shape is and each of its conditions is. -/
theorem level_unitOf_iff :
    Level (UnitOf P) ns ↔ Shaped ns ∧ ∀ o ∈ standingAll ns, P o.condition o.separator := by
  simp only [Shaped, Level, standingAll, List.mem_flatMap]
  constructor
  · rintro ⟨hl, hn⟩
    refine ⟨⟨hl, fun n hm => (unitOf_iff.mp (hn n hm)).1⟩, ?_⟩
    rintro o ⟨n, hm, ho⟩
    exact (unitOf_iff.mp (hn n hm)).2 o ho
  · rintro ⟨⟨hl, hn⟩, ho⟩
    exact ⟨hl, fun n hm => unitOf_iff.mpr ⟨hn n hm, fun o hno => ho o ⟨n, hm, hno⟩⟩⟩

theorem level_cons_iff {Q : Node Condition → Prop} :
    Level Q (n :: ns) ↔ Q n ∧ (n.connector = none ↔ ns = []) ∧ Level Q ns := by
  simp only [Level, List.map_cons, Connector.linked_cons_iff, List.map_eq_nil_iff,
    List.forall_mem_cons]
  constructor
  · rintro ⟨⟨hk, hl⟩, hn, hns⟩
    exact ⟨hn, hk, hl, hns⟩
  · rintro ⟨hn, hk, hl, hns⟩
    exact ⟨⟨hk, hl⟩, hn, hns⟩

theorem mem_printAll_children_iff {m : Char} (hm : m ≠ '*' ∧ m ≠ '|')
    (h : ∀ n ∈ ns, LeafOf (fun _ _ => True) n) :
    m ∈ printAll ns ↔ ∃ o ∈ ns.filterMap ofChild?, m ∈ o.condition.print := by
  rw [mem_printAll_leaves_iff hm h]
  simp only [List.mem_filterMap]
  constructor
  · rintro ⟨c, k, hn, hc⟩
    exact ⟨⟨c, true, k⟩, ⟨leaf c k, hn, rfl⟩, hc⟩
  · rintro ⟨o, ⟨n, hn, ho⟩, hc⟩
    cases n with
    | group children k => cases ho
    | leaf c k =>
      cases ho
      exact ⟨c, k, hn, hc⟩

/-- A character that is no structure stands in the text of a tree only inside its conditions. -/
theorem mem_printAll_iff {m : Char} (hm : m ∉ ['(', ')', '*', '|']) (hs : Shaped ns) :
    m ∈ printAll ns ↔ ∃ x ∈ saidAll ns, m ∈ x.1.print := by
  obtain ⟨ho, hc, ha, hb⟩ : m ≠ '(' ∧ m ≠ ')' ∧ m ≠ '*' ∧ m ≠ '|' := by simpa using hm
  have hk : ∀ k, m ∉ Connector.text k := by
    rintro (_ | _ | _) <;> simp [Connector.text, Connector.token, ha, hb]
  have hunit : ∀ n ∈ ns, (m ∈ n.print ↔ ∃ o ∈ standing n, m ∈ o.condition.print) := by
    intro n hn
    cases n with
    | leaf c k => simp [print, standing, hk]
    | group children k =>
      have hcs := (hs.2 _ hn).2.2
      simp [print, ho, hc, hk, mem_printAll_children_iff ⟨ha, hb⟩ hcs, standing]
  rw [exists_mem_saidAll_iff (p := fun c => m ∈ c.print), printAll_eq_flatten]
  simp only [List.mem_flatten, List.mem_map, standingAll, List.mem_flatMap]
  constructor
  · rintro ⟨-, ⟨n, hn, rfl⟩, hmn⟩
    obtain ⟨o, ho, hmo⟩ := (hunit n hn).mp hmn
    exact ⟨o, ⟨n, hn, ho⟩, hmo⟩
  · rintro ⟨o, ⟨n, hn, ho⟩, hmo⟩
    exact ⟨n.print, ⟨n, hn, rfl⟩, (hunit n hn).mpr ⟨o, ho, hmo⟩⟩

/-- What stands behind a unit is told from the first characters after it. -/
theorem link_injective (hk : k = none ↔ ns = []) (hl : l = none ↔ ms = [])
    (h : Connector.text k ++ printAll ns = Connector.text l ++ printAll ms) :
    k = l ∧ printAll ns = printAll ms := by
  obtain _ | _ | _ := k <;> obtain _ | _ | _ := l <;>
    simp_all [Connector.text, Connector.token, printAll]

theorem leaves_eq_of_printAll_eq {xs ys : List (Condition × Bool)}
    (hn : Level (LeafOf fun _ _ => True) ns) (hm : Level (LeafOf fun _ _ => True) ms)
    (hp : printAll ns = printAll ms)
    (hs : (ns.filterMap ofChild?).map said ++ xs = (ms.filterMap ofChild?).map said ++ ys) :
    ns = ms := by
  induction ns generalizing ms with
  | nil => exact (printAll_eq_nil_iff.mp hp.symm).symm
  | cons n ns ih =>
    cases ms with
    | nil => exact absurd (printAll_eq_nil_iff.mp hp) (by simp)
    | cons m ms =>
      obtain ⟨hnl, hnk, hns⟩ := level_cons_iff.mp hn
      obtain ⟨hml, hmk, hms⟩ := level_cons_iff.mp hm
      cases n with
      | group children k => exact hnl.elim
      | leaf c k =>
        cases m with
        | group children l => exact hml.elim
        | leaf d l =>
          simp only [List.filterMap_cons, ofChild?, List.map_cons, List.cons_append,
            List.cons.injEq, said, Prod.mk.injEq, and_true] at hs
          obtain ⟨rfl, hs⟩ := hs
          simp only [printAll, print, List.append_assoc, List.append_cancel_left_eq] at hp
          obtain ⟨rfl, hrest⟩ := link_injective (k := k) (l := l) hnk hmk hp
          rw [ih hns hms hrest hs]

theorem leaf_ne_group_said {children : List (Node Condition)} {c : Condition}
    (h : UnitOf (fun _ _ => True) (group children k)) :
    saidAll (leaf c l :: ns) ≠ saidAll (group children k :: ms) := by
  intro he
  obtain ⟨o, rest, ho⟩ := List.exists_cons_of_ne_nil (standing_ne_nil h)
  have hg : o.inGroup = true := inGroup_of_mem_standing (ho ▸ List.mem_cons_self)
  rw [saidAll_cons, saidAll_cons, ho] at he
  have hhead : (c, false) = o.said := (List.cons.inj he).1
  simp [said, hg] at hhead

theorem not_closing_of_said {children : List (Node Condition)}
    (hl : ∀ n ∈ children, LeafOf (fun _ _ => True) n)
    (hc : ∀ x ∈ (children.filterMap ofChild?).map said, ')' ∉ x.1.print) :
    ')' ∉ printAll children := by
  intro hm
  obtain ⟨o, ho, hmo⟩ := (mem_printAll_children_iff (by decide) hl).mp hm
  exact hc o.said (List.mem_map_of_mem ho) hmo

/-- Text and listed conditions determine the tree, groups and connectors included. -/
theorem eq_of_printAll_eq_of_saidAll_eq (hn : Shaped ns) (hm : Shaped ms)
    (hc : ∀ x ∈ saidAll ns, ')' ∉ x.1.print) (hp : printAll ns = printAll ms)
    (hs : saidAll ns = saidAll ms) : ns = ms := by
  induction ns generalizing ms with
  | nil => exact (printAll_eq_nil_iff.mp hp.symm).symm
  | cons n ns ih =>
    cases ms with
    | nil => exact absurd (printAll_eq_nil_iff.mp hp) (by simp)
    | cons m ms =>
      obtain ⟨hnu, hnk, hns⟩ := level_cons_iff.mp hn
      obtain ⟨hmu, hmk, hms⟩ := level_cons_iff.mp hm
      obtain ⟨hcn, hcs⟩ := List.forall_mem_append.mp (saidAll_cons ▸ hc)
      cases n with
      | leaf c k =>
        cases m with
        | group children l => exact (leaf_ne_group_said hmu hs).elim
        | leaf d l =>
          simp only [saidAll_cons, standing, List.map_cons, List.map_nil, List.cons_append,
            List.nil_append, List.cons.injEq, said, Prod.mk.injEq, and_true] at hs
          obtain ⟨rfl, hs⟩ := hs
          simp only [printAll, print, List.append_assoc, List.append_cancel_left_eq] at hp
          obtain ⟨rfl, hrest⟩ := link_injective (k := k) (l := l) hnk hmk hp
          rw [ih hns hms hcs hrest hs]
      | group children k =>
        cases m with
        | leaf d l => exact (leaf_ne_group_said hnu hs.symm).elim
        | group children' l =>
          -- The first closing parenthesis ends the group on both sides.
          have hclose : ')' ∉ printAll children := not_closing_of_said hnu.2.2 hcn
          have hclose' : ')' ∉ printAll children' := not_closing_of_said hmu.2.2
            (List.forall_mem_append.mp (saidAll_cons ▸ hs ▸ hc)).1
          simp only [printAll, print, List.cons_append, List.append_assoc, List.cons.injEq,
            true_and] at hp
          have hcut := Text.cut?_singleton_eq_some_iff.mpr ⟨hp, hclose'⟩
          rw [Text.cut?_singleton_eq_some_iff.mpr ⟨rfl, hclose⟩] at hcut
          obtain ⟨hpc, htail⟩ := Prod.mk.inj (Option.some.inj hcut)
          rw [saidAll_cons, saidAll_cons] at hs
          obtain rfl := leaves_eq_of_printAll_eq hnu.2 hmu.2 hpc hs
          obtain ⟨rfl, hrest⟩ := link_injective (k := k) (l := l) hnk hmk htail
          rw [ih hns hms hcs hrest (List.append_cancel_left hs)]

end Node

/-- No character of the text is blank. -/
def Text.Solid (s : Text) : Prop := ∀ c ∈ s, ¬ Text.isBlank c

instance : DecidablePred Text.Solid :=
  fun s => decidable_of_iff (s.all (!Text.isBlank ·)) (by simp [Text.Solid])

theorem Text.Solid.unblank_eq {s : Text} (h : s.Solid) : s.unblank = s := by
  simpa [Text.unblank, Text.Solid] using h

theorem Text.solid_unblank (s : Text) : s.unblank.Solid := by
  simp [Text.unblank, Text.Solid]

namespace Node

open Occurrence

theorem solid_printAll_iff (hs : Shaped ns) :
    (printAll ns).Solid ↔ ∀ x ∈ saidAll ns, x.1.print.Solid := by
  have hm : ∀ c : Char, Text.isBlank c → c ∉ ['(', ')', '*', '|'] := by
    intro c hb hm
    simp only [List.mem_cons, List.not_mem_nil, or_false] at hm
    rcases hm with rfl | rfl | rfl | rfl <;> exact absurd hb (by decide)
  constructor
  · intro h x hx c hc hb
    exact h c ((mem_printAll_iff (hm c hb) hs).mpr ⟨x, hx, hc⟩) hb
  · intro h c hc hb
    obtain ⟨x, hx, hcx⟩ := (mem_printAll_iff (hm c hb) hs).mp hc
    exact h x hx c hcx hb

theorem canonical_iff {mode : Mode} :
    Canonical mode ns ↔
      Shaped ns ∧ (∀ x ∈ saidAll ns, x.1.Stands mode none) ∧ ∀ o ∈ standingAll ns, o.Sealed := by
  rw [Canonical, level_unitOf_iff, forall_mem_saidAll_iff (p := fun c => c.Stands mode none)]
  simp only [Condition.stands_iff (k := Occurrence.separator _), Sealed, forall_and]

/-- A printed tree is read with the conditions that it says exactly if none of them has a blank and
each is sealed. -/
theorem exists_parse_iff (hs : Shaped ns) (hc : ∀ x ∈ saidAll ns, x.1.Stands .standard none) :
    (∃ ms, Block.parse .standard (printAll ns) = .ok ms ∧ saidAll ms = saidAll ns) ↔
      (∀ x ∈ saidAll ns, x.1.print.Solid) ∧ ∀ o ∈ standingAll ns, o.Sealed := by
  constructor
  · rintro ⟨ms, hp, hsaid⟩
    obtain ⟨hprint, hcan⟩ := Block.parse_eq_ok_iff.mp hp
    obtain ⟨hms, -, hseal⟩ := canonical_iff.mp hcan
    have hsolid : ∀ x ∈ saidAll ns, x.1.print.Solid := by
      rw [← hsaid, ← solid_printAll_iff hms, hprint]
      exact Text.solid_unblank _
    have hun : Text.unblank (printAll ns) = printAll ns :=
      ((solid_printAll_iff hs).mpr hsolid).unblank_eq
    have hclosing : ∀ x ∈ saidAll ms, ')' ∉ x.1.print := by
      rw [hsaid]
      exact fun x hx => (hc x hx).noClosing
    obtain rfl := eq_of_printAll_eq_of_saidAll_eq hms hs hclosing (hprint.trans hun) hsaid
    exact ⟨hsolid, hseal⟩
  · rintro ⟨hsolid, hseal⟩
    refine ⟨ns, Block.parse_eq_ok_iff.mpr ⟨?_, canonical_iff.mpr ⟨hs, hc, hseal⟩⟩, rfl⟩
    exact (((solid_printAll_iff hs).mpr hsolid).unblank_eq).symm

end Node

end FilterLang
