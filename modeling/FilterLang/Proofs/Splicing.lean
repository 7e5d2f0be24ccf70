import FilterLang.Node.Splice
import FilterLang.Proofs.Standing

/-! What putting units into a tree does to the conditions it says and to its seams. -/
namespace FilterLang.Node

open Occurrence

variable {α : Type} {ns ms : List (Node Condition)} {n : Node Condition} {c : Condition}
  {k : Option Connector} {grouped : Bool}

/-- A condition by itself or in a group of its own. -/
def single (grouped : Bool) (c : Condition) (k : Option Connector) : Node Condition :=
  if grouped then group [leaf c none] k else leaf c k

/-- A unit that ends in a bar, which would run into a `||` behind it. -/
def Open : Node Condition → Prop
  | leaf c _ => c.print.getLast? = some '|'
  | group _ _ => False

/-- No condition of the tree runs into a connector. -/
def SealedAll (ns : List (Node Condition)) : Prop := ∀ o ∈ standingAll ns, o.Sealed

@[simp] theorem sealedAll_nil : SealedAll [] := by
  simp [SealedAll]

@[simp] theorem sealedAll_append : SealedAll (ns ++ ms) ↔ SealedAll ns ∧ SealedAll ms := by
  simp [SealedAll, or_imp, forall_and]

theorem sealedAll_cons : SealedAll (n :: ns) ↔ SealedAll [n] ∧ SealedAll ns := by
  rw [← sealedAll_append, List.singleton_append]

@[simp] theorem connector_withConnector : (n.withConnector k).connector = k := by
  cases n <;> rfl

theorem connector_single : (single grouped c k).connector = k := by
  cases grouped <;> rfl

theorem standing_single :
    standing (single grouped c k) = [⟨c, grouped, if grouped then none else k⟩] := by
  cases grouped <;> rfl

theorem open_single :
    (single grouped c k).Open ↔ grouped = false ∧ c.print.getLast? = some '|' := by
  cases grouped <;> simp [single, Open]

theorem unitOf_single : UnitOf (fun _ _ => True) (single grouped c k) := by
  cases grouped <;> simp [single, UnitOf, LeafOf, Level, Connector.Linked, connector]

theorem unitOf_withConnector (h : UnitOf (fun _ _ => True) n) :
    UnitOf (fun _ _ => True) (n.withConnector k) := by
  cases n <;> exact h

theorem said_withConnector : (standing (n.withConnector k)).map said = (standing n).map said := by
  cases n <;> rfl

/-- Only a single condition that ends in a bar can be told apart from itself by a connector. -/
theorem sealedAll_withConnector (hn : n.connector = none) :
    SealedAll [n.withConnector k] ↔ SealedAll [n] ∧ (k = some .or → ¬ n.Open) := by
  cases n with
  | leaf c l =>
    obtain rfl : l = none := hn
    simp [SealedAll, withConnector, standing, Sealed, Open]
  | group children l => simp [SealedAll, withConnector, standing, Open]

theorem relink_concat (k : Option Connector) (init : List (Node Condition)) (n : Node Condition) :
    relink k (init ++ [n]) = init ++ [n.withConnector k] := by
  induction init with
  | nil => rfl
  | cons m init ih => cases init <;> simp_all [relink]

theorem saidAll_relink (k : Option Connector) (ns : List (Node Condition)) :
    saidAll (relink k ns) = saidAll ns := by
  fun_induction relink k ns with
  | case1 => rfl
  | case2 n => simp [said_withConnector]
  | case3 n m ns ih =>
    rw [saidAll_cons, ih]
    exact saidAll_cons.symm

/-- A tree stays in shape when a unit is joined to its end. -/
theorem shaped_relink_append (hs : Shaped ns) (hu : UnitOf (fun _ _ => True) n)
    (hn : n.connector = none) (l : Connector) : Shaped (relink (some l) ns ++ [n]) := by
  have hone : Shaped [n] := level_cons_iff.mpr ⟨hu, by simp [hn], by simp [Level, Connector.Linked]⟩
  fun_induction relink (some l) ns with
  | case1 => exact hone
  | case2 m =>
    obtain ⟨hm, -, -⟩ := level_cons_iff.mp hs
    exact level_cons_iff.mpr ⟨unitOf_withConnector hm, by simp, hone⟩
  | case3 m m' ns ih =>
    obtain ⟨hm, hk, hns⟩ := level_cons_iff.mp hs
    exact level_cons_iff.mpr ⟨hm, by simpa using hk, ih hns⟩

theorem sealedAll_relink (hs : Shaped ns) (l : Connector) :
    SealedAll (relink (some l) ns) ↔
      SealedAll ns ∧ ∀ m ∈ ns.getLast?, l = .or → ¬ m.Open := by
  fun_induction relink (some l) ns with
  | case1 => simp
  | case2 m =>
    obtain ⟨-, hk, -⟩ := level_cons_iff.mp hs
    simp [sealedAll_withConnector (hk.mpr rfl)]
  | case3 m m' ns ih =>
    obtain ⟨-, -, hns⟩ := level_cons_iff.mp hs
    have hcons : SealedAll (m :: m' :: ns) ↔ SealedAll [m] ∧ SealedAll (m' :: ns) := sealedAll_cons
    rw [sealedAll_cons, ih hns, hcons, List.getLast?_cons_cons, and_assoc]

theorem saidAll_putBefore (added : List (Connector × Node Condition)) (ns : List (Node Condition)) :
    saidAll (putBefore added ns) = saidAll (added.map Prod.snd) ++ saidAll ns := by
  induction added with
  | nil => rfl
  | cons p added ih => simp [putBefore, ih, said_withConnector]

theorem saidAll_putAfter (ns : List (Node Condition)) (added : List (Connector × Node Condition)) :
    saidAll (putAfter ns added) = saidAll ns ++ saidAll (added.map Prod.snd) := by
  induction added generalizing ns with
  | nil => simp [putAfter]
  | cons p added ih =>
    have hstep := ih (relink (some p.1) ns ++ [p.2])
    simpa [putAfter, saidAll_relink] using hstep

theorem shaped_putBefore {added : List (Connector × Node Condition)}
    (ha : ∀ p ∈ added, UnitOf (fun _ _ => True) p.2) (hs : Shaped ns) :
    Shaped (putBefore added ns) := by
  induction added with
  | nil => exact hs
  | cons p added ih =>
    obtain ⟨hp, ha⟩ := List.forall_mem_cons.mp ha
    refine level_cons_iff.mpr ⟨unitOf_withConnector hp, ?_, ih ha⟩
    cases putBefore added ns <;> simp

theorem shaped_putAfter {added : List (Connector × Node Condition)}
    (ha : ∀ p ∈ added, UnitOf (fun _ _ => True) p.2 ∧ p.2.connector = none) (hs : Shaped ns) :
    Shaped (putAfter ns added) := by
  induction added generalizing ns with
  | nil => exact hs
  | cons p added ih =>
    obtain ⟨⟨hu, hk⟩, ha⟩ := List.forall_mem_cons.mp ha
    exact ih ha (shaped_relink_append hs hu hk p.1)

section First

variable {p : α → Bool} {as before after : List α} {a : α}

theorem splitFirst?_eq_some_iff :
    splitFirst? p as = some (before, a, after) ↔
      as = before ++ a :: after ∧ p a = true ∧ ∀ b ∈ before, p b = false := by
  induction as generalizing before with
  | nil => simp [splitFirst?]
  | cons x xs ih =>
    by_cases hx : p x = true
    · cases before <;> grind [splitFirst?]
    · have hx : p x = false := by simpa using hx
      simp only [splitFirst?, hx, Bool.false_eq_true, if_false, Option.map_eq_some_iff, Prod.exists,
        Prod.mk.injEq]
      constructor
      · rintro ⟨ys, b, zs, hsplit, rfl, rfl, rfl⟩
        obtain ⟨rfl, ha, hys⟩ := ih.mp hsplit
        exact ⟨rfl, ha, List.forall_mem_cons.mpr ⟨hx, hys⟩⟩
      · rintro ⟨he, ha, hb⟩
        cases before with
        | nil =>
          obtain ⟨rfl, -⟩ := List.cons.inj he
          simp [hx] at ha
        | cons y ys =>
          obtain ⟨rfl, hxs⟩ := List.cons.inj he
          exact ⟨ys, a, after, ih.mpr ⟨hxs, ha, (List.forall_mem_cons.mp hb).2⟩, rfl, rfl, rfl⟩

theorem splitFirst?_eq_none_iff : splitFirst? p as = none ↔ ∀ a ∈ as, p a = false := by
  induction as with
  | nil => simp [splitFirst?]
  | cons x xs ih =>
    by_cases hx : p x = true <;> simp [splitFirst?, hx, ih]

end First

theorem isOn_iff {name : Text} :
    isOn name n = true ↔ ∃ o ∈ ofChild? n, o.condition.field = name := by
  cases n <;> simp [isOn, ofChild?]

theorem mentions_iff {name : Text} :
    mentions name n = true ↔ ∃ o ∈ standing n, o.condition.field = name := by
  cases n with
  | leaf c k => simp [mentions, standing]
  | group children k =>
    simp only [mentions, List.any_eq_true, isOn_iff, standing, List.mem_filterMap]
    constructor
    · rintro ⟨m, hm, o, ho, hf⟩
      exact ⟨o, ⟨m, hm, ho⟩, hf⟩
    · rintro ⟨o, ⟨m, hm, ho⟩, hf⟩
      exact ⟨m, hm, o, ho, hf⟩

/-- No unit mentions a field exactly if no condition on it is listed. -/
theorem forall_not_mentions_iff {name : Text} :
    (∀ n ∈ ns, mentions name n = false) ↔ ∀ o ∈ ofNodes ns, o.condition.field ≠ name := by
  calc (∀ n ∈ ns, mentions name n = false)
    _ ↔ ∀ o ∈ standingAll ns, o.condition.field ≠ name := by
      simp only [standingAll, List.forall_mem_flatMap, ← Bool.not_eq_true, mentions_iff]
      simp
    _ ↔ ∀ x ∈ saidAll ns, x.1.field ≠ name :=
      (forall_mem_saidAll_iff (p := fun c => c.field ≠ name)).symm
    _ ↔ ∀ o ∈ ofNodes ns, o.condition.field ≠ name := by
      rw [← map_said_ofNodes, List.forall_mem_map]
      rfl

theorem Level.connector_last {Q : Node Condition → Prop} {init : List (Node Condition)}
    (h : Level Q (init ++ [n])) : n.connector = none := by
  induction init with
  | nil => exact (level_cons_iff.mp h).2.1.mpr rfl
  | cons m init ih => exact ih (level_cons_iff.mp h).2.2

/-- A unit can be replaced by another with the same connector. -/
theorem Level.replace {Q : Node Condition → Prop} {m : Node Condition}
    (h : Level Q (ns ++ n :: ms)) (hm : Q m) (hk : m.connector = n.connector) :
    Level Q (ns ++ m :: ms) := by
  obtain ⟨hl, hq⟩ := h
  refine ⟨by simpa [hk] using hl, ?_⟩
  intro x hx
  rcases List.mem_append.mp hx with hx | hx
  · exact hq x (by simp [hx])
  · rcases List.mem_cons.mp hx with rfl | hx
    · exact hm
    · exact hq x (by simp [hx])

end FilterLang.Node
