import FilterLang.Edit
import FilterLang.Reading
import FilterLang.Proofs.Splicing
import Mathlib.Data.List.Forall2

/-! What is listed from a filter whose conditions were written from a tree. -/
namespace FilterLang

open Occurrence Node

variable {s : Text} {f : Filter} {ns : List (Node Condition)} {e : Entry} {c : Condition}

section Steps

variable {α β ε : Type} {f : α → Except ε β} {as : List α} {bs : List β}

/-- Steps over a list succeed exactly if each of them does. -/
theorem mapM_eq_ok_iff_forall₂ :
    as.mapM f = .ok bs ↔ List.Forall₂ (fun a b => f a = .ok b) as bs := by
  induction as generalizing bs with
  | nil => cases bs <;> simp [pure, Except.pure]
  | cons a as ih =>
    rw [List.mapM_cons, bind_eq_ok_iff]
    constructor
    · rintro ⟨b, hb, h⟩
      obtain ⟨bs, hbs, h⟩ := bind_eq_ok_iff.mp h
      cases h
      exact .cons hb (ih.mp hbs)
    · rintro (_ | ⟨hb, hbs⟩)
      exact ⟨_, hb, bind_eq_ok_iff.mpr ⟨_, ih.mpr hbs, rfl⟩⟩

theorem exists_mapM_eq_ok_iff : (∃ bs, as.mapM f = .ok bs) ↔ ∀ a ∈ as, ∃ b, f a = .ok b := by
  induction as with
  | nil => simp [pure, Except.pure]
  | cons a as ih =>
    rw [List.forall_mem_cons, ← ih]
    simp only [List.mapM_cons, bind_eq_ok_iff]
    constructor
    · rintro ⟨-, b, hb, bs, hbs, -⟩
      exact ⟨⟨b, hb⟩, bs, hbs⟩
    · rintro ⟨⟨b, hb⟩, bs, hbs⟩
      exact ⟨b :: bs, b, hb, bs, hbs, rfl⟩

/-- Steps over a list fail as the first of them that fails. -/
theorem mapM_eq_error_iff {e : ε} :
    as.mapM f = .error e ↔
      ∃ before a after, as = before ++ a :: after ∧ (∀ b ∈ before, ∃ c, f b = .ok c) ∧
        f a = .error e := by
  induction as with
  | nil => simp [pure, Except.pure]
  | cons a as ih =>
    rw [List.mapM_cons, bind_eq_error_iff]
    constructor
    · rintro (ha | ⟨b, hb, h⟩)
      · exact ⟨[], a, as, rfl, by simp, ha⟩
      · rcases bind_eq_error_iff.mp h with h | ⟨bs, -, h⟩
        · obtain ⟨before, x, after, rfl, hbefore, hx⟩ := ih.mp h
          exact ⟨a :: before, x, after, rfl, List.forall_mem_cons.mpr ⟨⟨b, hb⟩, hbefore⟩, hx⟩
        · cases h
    · rintro ⟨before, x, after, has, hbefore, hx⟩
      cases before with
      | nil =>
        obtain ⟨rfl, -⟩ := List.cons.inj has
        exact .inl hx
      | cons y before =>
        obtain ⟨rfl, rfl⟩ := List.cons.inj has
        obtain ⟨⟨b, hb⟩, hbefore⟩ := List.forall_mem_cons.mp hbefore
        exact .inr ⟨b, hb, bind_eq_error_iff.mpr (.inl (ih.mpr ⟨before, x, after, rfl, hbefore, hx⟩))⟩

end Steps

theorem Filter.parse_eq_ok_iff :
    Filter.parse s = .ok f ↔ f.print = s ∧ '?' ∉ f.fields ∧ '?' ∉ f.conditions := by
  constructor
  · intro h
    unfold Filter.parse at h
    split at h
    · contradiction
    · refine ⟨Filter.print_of_split h, ?_⟩
      unfold Filter.split at h
      split at h
      · contradiction
      · next hf =>
        split at h
        · contradiction
        · next hc =>
          cases h
          exact ⟨(Text.cut?_singleton_eq_some_iff.mp hf).2,
            (Text.cut?_singleton_eq_some_iff.mp hc).2⟩
  · rintro ⟨rfl, hf, hc⟩
    have hfirst : Text.cut? ['?'] f.print =
        some (f.fields, f.conditions ++ '?' :: f.restrictions) :=
      Text.cut?_singleton_eq_some_iff.mpr ⟨by simp [Filter.print], hf⟩
    have hsecond : Text.cut? ['?'] (f.conditions ++ '?' :: f.restrictions) =
        some (f.conditions, f.restrictions) := Text.cut?_singleton_eq_some_iff.mpr ⟨rfl, hc⟩
    have hne : f.print ≠ [] := by simp [Filter.print]
    simp [Filter.parse, Filter.split, hfirst, hsecond, hne]

theorem Filter.split_eq_ok_iff : Filter.split s = .ok f ↔ Filter.parse s = .ok f := by
  cases s with
  | nil => simp [Filter.parse, Filter.split, Text.cut?]
  | cons c s => simp [Filter.parse]

namespace Entry

/-- What an entry says, apart from the connector beside it. -/
def content (e : Entry) : Text × Text × Text × Bool := (e.field, e.operator, e.value, e.inGroup)

def text (e : Entry) : Text := e.field ++ e.operator ++ e.value

end Entry

/-- What a condition says in a listing. -/
def Occurrence.contentOf (x : Condition × Bool) : Text × Text × Text × Bool :=
  (x.1.field, x.1.operator.token, x.1.value, x.2)

theorem Operator.token_injective {p q : Operator} (h : p.token = q.token) : p = q := by
  revert h
  cases p <;> cases q <;> decide

theorem Occurrence.contentOf_injective : Function.Injective contentOf := by
  rintro ⟨⟨f, p, v⟩, g⟩ ⟨⟨f', q, v'⟩, g'⟩ h
  simp only [contentOf, Prod.mk.injEq] at h
  obtain ⟨rfl, hpq, rfl, rfl⟩ := h
  rw [Operator.token_injective hpq]

theorem Connector.occursIn_eq_false_iff : occursIn s = false ↔ Free s := by
  have h : (span s).2 = [] ↔ Free s := by
    constructor
    · intro hr
      have hs := span_append s
      rw [hr, List.append_nil] at hs
      have hspan := span_eq_iff.mp (rfl : span s = ((span s).1, (span s).2))
      rw [← hs]
      exact hspan.2.1.1
    · intro hf
      rw [span_eq_iff.mpr ⟨(List.append_nil s).symm, ⟨hf, by simp [Apart]⟩, .inl rfl⟩]
  simp [occursIn, h]

theorem Condition.readsBack_iff :
    c.readsBack = true ↔ '?' ∉ c.print ∧ c.Stands .standard none := by
  unfold readsBack
  simp only [Bool.and_eq_true, Bool.not_eq_true', Connector.occursIn_eq_false_iff,
    List.contains_eq_mem, decide_eq_false_iff_not]
  cases hp : parse .standard c.print with
  | error err =>
    constructor
    · rintro ⟨-, h⟩
      cases h
    · rintro ⟨-, h⟩
      rw [h.reads] at hp
      cases hp
  | ok c' =>
    constructor
    · rintro ⟨⟨⟨⟨hq, ho⟩, hc⟩, hf⟩, he⟩
      rw [of_decide_eq_true he] at hp
      exact ⟨hq, ho, hc, hf, hp, by simp⟩
    · rintro ⟨hq, h⟩
      rw [h.reads] at hp
      cases hp
      exact ⟨⟨⟨⟨hq, h.noOpening⟩, h.noClosing⟩, h.free⟩, decide_eq_true rfl⟩

namespace Entry

/-- An entry is written as the condition that it says, or not at all. -/
theorem toCondition_eq_ok (h : e.toCondition = .ok c) (grouped : Bool) :
    contentOf (c, grouped) = (e.field, e.operator, e.value, grouped) ∧
      '?' ∉ c.print ∧ c.Stands .standard none := by
  unfold toCondition at h
  split at h
  · contradiction
  · next operator ho =>
    dsimp only at h
    split at h
    · next hr =>
      cases h
      have htoken : operator.token = e.operator := by simpa using List.find?_some ho
      exact ⟨by rw [contentOf, htoken], Condition.readsBack_iff.mp hr⟩
    · contradiction

theorem print_of_toCondition (h : e.toCondition = .ok c) : c.print = e.text := by
  have hc := (toCondition_eq_ok h false).1
  simp only [contentOf, Prod.mk.injEq] at hc
  rw [Condition.print, hc.1, hc.2.1, hc.2.2.1, text]

theorem toNode_eq_ok_iff {k : Option Connector} {n : Node Condition} :
    e.toNode k = .ok n ↔ ∃ c, e.toCondition = .ok c ∧ n = single e.inGroup c k := by
  rw [toNode, bind_eq_ok_iff]
  constructor
  · rintro ⟨c, hc, h⟩
    cases h
    exact ⟨c, hc, rfl⟩
  · rintro ⟨c, hc, rfl⟩
    exact ⟨c, hc, rfl⟩

end Entry

/-- A tree of conditions that each can be written into a filter. -/
def Node.Writable (ns : List (Node Condition)) : Prop :=
  Shaped ns ∧ ∀ x ∈ saidAll ns, '?' ∉ x.1.print ∧ x.1.Stands .standard none

theorem Node.writable_nil : Writable [] := by
  simp [Writable, Shaped, Level, Connector.Linked]

theorem Node.Writable.mark_notMem (hw : Writable ns) : '?' ∉ printAll ns := by
  rw [mem_printAll_iff (by decide) hw.1]
  rintro ⟨x, hx, hm⟩
  exact (hw.2 x hx).1 hm

theorem Filter.writable_nodes (hp : Filter.parse s = .ok f) (hn : f.nodes = .ok ns) :
    Writable ns ∧ SealedAll ns ∧ ∀ x ∈ saidAll ns, x.1.print.Solid := by
  obtain ⟨hprint, hcan⟩ := Block.parse_eq_ok_iff.mp hn
  obtain ⟨hs, hstand, hseal⟩ := canonical_iff.mp hcan
  have hq : '?' ∉ printAll ns := by
    rw [hprint]
    exact fun hm => (Filter.parse_eq_ok_iff.mp hp).2.2 (List.mem_of_mem_filter hm)
  refine ⟨⟨hs, fun x hx => ⟨fun hm => hq ?_, hstand x hx⟩⟩, hseal, ?_⟩
  · exact (mem_printAll_iff (by decide) hs).mpr ⟨x, hx, hm⟩
  · rw [← solid_printAll_iff hs, hprint]
    exact Text.solid_unblank f.conditions

/-- What was read from a filter is written back without the blanks of its conditions. -/
theorem Filter.withNodes_eq (hn : f.nodes = .ok ns) :
    f.withNodes ns = { f with conditions := f.conditions.unblank } := by
  rw [withNodes, (Block.parse_eq_ok_iff.mp hn).1]
  rfl

/-- A tree is read again from the filter that it was written into, provided that none of its
conditions has a blank or runs into a connector. -/
theorem Filter.nodes_withNodes (hw : Writable ns) (hseal : SealedAll ns)
    (hsolid : ∀ x ∈ saidAll ns, x.1.print.Solid) : (f.withNodes ns).nodes = .ok ns := by
  refine Block.parse_eq_ok_iff.mpr ⟨?_, canonical_iff.mpr ⟨hw.1, ?_, hseal⟩⟩
  · exact ((solid_printAll_iff hw.1).mpr hsolid).unblank_eq.symm
  · intro x hx
    exact (hw.2 x hx).2

theorem Filter.parse_withNodes (hf : '?' ∉ f.fields) (hw : Writable ns) :
    Filter.parse (f.withNodes ns).print = .ok (f.withNodes ns) :=
  Filter.parse_eq_ok_iff.mpr ⟨rfl, hf, hw.mark_notMem⟩

namespace Reading

/-- The filter lists conditions that say this, in this order. -/
def Lists (filter : Text) (contents : List (Text × Text × Text × Bool)) : Prop :=
  ∃ es, conditions filter = .ok es ∧ es.map Entry.content = contents

theorem conditions_eq_ok (hp : Filter.parse s = .ok f) (hn : f.nodes = .ok ns) :
    conditions s = .ok ((ofNodes ns).map entry) := by
  simp [conditions, occurrences, hp, hn, bind, Except.bind, pure, Except.pure]

theorem map_content_ofNodes (ns : List (Node Condition)) :
    ((ofNodes ns).map entry).map Entry.content = (saidAll ns).map contentOf := by
  rw [← map_said_ofNodes, List.map_map, List.map_map]
  rfl

/-- A filter lists the conditions of a tree that was written into it exactly if none of them has a
blank or runs into a connector. -/
theorem lists_withNodes_iff (hf : '?' ∉ f.fields) (hw : Writable ns) :
    Lists (f.withNodes ns).print ((saidAll ns).map contentOf) ↔
      (∀ x ∈ saidAll ns, x.1.print.Solid) ∧ SealedAll ns := by
  have hparse := Filter.parse_withNodes hf hw
  rw [SealedAll, ← exists_parse_iff hw.1 fun x hx => (hw.2 x hx).2]
  constructor
  · rintro ⟨es, hes, hsaid⟩
    cases hn : (f.withNodes ns).nodes with
    | error err => simp [conditions, occurrences, hparse, hn, bind, Except.bind] at hes
    | ok ms =>
      rw [conditions_eq_ok hparse hn] at hes
      cases hes
      rw [map_content_ofNodes] at hsaid
      exact ⟨ms, hn, contentOf_injective.list_map hsaid⟩
  · rintro ⟨ms, hn, hsaid⟩
    exact ⟨_, conditions_eq_ok hparse hn, by rw [map_content_ofNodes, hsaid]⟩

end Reading

end FilterLang
