import FilterLang.Proofs.Leaves
import Mathlib.Data.List.Infix

/-! What a predicate takes from the condition that it stands for: a column of the model, numbers and
truth values, and pieces of the sanitized text. -/
namespace FilterLang

namespace Text

variable {s t : Text}

theorem infix_intercalate {mark : Text} {parts : List Text} (h : t ∈ parts) :
    t <:+: mark.intercalate parts := by
  induction parts with
  | nil => cases h
  | cons part parts ih =>
    cases parts with
    | nil =>
      obtain rfl := List.mem_singleton.mp h
      simp
    | cons next parts =>
      rw [List.intercalate_cons_cons]
      rcases List.mem_cons.mp h with rfl | h
      · exact ((List.prefix_append _ _).trans (List.prefix_append _ _)).isInfix
      · exact (ih h).trans (List.suffix_append _ _).isInfix

theorem infix_of_mem_splitOn {c : Char} (h : t ∈ s.splitOn c) : t <:+: s := by
  have hinfix : t <:+: [c].intercalate (s.splitOn c) := infix_intercalate h
  rwa [List.intercalate_splitOn] at hinfix

theorem infix_of_cut? {mark before rest : Text} (h : cut? mark s = some (before, rest)) :
    before <:+: s ∧ rest <:+: s := by
  rw [← append_of_cut? h]
  exact ⟨(List.prefix_append _ _).isInfix, ⟨before ++ mark, [], by simp⟩⟩

/-- An integer of the signed 64-bit range. -/
def IsInt64 (n : Int) : Prop := -0x8000000000000000 ≤ n ∧ n ≤ 0x7FFFFFFFFFFFFFFF

theorem isInt64_of_int64? {n : Int} (h : int64? s = some n) : IsInt64 n := by
  obtain ⟨-, hn⟩ := Option.filter_eq_some_iff.mp h
  simpa [IsInt64] using hn

theorem mem_ofNat {n : Nat} {c : Char} (h : c ∈ Text.ofNat n) : c.isDigit :=
  Nat.isDigit_of_mem_toDigits (by decide) (by decide) h

theorem mem_ofInt {n : Int} {c : Char} (h : c ∈ Text.ofInt n) : c = '-' ∨ c.isDigit := by
  cases n with
  | ofNat n => exact .inr (mem_ofNat h)
  | negSucc n =>
    rcases List.mem_cons.mp h with rfl | h
    · exact .inl rfl
    · exact .inr (mem_ofNat h)

end Text

namespace Value

variable {T : Text → Prop} {s : Text} {v : Value} {operator : Operator} {cap : Nat}

/-- A single value whose text, if it is one, is among the given ones. -/
def ScalarOf (T : Text → Prop) : Value → Prop
  | bool _ => True
  | int n => Text.IsInt64 n
  | text s => T s
  | _ => False

/-- A single value or an array of single values. -/
def BoundOf (T : Text → Prop) (v : Value) : Prop :=
  v.ScalarOf T ∨ ∃ items, v = array items ∧ ∀ item ∈ items, item.ScalarOf T

theorem scalarOf_ofItem (h : T s) : (ofItem s).ScalarOf T := by
  unfold ofItem
  split
  · trivial
  · split
    · next n hn => exact Text.isInt64_of_int64? hn
    · exact h

theorem boundOf_ofText (hT : T s) (h : ofText cap s = .ok v) : v.BoundOf T := by
  unfold ofText at h
  split at h
  · cases h
    exact .inl hT
  · cases h

/-- A value behind a key is null, or made of pieces of its text. -/
theorem classifyInner_eq_ok (hT : ∀ t, t <:+: s → T t) (h : classifyInner operator cap s = .ok v) :
    v = .null ∨ v.BoundOf T := by
  unfold classifyInner at h
  split at h
  · cases h
    exact .inl rfl
  · split at h
    · cases h
      refine .inr (.inr ⟨_, rfl, ?_⟩)
      intro item hitem
      obtain ⟨t, ht, rfl⟩ := List.mem_map.mp hitem
      exact hT t (Text.infix_of_mem_splitOn ht)
    · exact .inr (boundOf_ofText (hT s List.infix_rfl) h)

theorem classifyPlain_eq_ok (hT : ∀ t, t <:+: s → T t) (h : classifyPlain operator cap s = .ok v) :
    v = .null ∨ v.BoundOf T := by
  unfold classifyPlain at h
  split at h
  · cases h
    exact .inl rfl
  · split at h
    · cases h
      exact .inr (.inl trivial)
    · split at h
      · next n hn =>
        cases h
        refine .inr (.inl ?_)
        split at hn
        · cases hn
        · exact Text.isInt64_of_int64? hn
      · split at h
        · cases h
          refine .inr (.inr ⟨_, rfl, ?_⟩)
          intro item hitem
          obtain ⟨t, ht, rfl⟩ := List.mem_map.mp hitem
          exact scalarOf_ofItem (hT t (Text.infix_of_mem_splitOn ht))
        · exact .inr (boundOf_ofText (hT s List.infix_rfl) h)

end Value

theorem Resolver.column_eq_ok {r : Resolver} {place : Place} {name column : Text}
    (h : r.column place name = .ok column) : r.resolve name = some column := by
  unfold Resolver.column at h
  split at h
  · next hr =>
    cases h
    exact hr
  · cases h

namespace Sql

open Node

variable {C T : Text → Prop} {settings : Settings} {r : Resolver} {c : Condition} {o : Operand}
  {p : Predicate}

/-- The columns of an operand and its key are among the given ones. -/
def Operand.Of (C T : Text → Prop) : Operand → Prop
  | .column name => C name
  | .member name key => C name ∧ T key

/-- All columns and texts in a predicate are among the given ones, and it compares with no null. -/
def Predicate.Of (C T : Text → Prop) : Predicate → Prop
  | isNull o | isNotNull o => o.Of C T
  | compare o _ v => o.Of C T ∧ v.ScalarOf T
  | anyOf o items | noneOf o items | overlaps o items => 
    o.Of C T ∧ ∀ v ∈ items, v.ScalarOf T
  | like o pattern => o.Of C T ∧ T pattern

namespace Predicate

theorem ofValue_scalar {operator : Operator} {v : Value} (hv : v.ScalarOf T)
    (h : ofValue o operator v = .ok p) : p = .overlaps o [v] ∨ p = .compare o operator v := by
  cases v with
  | null | array _ | path _ _ => exact hv.elim
  | bool _ | int _ | text _ => cases operator <;> cases h <;> simp

theorem of_ofValue {operator : Operator} {v : Value} (ho : o.Of C T)
    (hv : v = .null ∨ v.BoundOf T) (h : ofValue o operator v = .ok p) : p.Of C T := by
  rcases hv with rfl | hv | ⟨items, rfl, hitems⟩
  · cases operator <;> cases h <;> exact ho
  · rcases ofValue_scalar hv h with rfl | rfl
    · exact ⟨ho, by simpa using hv⟩
    · exact ⟨ho, hv⟩
  · cases operator <;> cases h <;> exact ⟨ho, hitems⟩

theorem of_ofCondition (hC : ∀ name column, r.resolve name = some column → C column)
    (hT : ∀ t, t <:+: settings.conditionCharset.sanitize c.value → T t)
    (h : ofCondition settings r c = .ok p) : p.Of C T := by
  obtain ⟨column, hcolumn, h⟩ := bind_eq_ok_iff.mp h
  obtain ⟨value, hvalue, h⟩ := bind_eq_ok_iff.mp h
  have hcol : C column := hC _ _ (Resolver.column_eq_ok hcolumn)
  unfold Value.classify at hvalue
  split at hvalue
  · next key inner hcut =>
    obtain ⟨hkey, hinner⟩ := Text.infix_of_cut? hcut
    obtain ⟨v, hv, rfl⟩ := map_eq_ok_iff.mp hvalue
    have hbound := Value.classifyInner_eq_ok (fun t ht => hT t (ht.trans hinner)) hv
    exact of_ofValue (o := .member column key) ⟨hcol, hT key hkey⟩ hbound h
  · have hbound := Value.classifyPlain_eq_ok hT hvalue
    split at h
    · rcases hbound with hnull | hscalar | ⟨items, hitems, -⟩
      · cases hnull
      · exact hscalar.elim
      · cases hitems
    · exact of_ofValue (o := .column column) hcol hbound h

theorem of_ofSearch (hC : ∀ name column, r.resolve name = some column → C column)
    (hT : ∀ t, t <:+: settings.searchCharset.sanitize c.value → T t ∧ T (pattern t))
    (h : ofSearch settings r c = .ok p) : p.Of C T := by
  obtain ⟨column, hcolumn, h⟩ := bind_eq_ok_iff.mp h
  have hcol : C column := hC _ _ (Resolver.column_eq_ok hcolumn)
  dsimp only at h
  split at h
  · next key rest hcut =>
    cases h
    obtain ⟨hkey, hrest⟩ := Text.infix_of_cut? hcut
    exact ⟨⟨hcol, (hT key hkey).1⟩, (hT rest hrest).2⟩
  · cases h
    exact ⟨hcol, (hT _ List.infix_rfl).2⟩

end Predicate

/-- The texts that a where clause takes from a request: pieces of its sanitized values, and the
patterns that look for such pieces. -/
def RequestText (settings : Settings) (conditions search : Text) (s : Text) : Prop :=
  (∃ nodes, Block.parse .standard conditions = .ok nodes ∧
    ∃ c ∈ leavesAll nodes, s <:+: settings.conditionCharset.sanitize c.value) ∨
  ∃ nodes, Block.parse .search search = .ok nodes ∧
    ∃ c ∈ leavesAll nodes, ∃ piece, piece <:+: settings.searchCharset.sanitize c.value ∧
      (s = piece ∨ s = Predicate.pattern piece)

/-- Every predicate of a request is made of columns of the model and of text of the request. -/
theorem Clause.of_ofBlocks {conditions search : Text} {clause : Clause}
    (h : Clause.ofBlocks settings r conditions search = .ok clause) :
    ∀ p ∈ leavesAll clause, p.Of (fun column => ∃ name, r.resolve name = some column)
      (RequestText settings conditions search) := by
  obtain ⟨searchNodes, conditionNodes, searchClause, conditionClause, hsn, hcn, hsc, hcc, rfl⟩ :=
    ofBlocks_eq_ok_iff.mp h
  intro p hp
  rw [leavesAll_join] at hp
  rcases List.mem_append.mp hp with hp | hp
  · obtain ⟨c, hc, hcp⟩ := exists_of_mem_leavesAll hsc hp
    refine Predicate.of_ofSearch (fun name _ hname => ⟨name, hname⟩) (fun t ht => ?_) hcp
    exact ⟨.inr ⟨searchNodes, hsn, c, hc, t, ht, .inl rfl⟩,
      .inr ⟨searchNodes, hsn, c, hc, t, ht, .inr rfl⟩⟩
  · obtain ⟨c, hc, hcp⟩ := exists_of_mem_leavesAll hcc hp
    refine Predicate.of_ofCondition (fun name _ hname => ⟨name, hname⟩) (fun t ht => ?_) hcp
    exact .inl ⟨conditionNodes, hcn, c, hc, ht⟩

end Sql

end FilterLang
