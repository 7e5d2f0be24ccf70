import FilterLang.Proofs.Faults
import FilterLang.Proofs.Typing

/-! Which conditions compile. The operator and the text of the value decide it, by one table for all
of them. -/
namespace FilterLang

variable {settings : Settings} {r : Resolver} {c : Condition} {operator : Operator} {cap : Nat}
  {keyed : Bool} {t : Text} {v : Value}

/-- The operators that nulls and arrays take. Every other value takes all of them. -/
def Operator.Takes (operator : Operator) : Value → Prop
  | .null => operator = .eq ∨ operator = .notEq
  | .array _ => operator = .eq ∨ operator = .notEq ∨ operator = .overlaps
  | _ => True

namespace Value

/-- Whether a text can be a single value: a truth value or a number, unless it stands behind a key,
and else a text within the cap. -/
def Single (cap : Nat) (keyed : Bool) (t : Text) : Prop :=
  keyed = false ∧ ((boolWord? t).isSome ∨ (Text.int64? t).isSome) ∨ t.length ≤ cap

/-- The table of operators and the texts that may be set against them. -/
def Admits (cap : Nat) (operator : Operator) (keyed : Bool) (t : Text) : Prop :=
  match operator with
  | .overlaps => isNullWord t = false
  | .eq | .notEq => isNullWord t ∨ ',' ∈ t ∨ Single cap keyed t
  | .lt | .lte | .gt | .gte | .like => isNullWord t = false ∧ ',' ∉ t ∧ Single cap keyed t

instance : Decidable (Single cap keyed t) := inferInstanceAs (Decidable (_ ∨ _))

instance : (operator : Operator) → Decidable (Admits cap operator keyed t)
  | .overlaps => inferInstanceAs (Decidable (_ = _))
  | .eq | .notEq => inferInstanceAs (Decidable (_ ∨ _))
  | .lt | .lte | .gt | .gte | .like => inferInstanceAs (Decidable (_ ∧ _))

namespace Typed

variable {x : Except Error Value}

/-- A text is admitted exactly if it is taken for a value that the operator takes. -/
theorem exists_takes_iff (h : Typed operator cap keyed t x) :
    (∃ v, x = .ok v ∧ operator.Takes v) ↔ Admits cap operator keyed t := by
  cases h with
  | null hn => cases operator <;> simp [Operator.Takes, Admits, hn]
  | @bool b hk hn hb =>
    have hcomma := comma_notMem_of_boolWord? hb
    have hsingle : Single cap keyed t := .inl ⟨hk, .inl (by simp [hb])⟩
    cases operator <;> simp [Operator.Takes, Admits, hn, hcomma, hsingle]
  | int hk hn ho hi =>
    have hcomma := Text.comma_notMem_of_int64? hi
    have hsingle : Single cap keyed t := .inl ⟨hk, .inr (by simp [hi])⟩
    cases operator <;> simp [Operator.Takes, Admits, hn, hcomma, hsingle]
  | list hn hl hb =>
    rw [isList_iff] at hl
    cases operator <;> simp_all [Operator.Takes, Admits]
  | text hn hl hb =>
    have hcomma : ',' ∉ t ∧ operator ≠ .overlaps := by
      rw [← not_or, ← isList_iff, hl]
      exact Bool.false_ne_true
    have hsingle : Single cap keyed t ↔ t.length ≤ cap := by
      refine or_iff_right ?_
      rintro ⟨hk, hword⟩
      simp [hb hk] at hword
    have hvalue : (∃ v, ofText cap t = .ok v ∧ operator.Takes v) ↔ t.length ≤ cap := by
      simp [ofText_eq_ok_iff, Operator.Takes]
    rw [hvalue]
    cases operator <;> simp_all [Admits]

/-- A number passes whatever the cap is, but behind a key it is a text. -/
example : Admits 3 .lt false "12345".toList ∧ ¬ Admits 3 .lt true "12345".toList := by decide

/-- No text is refused for a field. -/
theorem ne_unknownField (h : Typed operator cap keyed t x) (place : Place) (name : Text) :
    x ≠ .error (.unknownField place name) := by
  cases h with
  | text hn hl hb => unfold ofText; split <;> simp
  | null hn | bool hk hn hb | int hk hn ho hi | list hn hl hb => simp

end Typed

end Value

namespace Sql.Predicate

variable {operand : Operand}

theorem exists_ofValue_iff :
    (∃ p, ofValue operand operator v = .ok p) ↔ operator.Takes v := by
  cases v <;> cases operator <;> simp [ofValue, Operator.Takes]

theorem ofValue_ne_unknownField (place : Place) (name : Text) :
    ofValue operand operator v ≠ .error (.unknownField place name) := by
  cases v <;> cases operator <;> simp [ofValue]

/-- What a condition says once its column and its value are there; the key goes with the column. -/
theorem ofCondition_eq {column : Text} (hr : r.resolve c.field = some column)
    (hv : Value.classify c.operator settings.textCap
      (settings.conditionCharset.sanitize c.value) = .ok v) :
    ∃ operand, ofCondition settings r c = ofValue operand c.operator v.unkeyed := by
  have hcolumn : r.column .condition c.field = .ok column := by simp [Resolver.column, hr]
  simp only [ofCondition, hcolumn, hv, bind, Except.bind]
  cases v with
  | path key inner => exact ⟨.member column key, rfl⟩
  | null | bool _ | int _ | text _ | array _ => exact ⟨.column column, rfl⟩

/-- A condition compiles exactly if its field has a column and its value is admitted. -/
theorem exists_ofCondition_iff :
    (∃ p, ofCondition settings r c = .ok p) ↔
      (∃ column, r.resolve c.field = some column) ∧
        Value.Admits settings.textCap c.operator
          (Value.isKeyed (settings.conditionCharset.sanitize c.value))
          (Value.behindKey (settings.conditionCharset.sanitize c.value)) := by
  rw [← (Value.typed_classify _ _ _).exists_takes_iff]
  constructor
  · rintro ⟨p, hp⟩
    obtain ⟨column, hcolumn, h⟩ := bind_eq_ok_iff.mp hp
    obtain ⟨v, hv, -⟩ := bind_eq_ok_iff.mp h
    have hr := Resolver.column_eq_ok hcolumn
    obtain ⟨operand, heq⟩ := ofCondition_eq hr hv
    exact ⟨⟨column, hr⟩, v.unkeyed, map_eq_ok_iff.mpr ⟨v, hv, rfl⟩,
      exists_ofValue_iff.mp ⟨p, heq.symm.trans hp⟩⟩
  · rintro ⟨⟨column, hr⟩, u, hu, htakes⟩
    obtain ⟨v, hv, rfl⟩ := map_eq_ok_iff.mp hu
    obtain ⟨operand, heq⟩ := ofCondition_eq hr hv
    rw [heq]
    exact exists_ofValue_iff.mpr htakes

/-- A field without a column is reported before the value is looked at, and nothing else is reported
as one. -/
theorem ofCondition_eq_unknownField_iff :
    ofCondition settings r c = .error (.unknownField .condition c.field) ↔
      r.resolve c.field = none := by
  constructor
  · intro h₀
    rcases bind_eq_error_iff.mp h₀ with hcolumn | ⟨column, hcolumn, h⟩
    · unfold Resolver.column at hcolumn
      split at hcolumn
      · cases hcolumn
      · assumption
    · rcases bind_eq_error_iff.mp h with hvalue | ⟨v, hv, -⟩
      · have htyped := Value.typed_classify c.operator settings.textCap
          (settings.conditionCharset.sanitize c.value)
        exact absurd (map_eq_error_iff.mpr hvalue) (htyped.ne_unknownField _ _)
      · obtain ⟨operand, heq⟩ := ofCondition_eq (Resolver.column_eq_ok hcolumn) hv
        exact absurd (heq.symm.trans h₀) (ofValue_ne_unknownField _ _)
  · intro hr
    simp [ofCondition, Resolver.column, hr, bind, Except.bind]

end Sql.Predicate

/-- A condition compiles exactly if its field has a column and the table admits its sanitized value.
Without a column it is refused for its field, whatever the value is. -/
theorem Sql.condition_compiles_iff (quote : Quoting) (settings : Settings) (r : Resolver)
    (c : Condition) (k : Option Connector) (bind : BindMode) (used : UInt64) :
    ((∃ x, compileLeaf quote settings r .standard bind used k c = .ok x) ↔
      (∃ column, r.resolve c.field = some column) ∧
        Value.Admits settings.textCap c.operator
          (Value.isKeyed (settings.conditionCharset.sanitize c.value))
          (Value.behindKey (settings.conditionCharset.sanitize c.value))) ∧
    (compileLeaf quote settings r .standard bind used k c =
        .error (.unknownField .condition c.field) ↔ r.resolve c.field = none) := by
  refine ⟨?_, ?_⟩
  · rw [exists_compileLeaf_iff]
    exact Predicate.exists_ofCondition_iff
  · rw [compileLeaf_eq, map_eq_error_iff]
    exact Predicate.ofCondition_eq_unknownField_iff

end FilterLang
