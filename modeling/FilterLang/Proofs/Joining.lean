import FilterLang.Proofs.Rendering
import FilterLang.Sql.Query

/-! The parts of a statement. They are trimmed before they are joined, but a where clause neither
begins nor ends with a blank, so it gets into the statement as it is. -/
namespace FilterLang

namespace Text

variable {s t : Text}

/-- The text has a last character, and trimming leaves it alone. -/
def Ends (s : Text) : Prop := ∃ c ∈ s.getLast?, Text.isBlank c = false

theorem Ends.append (h : s.Ends) : Text.Ends (t ++ s) := by
  obtain ⟨c, hc, hb⟩ := h
  exact ⟨c, by simp_all [List.getLast?_append], hb⟩

theorem ends_of_forall (hne : s ≠ []) (h : ∀ c ∈ s, isBlank c = false) : s.Ends :=
  ⟨s.getLast hne, List.getLast?_eq_some_getLast hne, h _ (List.getLast_mem hne)⟩

theorem trim_cons_of_ends {c : Char} (hc : isBlank c = false) (h : s.Ends) :
    trim (c :: s) = c :: s := by
  obtain ⟨d, hd, hb⟩ := h
  obtain ⟨init, rfl⟩ := List.getLast?_eq_some_iff.mp hd
  simp [trim, hc, hb]

theorem ends_ofNat (n : Nat) : (Text.ofNat n).Ends := by
  refine ends_of_forall Nat.toDigits_ne_nil ?_
  intro c hc
  exact isBlank_of_isDigit (Nat.isDigit_of_mem_toDigits (by decide) (by decide) hc)

end Text

namespace Sql

variable {quote : Quoting} {t u : Template}

section Ends

variable {escape : Char → Text} (hquote : quote.EscapesBy escape)
include hquote

theorem literal_ends : ∀ v : Value, (literal quote v).Ends
  | .null => ⟨'l', rfl, by decide⟩
  | .bool b => by cases b <;> exact ⟨'e', rfl, by decide⟩
  | .int (.ofNat n) => Text.ends_ofNat n
  | .int (.negSucc n) => (Text.ends_ofNat (n + 1)).append (t := ['-'])
  | .text s => by
    have hmark : Text.Ends ['\''] := ⟨'\'', rfl, by decide⟩
    rw [literal]
    by_cases hb : '\\' ∈ s.flatMap escape
    · rw [hquote.marked s hb]
      exact hmark.append
    · rw [hquote.plain s hb]
      exact hmark.append
  | .array items => by
    have hbracket : Text.Ends [']'] := ⟨']', rfl, by decide⟩
    exact hbracket.append
  | .path _ inner => literal_ends inner

/-- However the slots are filled, the text ends in a character that is not blank. -/
def Template.Ends (quote : Quoting) (t : Template) : Prop :=
  ∀ bind used, (t.render quote bind used).sql.Ends

omit hquote in
theorem Template.Ends.append (h : u.Ends quote) : Template.Ends quote (t ++ u) := by
  intro bind used
  rw [Template.render_append]
  exact (h bind _).append

omit hquote in
theorem Template.ends_text {s : Text} (h : s.Ends) : Template.Ends quote [.text s] := by
  intro bind used
  simpa [render, Fragment.empty] using h

theorem Template.ends_slot (v : Value) : Template.Ends quote [.slot v] := by
  intro bind used
  cases bind with
  | literal => simpa [render, Fragment.empty] using literal_ends hquote v
  | placeholder =>
    have hmark : (placeholder (used + 1)).Ends :=
      (Text.ends_ofNat (used + 1).toNat).append (t := ['$'])
    simpa [render, Fragment.empty] using hmark

theorem Predicate.ends_template (p : Predicate) : p.template.Ends quote := by
  have hclose : Template.Ends quote [.text [')']] := Template.ends_text ⟨')', rfl, by decide⟩
  have hnull : Template.Ends quote [.text " is null".toList] :=
    Template.ends_text ⟨'l', rfl, by decide⟩
  have hnotNull : Template.Ends quote [.text " is not null".toList] :=
    Template.ends_text ⟨'l', rfl, by decide⟩
  cases p with
  | isNull o => exact hnull.append
  | isNotNull o => exact hnotNull.append
  | compare o op v => exact ((Template.ends_slot hquote v).append (t := [_])).append
  | anyOf o items => exact (hclose.append (t := [_, _])).append
  | noneOf o items => exact ((hclose.append (t := [_, _])).append).append (t := [_])
  | overlaps o items => exact ((Template.ends_slot hquote _).append (t := [_])).append
  | like o pattern => exact ((Template.ends_slot hquote _).append (t := [_])).append

namespace Clause

omit hquote in
theorem ends_link (h : t.Ends quote) (k : Option Connector) :
    Template.Ends quote (t ++ link k) := by
  cases k with
  | none => simpa [link] using h
  | some k =>
    apply Template.Ends.append
    apply Template.ends_text
    cases k with
    | and => exact ⟨'d', rfl, by decide⟩
    | or => exact ⟨'r', rfl, by decide⟩

theorem ends_unitTemplate (n : Node Predicate) : (unitTemplate n).Ends quote := by
  cases n with
  | leaf p k =>
    rw [unitTemplate]
    exact ends_link (p.ends_template hquote) k
  | group children k =>
    have hclose : Template.Ends quote [.text [')']] := Template.ends_text ⟨')', rfl, by decide⟩
    rw [unitTemplate]
    exact ((ends_link hclose k).append (t := template children)).append (t := [_])

theorem ends_template {c : Clause} (hne : c ≠ []) : (template c).Ends quote := by
  induction c with
  | nil => exact absurd rfl hne
  | cons n ns ih =>
    cases ns with
    | nil =>
      rw [template]
      exact ends_unitTemplate hquote n
    | cons m ns =>
      rw [template]
      exact ((ih (by simp)).append (t := [_])).append

/-- Nothing of a where clause is lost when it is trimmed. -/
theorem trim_whereTemplate {c : Clause} (hne : c ≠ []) (bind : BindMode) (used : UInt64) :
    (c.whereTemplate.render quote bind used).sql.trim =
        (c.whereTemplate.render quote bind used).sql ∧
      (c.whereTemplate.render quote bind used).sql ≠ [] := by
  have hsql : (c.whereTemplate.render quote bind used).sql =
      'w' :: ("here ".toList ++ (c.template.render quote bind used).sql) := by
    simp [whereTemplate, hne, Template.render]
  rw [hsql]
  exact ⟨Text.trim_cons_of_ends (by decide) (ends_template hquote hne bind used).append, by simp⟩

end Clause

end Ends

theorem exists_intercalate (mark : Text) (before after : List Text) :
    ∃ front back, ∀ s : Text, mark.intercalate (before ++ s :: after) = front ++ s ++ back := by
  induction before with
  | nil =>
    cases after with
    | nil => exact ⟨[], [], by simp⟩
    | cons next after => exact ⟨[], mark ++ mark.intercalate (next :: after), by simp⟩
  | cons part before ih =>
    obtain ⟨front, back, h⟩ := ih
    refine ⟨part ++ (mark ++ front), back, fun s => ?_⟩
    have hne : before ++ s :: after ≠ [] := by simp
    rw [List.cons_append, List.intercalate_cons_of_ne_nil hne, h s]
    simp

/-- What stands around a part of a statement does not depend on that part, unless it is blank. -/
theorem exists_joinParts (before after : List Text) :
    ∃ front back, ∀ s : Text, s.trim = s → s ≠ [] →
      joinParts (before ++ s :: after) = front ++ s ++ back := by
  obtain ⟨front, back, h⟩ := exists_intercalate [' ']
    ((before.map Text.trim).filter (!·.isEmpty)) ((after.map Text.trim).filter (!·.isEmpty))
  refine ⟨front, back, fun s htrim hne => ?_⟩
  rw [← h s]
  simp [joinParts, htrim, hne]

end Sql

end FilterLang
