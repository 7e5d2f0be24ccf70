import FilterLang.Proofs.Arguments

/-! What the text of a value is taken for: a null, a truth value, a number, a list or a text. Only a
text that stands alone is held to the cap. -/
namespace FilterLang

namespace Text

variable {s : Text}

theorem isUpper_iff_toNat {c : Char} : c.isUpper ↔ 0x41 ≤ c.toNat ∧ c.toNat ≤ 0x5A :=
  decide_eq_true_iff

theorem isLower_iff_toNat {c : Char} : c.isLower ↔ 0x61 ≤ c.toNat ∧ c.toNat ≤ 0x7A := by
  have h : c.isLower = (decide (0x61 ≤ c.toNat) && decide (c.toNat ≤ 0x7A)) := rfl
  rw [h, Bool.and_eq_true, decide_eq_true_iff, decide_eq_true_iff]

theorem char_of_integer? {n : Int} (h : integer? s = some n) :
    ∀ c ∈ s, c = '-' ∨ c = '+' ∨ c.isDigit := by
  unfold integer? at h
  split at h
  · obtain ⟨i, hi, -⟩ := Option.map_eq_some_iff.mp h
    obtain ⟨m, hm, -⟩ := Option.bind_eq_some_iff.mp hi
    intro c hc
    exact (List.mem_cons.mp hc).imp_right fun hc => .inr ((digits?_eq_some_iff.mp hm).2.1 c hc)
  · obtain ⟨m, hm, -⟩ := Option.map_eq_some_iff.mp h
    intro c hc
    exact .inr ((List.mem_cons.mp hc).imp_right ((digits?_eq_some_iff.mp hm).2.1 c))
  · obtain ⟨m, hm, -⟩ := Option.map_eq_some_iff.mp h
    intro c hc
    exact .inr (.inr ((digits?_eq_some_iff.mp hm).2.1 c hc))

theorem comma_notMem_of_int64? {n : Int} (h : int64? s = some n) : ',' ∉ s := by
  intro hcomma
  have hchar := char_of_integer? (Option.filter_eq_some_iff.mp h).1 ',' hcomma
  exact absurd hchar (by decide)

end Text

namespace Value

variable {operator : Operator} {cap : Nat} {keyed : Bool} {s t : Text} {v : Value}

theorem comma_notMem_of_isWord {word : Text} (hw : ',' ∉ word) (h : isWord word s) : ',' ∉ s := by
  intro hcomma
  have hlower : s.map Char.toLower = word := by simpa [isWord] using h
  apply hw
  rw [← hlower]
  exact List.mem_map_of_mem (f := Char.toLower) hcomma

theorem comma_notMem_of_boolWord? {b : Bool} (h : boolWord? s = some b) : ',' ∉ s := by
  unfold boolWord? at h
  split at h
  · next hw => exact comma_notMem_of_isWord (by decide) hw
  · split at h
    · next hw => exact comma_notMem_of_isWord (by decide) hw
    · cases h

/-- The text of the value itself: all of it, or what stands behind the key. -/
def behindKey (s : Text) : Text := ((Text.cut? pathMarker s).map Prod.snd).getD s

def isKeyed (s : Text) : Bool := Text.holds pathMarker s

/-- An item of a list. Behind a key it is text, whatever it says. -/
def ofItemAt (keyed : Bool) (s : Text) : Value := if keyed then .text s else ofItem s

/-- All that a text can be taken for, each with what has to hold of it. -/
inductive Typed (operator : Operator) (cap : Nat) (keyed : Bool) (t : Text) :
    Except Error Value → Prop where
  | null (hn : isNullWord t) : Typed operator cap keyed t (.ok .null)
  | bool {b : Bool} (hk : keyed = false) (hn : isNullWord t = false) (hb : boolWord? t = some b) :
      Typed operator cap keyed t (.ok (.bool b))
  | int {n : Int} (hk : keyed = false) (hn : isNullWord t = false) (ho : operator ≠ .overlaps)
      (hi : Text.int64? t = some n) : Typed operator cap keyed t (.ok (.int n))
  | list (hn : isNullWord t = false) (hl : isList operator t)
      (hb : keyed = false → boolWord? t = none) :
      Typed operator cap keyed t (.ok (.array ((t.splitOn listSeparator).map (ofItemAt keyed))))
  | text (hn : isNullWord t = false) (hl : isList operator t = false)
      (hb : keyed = false → boolWord? t = none ∧ Text.int64? t = none) :
      Typed operator cap keyed t (ofText cap t)

theorem typed_classifyInner (operator : Operator) (cap : Nat) (t : Text) :
    Typed operator cap true t (classifyInner operator cap t) := by
  unfold classifyInner
  split
  · next hn => exact .null hn
  · next hn =>
    have hn : isNullWord t = false := by simpa using hn
    split
    · next hl => exact .list hn hl (by simp)
    · next hl => exact .text hn (by simpa using hl) (by simp)

theorem typed_classifyPlain (operator : Operator) (cap : Nat) (t : Text) :
    Typed operator cap false t (classifyPlain operator cap t) := by
  unfold classifyPlain
  split
  · next hn => exact .null hn
  · next hn =>
    have hn : isNullWord t = false := by simpa using hn
    split
    · next b hb => exact .bool rfl hn hb
    · next hb =>
      split
      · next n hi =>
        split at hi
        · cases hi
        · next ho => exact .int rfl hn ho hi
      · next hi =>
        split
        · next hl => exact .list hn hl fun _ => hb
        · next hl =>
          have hl : isList operator t = false := by simpa using hl
          -- A text that is no list does not stand against overlaps, so it was tried as a number.
          have ho : operator ≠ .overlaps := by
            rintro rfl
            simp [isList] at hl
          exact .text hn hl fun _ => ⟨hb, by simpa [ho] using hi⟩

/-- Without its key, a value is taken for one of these. -/
theorem typed_classify (operator : Operator) (cap : Nat) (s : Text) :
    Typed operator cap (isKeyed s) (behindKey s) ((classify operator cap s).map unkeyed) := by
  unfold classify isKeyed behindKey Text.holds
  cases hcut : Text.cut? pathMarker s with
  | some parts =>
    have hinner : ((classifyInner operator cap parts.2).map (path parts.1)).map unkeyed =
        classifyInner operator cap parts.2 := by
      cases classifyInner operator cap parts.2 <;> rfl
    simpa [hinner] using typed_classifyInner operator cap parts.2
  | none =>
    have hplain : (classifyPlain operator cap s).map unkeyed = classifyPlain operator cap s := by
      cases hv : classifyPlain operator cap s with
      | error e => rfl
      | ok v =>
        have hbound := classifyPlain_eq_ok (T := fun _ => True) (fun _ _ => trivial) hv
        rw [Except.map, unkeyed_eq_self hbound]
    simpa [hplain] using typed_classifyPlain operator cap s

mutual

/-- Every text inside a value, in whatever it is nested. -/
def texts : Value → List Text
  | null | bool _ | int _ => []
  | text s => [s]
  | array items => textsAll items
  | path _ inner => inner.texts

def textsAll : List Value → List Text
  | [] => []
  | v :: vs => v.texts ++ textsAll vs

end

@[simp] theorem textsAll_eq_flatMap (vs : List Value) : textsAll vs = vs.flatMap texts := by
  induction vs with
  | nil => rfl
  | cons v vs ih => rw [textsAll, ih, List.flatMap_cons]

theorem texts_unkeyed (v : Value) : v.unkeyed.texts = v.texts := by
  cases v with
  | path key inner => rw [unkeyed, texts]
  | null | bool _ | int _ | text _ | array _ => rfl

theorem mem_texts_ofItemAt {item : Text} :
    t ∈ (ofItemAt keyed item).texts ↔
      t = item ∧ (keyed = false → boolWord? item = none ∧ Text.int64? item = none) := by
  cases keyed with
  | true => simp [ofItemAt, texts]
  | false =>
    simp only [ofItemAt, Bool.false_eq_true, if_false, ofItem, true_implies]
    cases hb : boolWord? item with
    | some b => simp [texts]
    | none =>
      cases hi : Text.int64? item with
      | some n => simp [texts]
      | none => simp [texts]

/-- An item of a list that is taken for text: behind a key each one, and else what is neither a truth
value nor a number. -/
def TextItem (operator : Operator) (keyed : Bool) (t item : Text) : Prop :=
  isNullWord t = false ∧ isList operator t ∧ item ∈ t.splitOn listSeparator ∧
    (keyed = false → boolWord? item = none ∧ Text.int64? item = none)

/-- Without a comma a list is its only item. -/
theorem eq_of_mem_splitOn {item : Text} (hc : ',' ∉ t) (h : item ∈ t.splitOn listSeparator) :
    item = t := by
  rw [listSeparator, List.splitOn_eq_singleton hc] at h
  exact List.mem_singleton.mp h

theorem isList_iff : isList operator t ↔ ',' ∈ t ∨ operator = .overlaps := by
  simp [isList, listSeparator]

theorem ofText_eq_ok_iff : ofText cap t = .ok v ↔ t.length ≤ cap ∧ v = .text t := by
  unfold ofText
  split
  · next hle => simp [hle, eq_comm]
  · next hle => simp [hle]

namespace Typed

variable {x : Except Error Value} {item : Text}

/-- The texts of a value are the text items of its list, or the one text that it is. -/
theorem mem_texts_iff (h : Typed operator cap keyed t x) (hx : x = .ok v) :
    item ∈ v.texts ↔ TextItem operator keyed t item ∨ v = .text item := by
  cases h with
  | null hn =>
    cases hx
    simp [texts, TextItem, hn]
  | @bool b hk hn hb =>
    cases hx
    have hnot : ¬ TextItem operator keyed t item := by
      rintro ⟨-, -, hmem, hitem⟩
      obtain rfl := eq_of_mem_splitOn (comma_notMem_of_boolWord? hb) hmem
      simp [(hitem hk).1] at hb
    simp [texts, hnot]
  | int hk hn ho hi =>
    cases hx
    have hnot : ¬ TextItem operator keyed t item := by
      rintro ⟨-, hl, -⟩
      exact (isList_iff.mp hl).elim (Text.comma_notMem_of_int64? hi) ho
    simp [texts, hnot]
  | list hn hl hb =>
    cases hx
    simp [texts, TextItem, hn, hl, mem_texts_ofItemAt]
  | text hn hl hb =>
    obtain ⟨-, rfl⟩ := ofText_eq_ok_iff.mp hx
    have hnot : ¬ TextItem operator keyed t item := by
      rintro ⟨-, hlist, -⟩
      simp [hl] at hlist
    simp [texts, hnot, eq_comm]

/-- A text that stands alone is within the cap. -/
theorem length_le (h : Typed operator cap keyed t x) (hx : x = .ok (.text item)) :
    item.length ≤ cap := by
  cases h with
  | text hn hl hb =>
    obtain ⟨hle, he⟩ := ofText_eq_ok_iff.mp hx
    cases he
    exact hle
  | null hn => cases hx
  | bool hk hn hb => cases hx
  | int hk hn ho hi => cases hx
  | list hn hl hb => cases hx

end Typed

/-- Every text inside a value is within the cap exactly if no text item of a list is beyond it. A text
that stands alone always is, behind a key or not. -/
theorem texts_within_cap_iff (operator : Operator) (cap : Nat) (s : Text) (v : Value)
    (h : classify operator cap s = .ok v) :
    (∀ t ∈ v.texts, t.length ≤ cap) ↔
      ∀ item, TextItem operator (isKeyed s) (behindKey s) item → item.length ≤ cap := by
  have htyped := typed_classify operator cap s
  have hx : (classify operator cap s).map unkeyed = .ok v.unkeyed := by rw [h, Except.map]
  rw [← texts_unkeyed]
  constructor
  · intro hcap item hitem
    exact hcap item ((htyped.mem_texts_iff hx).mpr (.inl hitem))
  · intro hcap t ht
    rcases (htyped.mem_texts_iff hx).mp ht with hitem | htext
    · exact hcap t hitem
    · exact htyped.length_le (hx.trans (congrArg _ htext))

/-- Items at the cap behind a key, where numbers are texts as well. -/
theorem texts_within_cap_keyed :
    ∃ v, classify .eq 3 "k^^abc,,123".toList = .ok v ∧ v.texts = ["abc".toList, [], "123".toList] ∧
      ∀ t ∈ v.texts, t.length ≤ 3 := by
  have h : classify .eq 3 "k^^abc,,123".toList = .ok (.path "k".toList
      (.array [.text "abc".toList, .text [], .text "123".toList])) := rfl
  have hitems : ("abc,,123".toList.splitOn listSeparator) = ["abc".toList, [], "123".toList] := by
    decide
  refine ⟨_, h, by simp [texts], (texts_within_cap_iff _ _ _ _ h).mpr ?_⟩
  rintro item ⟨-, -, hitem, -⟩
  have hbehind : behindKey "k^^abc,,123".toList = "abc,,123".toList := rfl
  rw [hbehind, hitems] at hitem
  revert item
  decide

/-- A comma takes a text past the cap: alone it is refused, as an item of a list it passes. -/
theorem list_item_beyond_cap :
    classify .eq 48 (List.replicate 49 'a') =
        .error (.invalidValue .literal (List.replicate 49 'a') .tooLong) ∧
      ∃ v, classify .eq 48 (List.replicate 49 'a' ++ ",b".toList) = .ok v ∧
        List.replicate 49 'a' ∈ v.texts ∧ ¬ (List.replicate 49 'a').length ≤ 48 := by
  refine ⟨rfl, .array [.text (List.replicate 49 'a'), .text "b".toList], rfl, ?_, by simp⟩
  simp [texts]

end Value

end FilterLang
