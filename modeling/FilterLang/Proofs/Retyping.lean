import FilterLang.Proofs.Counts
import FilterLang.Proofs.Typing

/-! The plain text of a value, read as a value again. Words change their case and numbers lose zeros
and signs when they are displayed, but each is still taken for what it was. -/
namespace FilterLang

namespace Text

variable {mark s before rest : Text} {parts : List Text}

/-- Where a text is cut does not depend on what stands behind the mark. -/
theorem cut?_of_cut? (hm : mark ≠ []) (h : cut? mark s = some (before, rest)) (t : Text) :
    cut? mark (before ++ (mark ++ t)) = some (before, t) := by
  induction s generalizing before with
  | nil => contradiction
  | cons c cs ih =>
    rw [cut?] at h
    split at h
    · cases h
      obtain ⟨d, ds, rfl⟩ := List.exists_cons_of_ne_nil hm
      simp [cut?]
    · next hp =>
      obtain ⟨⟨b, r⟩, hb, he⟩ := Option.map_eq_some_iff.mp h
      cases he
      -- An occurrence further to the front would end before `rest` begins.
      have hfront : ¬ mark <+: c :: (b ++ (mark ++ t)) := by
        intro hmark
        have hshort : mark <+: c :: (b ++ mark) := by
          refine List.prefix_of_prefix_length_le hmark ⟨t, by simp⟩ ?_
          simp only [List.length_cons, List.length_append]
          omega
        have hold : c :: (b ++ mark) <+: c :: cs := ⟨rest, by simp [← append_of_cut? hb]⟩
        exact hp (List.isPrefixOf_iff_prefix.mpr (hshort.trans hold))
      rw [← List.isPrefixOf_iff_prefix] at hfront
      rw [List.cons_append, cut?, if_neg hfront, ih hb]
      rfl

/-- A mark without a comma does not reach over one. -/
theorem infix_comma_iff (hm : mark ≠ []) (hc : ',' ∉ mark) {t : Text} :
    mark <:+: s ++ ',' :: t ↔ mark <:+: s ∨ mark <:+: t := by
  have hcomma : ∀ m : Text, m ≠ [] → ',' ∉ m → ¬ m <+: ',' :: t := by
    intro m hne hm hp
    obtain ⟨d, ds, rfl⟩ := List.exists_cons_of_ne_nil hne
    obtain ⟨rfl, -⟩ := List.cons_prefix_cons.mp hp
    exact hm List.mem_cons_self
  rw [List.infix_append_iff_ne_nil, List.infix_cons_iff]
  constructor
  · rintro (hs | (hp | ht) | ⟨m₁, m₂, -, hne, rfl, -, hp⟩)
    · exact .inl hs
    · exact absurd hp (hcomma mark hm hc)
    · exact .inr ht
    · exact absurd hp (hcomma m₂ hne fun h => hc (List.mem_append_right _ h))
  · rintro (hs | ht)
    · exact .inl hs
    · exact .inr (.inl (.inr ht))

theorem infix_intercalate_iff (hm : mark ≠ []) (hc : ',' ∉ mark) :
    mark <:+: [','].intercalate parts ↔ ∃ part ∈ parts, mark <:+: part := by
  induction parts with
  | nil => simpa using hm
  | cons part parts ih =>
    cases parts with
    | nil => simp
    | cons next parts =>
      rw [List.intercalate_cons_cons, List.append_assoc, List.singleton_append,
        infix_comma_iff hm hc, ih]
      simp

theorem digits?_ofNat (n : Nat) : digits? (ofNat n) = some n :=
  digits?_eq_some_iff.mpr ⟨Nat.toDigits_ne_nil, fun _ hc => mem_ofNat hc,
    Nat.ofDigitChars_toDigits (by decide) (by decide)⟩

/-- A number of the signed range is read back from its digits. -/
theorem int64?_ofInt {n : Int} (h : IsInt64 n) : int64? (ofInt n) = some n := by
  have hinteger : integer? (ofInt n) = some n := by
    cases n with
    | ofNat n => exact (integer?_of_digits? (digits?_ofNat n)).1
    | negSucc n =>
      simp only [ofInt, integer?, digits?_ofNat]
      rfl
  rw [int64?, hinteger, Option.filter_some, if_pos]
  simpa [IsInt64] using h

end Text

namespace Value

variable {operator : Operator} {cap : Nat} {keyed : Bool} {s t d : Text} {v : Value}
  {x : Except Error Value}

/-- A number has none of the letters that a word has. -/
theorem isWord_eq_false_of_int64? {word : Text} {n : Int} (hw : ∃ c ∈ word, c.isLower)
    (h : Text.int64? t = some n) : isWord word t = false := by
  obtain ⟨c, hc, hlower⟩ := hw
  rw [Bool.eq_false_iff]
  intro hword
  have hmap : t.map Char.toLower = word := by simpa [isWord] using hword
  rw [← hmap] at hc
  obtain ⟨d, hd, rfl⟩ := List.mem_map.mp hc
  rcases Text.char_of_integer? (Option.filter_eq_some_iff.mp h).1 d hd with rfl | rfl | hdigit
  · revert hlower
    decide
  · revert hlower
    decide
  · have hrange : 48 ≤ d.toNat ∧ d.toNat ≤ 57 := Char.isDigit_iff_toNat.mp hdigit
    have hself : d.toLower = d := by
      refine dif_neg ?_
      simp only [ge_iff_le, UInt32.le_iff_toNat_le]
      change ¬ (65 ≤ d.toNat ∧ d.toNat ≤ 90)
      omega
    rw [hself, Text.isLower_iff_toNat] at hlower
    omega

theorem words_of_int64? {n : Int} (h : Text.int64? t = some n) :
    isNullWord t = false ∧ boolWord? t = none := by
  have hnull : isWord "null".toList t = false :=
    isWord_eq_false_of_int64? ⟨'n', by decide, by decide⟩ h
  have hundefined : isWord "undefined".toList t = false :=
    isWord_eq_false_of_int64? ⟨'u', by decide, by decide⟩ h
  have htrue : isWord "true".toList t = false :=
    isWord_eq_false_of_int64? ⟨'t', by decide, by decide⟩ h
  have hfalse : isWord "false".toList t = false :=
    isWord_eq_false_of_int64? ⟨'f', by decide, by decide⟩ h
  constructor
  · rw [isNullWord, hnull, hundefined]
    rfl
  · rw [boolWord?, htrue, hfalse]
    rfl

theorem comma_notMem_of_isNullWord (h : isNullWord t) : ',' ∉ t := by
  rcases Bool.or_eq_true_iff.mp h with hw | hw
  · exact comma_notMem_of_isWord (by decide) hw
  · exact comma_notMem_of_isWord (by decide) hw

/-- Another spelling `d` of the text `t`: it is taken for the same, and holds no comma, marker or
word that was not there. -/
structure Respells (keyed : Bool) (t d : Text) : Prop where
  item : ofItemAt keyed d = ofItemAt keyed t
  comma : ',' ∈ d → ',' ∈ t
  marker : pathMarker <:+: d → pathMarker <:+: t
  null : isNullWord d → isNullWord t
  bool : keyed = false → boolWord? d = boolWord? t

theorem respells_refl (keyed : Bool) (t : Text) : Respells keyed t t :=
  ⟨rfl, id, id, id, fun _ => rfl⟩

theorem respells_ofBool {b : Bool} (h : boolWord? t = some b) : Respells false t (ofBool b) := by
  have hword : boolWord? (ofBool b) = some b := by cases b <;> decide
  refine ⟨?_, ?_, ?_, ?_, fun _ => by rw [hword, h]⟩
  · simp [ofItemAt, ofItem, hword, h]
  · intro hcomma
    cases b <;> exact absurd hcomma (by decide)
  · intro hmarker
    have hcaret : '^' ∈ ofBool b := hmarker.subset (by decide)
    cases b <;> exact absurd hcaret (by decide)
  · intro hnull
    cases b <;> exact absurd hnull (by decide)

theorem respells_ofInt {n : Int} (hb : boolWord? t = none) (h : Text.int64? t = some n) :
    Respells false t (Text.ofInt n) := by
  have hnumber := Text.int64?_ofInt (Text.isInt64_of_int64? h)
  obtain ⟨hnull, hbool⟩ := words_of_int64? hnumber
  refine ⟨?_, ?_, ?_, ?_, fun _ => by rw [hbool, hb]⟩
  · simp [ofItemAt, ofItem, hbool, hb, hnumber, h]
  · intro hcomma
    exact absurd (Text.mem_ofInt hcomma) (by decide)
  · intro hmarker
    have hcaret : '^' ∈ Text.ofInt n := hmarker.subset (by decide)
    exact absurd (Text.mem_ofInt hcaret) (by decide)
  · intro hword
    rw [hnull] at hword
    cases hword

/-- An item is displayed in another spelling of its own. -/
theorem respells_display (keyed : Bool) (t : Text) :
    Respells keyed t (ofItemAt keyed t).display := by
  cases keyed with
  | true => exact respells_refl true t
  | false =>
    simp only [ofItemAt, Bool.false_eq_true, if_false, ofItem]
    cases hb : boolWord? t with
    | some b => exact respells_ofBool hb
    | none =>
      cases hi : Text.int64? t with
      | some n => exact respells_ofInt hb hi
      | none => exact respells_refl false t

/-- A list of items in the spelling in which each one is displayed. -/
def respelled (keyed : Bool) (t : Text) : Text :=
  [listSeparator].intercalate ((t.splitOn listSeparator).map fun item =>
    (ofItemAt keyed item).display)

theorem display_list (keyed : Bool) (t : Text) :
    (Value.array ((t.splitOn listSeparator).map (ofItemAt keyed))).display = respelled keyed t := by
  rw [display, displays_eq_map, List.map_map]
  rfl

theorem splitOn_respelled (keyed : Bool) (t : Text) :
    (respelled keyed t).splitOn listSeparator =
      (t.splitOn listSeparator).map fun item => (ofItemAt keyed item).display := by
  refine List.splitOn_intercalate listSeparator ?_ ?_
  · intro d hd
    obtain ⟨item, hitem, rfl⟩ := List.mem_map.mp hd
    exact mt (respells_display keyed item).comma (Text.comma_notMem_of_mem_splitOn hitem)
  · simp [List.splitOn_ne_nil]

theorem comma_mem_respelled_iff : ',' ∈ respelled keyed t ↔ ',' ∈ t := by
  have hlength := congrArg List.length (splitOn_respelled keyed t)
  rw [List.length_map] at hlength
  rw [← not_iff_not, ← Text.length_splitOn_le_one_iff, ← Text.length_splitOn_le_one_iff]
  exact iff_of_eq (congrArg (· ≤ 1) hlength)

theorem items_respelled (keyed : Bool) (t : Text) :
    ((respelled keyed t).splitOn listSeparator).map (ofItemAt keyed) =
      (t.splitOn listSeparator).map (ofItemAt keyed) := by
  rw [splitOn_respelled, List.map_map]
  apply List.map_congr_left
  intro item _
  exact (respells_display keyed item).item

theorem not_marker_respelled (h : ¬ pathMarker <:+: t) : ¬ pathMarker <:+: respelled keyed t := by
  rw [respelled, listSeparator, Text.infix_intercalate_iff (by decide) (by decide)]
  rintro ⟨d, hd, hmarker⟩
  obtain ⟨item, hitem, rfl⟩ := List.mem_map.mp hd
  exact h (((respells_display keyed item).marker hmarker).trans (Text.infix_of_mem_splitOn hitem))

/-- A list with a comma is no word, and without one it is its only item. -/
theorem words_respelled (hn : isNullWord t = false) (hb : keyed = false → boolWord? t = none) :
    isNullWord (respelled keyed t) = false ∧
      (keyed = false → boolWord? (respelled keyed t) = none) := by
  by_cases hc : ',' ∈ t
  · have hcomma : ',' ∈ respelled keyed t := comma_mem_respelled_iff.mpr hc
    refine ⟨?_, fun _ => ?_⟩
    · rw [Bool.eq_false_iff]
      exact fun hword => comma_notMem_of_isNullWord hword hcomma
    · cases hword : boolWord? (respelled keyed t) with
      | none => rfl
      | some b => exact absurd hcomma (comma_notMem_of_boolWord? hword)
  · have hone : respelled keyed t = (ofItemAt keyed t).display := by
      rw [respelled, listSeparator, List.splitOn_eq_singleton hc]
      simp
    have hitem := respells_display keyed t
    rw [hone]
    refine ⟨?_, fun hk => by rw [hitem.bool hk, hb hk]⟩
    rw [Bool.eq_false_iff]
    intro hword
    rw [hitem.null hword] at hn
    cases hn

namespace Typed

/-- Whatever a text is taken for, its display is taken for the same. -/
theorem display (h : Typed operator cap keyed t x) (hx : x = .ok v) :
    Typed operator cap keyed v.display (.ok v) := by
  cases h with
  | null hn =>
    cases hx
    exact .null (by decide)
  | @bool b hk hn hb =>
    cases hx
    have hword : boolWord? (ofBool b) = some b := by cases b <;> decide
    exact .bool hk (by cases b <;> decide) hword
  | @int n hk hn ho hi =>
    cases hx
    have hnumber := Text.int64?_ofInt (Text.isInt64_of_int64? hi)
    exact .int hk (words_of_int64? hnumber).1 ho hnumber
  | list hn hl hb =>
    cases hx
    obtain ⟨hnull, hbool⟩ := words_respelled hn hb
    rw [display_list, ← items_respelled]
    refine .list hnull ?_ hbool
    rw [isList_iff] at hl ⊢
    exact hl.imp_left comma_mem_respelled_iff.mpr
  | text hn hl hb =>
    obtain ⟨-, rfl⟩ := ofText_eq_ok_iff.mp hx
    rw [← hx]
    exact .text hn hl hb

/-- A display holds no marker of a key, unless the text did. -/
theorem not_marker_display (h : Typed operator cap keyed t x) (hx : x = .ok v)
    (hm : ¬ pathMarker <:+: t) : ¬ pathMarker <:+: v.display := by
  cases h with
  | null hn =>
    cases hx
    decide
  | @bool b hk hn hb =>
    cases hx
    cases b <;> decide
  | @int n hk hn ho hi =>
    cases hx
    intro hmarker
    have hcaret : '^' ∈ Text.ofInt n := hmarker.subset (by decide)
    exact absurd (Text.mem_ofInt hcaret) (by decide)
  | list hn hl hb =>
    cases hx
    rw [display_list]
    exact not_marker_respelled hm
  | text hn hl hb =>
    obtain ⟨-, rfl⟩ := ofText_eq_ok_iff.mp hx
    exact hm

theorem classifyInner_eq (h : Typed operator cap true t x) : classifyInner operator cap t = x := by
  cases h with
  | null hn => simp [classifyInner, hn]
  | bool hk hn hb => cases hk
  | int hk hn ho hi => cases hk
  | list hn hl hb =>
    simp [classifyInner, hn, hl, ofItemAt]
  | text hn hl hb => simp [classifyInner, hn, hl]

theorem classifyPlain_eq (h : Typed operator cap false t x) :
    classifyPlain operator cap t = x := by
  cases h with
  | null hn => simp [classifyPlain, hn]
  | bool hk hn hb => simp [classifyPlain, hn, hb]
  | int hk hn ho hi => simp [classifyPlain, hn, (words_of_int64? hi).2, ho, hi]
  | list hn hl hb =>
    -- A list that does not stand against overlaps has a comma, so it is no number.
    have hnumber : (if operator = .overlaps then none else Text.int64? t) = none := by
      split
      · rfl
      · next ho =>
        have hcomma : ',' ∈ t := (isList_iff.mp hl).resolve_right ho
        cases hi : Text.int64? t with
        | none => rfl
        | some n => exact absurd hcomma (Text.comma_notMem_of_int64? hi)
    simp [classifyPlain, hn, hb rfl, hnumber, hl, ofItemAt]
  | text hn hl hb =>
    simp [classifyPlain, hn, hb rfl, hl]

end Typed

/-- The display of a value, read against the same operator, is that value. -/
theorem display_reads_back (operator : Operator) (cap : Nat) (s : Text) (v : Value)
    (h : classify operator cap s = .ok v) : classify operator cap v.display = .ok v := by
  unfold classify at h
  split at h
  · next key inner hcut =>
    obtain ⟨w, hw, rfl⟩ := map_eq_ok_iff.mp h
    have htyped := (typed_classifyInner operator cap inner).display hw
    have hagain : Text.cut? pathMarker (path key w).display = some (key, w.display) := by
      rw [display, List.append_assoc]
      exact Text.cut?_of_cut? (by decide) hcut w.display
    rw [classify, hagain]
    simp [htyped.classifyInner_eq, Except.map]
  · next hcut =>
    have hmarker := (Text.cut?_eq_none_iff (by decide)).mp hcut
    have htyped := typed_classifyPlain operator cap s
    have hagain : Text.cut? pathMarker v.display = none :=
      (Text.cut?_eq_none_iff (by decide)).mpr (htyped.not_marker_display h hmarker)
    rw [classify, hagain]
    exact (htyped.display h).classifyPlain_eq

/-- A list of every kind of item, each spelled otherwise than it is displayed. -/
theorem display_reads_back_list :
    ∃ v, classify .eq 0 "+07,TRUE,null,-0,,x^".toList = .ok v ∧
      v.display = "7,true,null,0,,x^".toList ∧
      classify .eq 0 "7,true,null,0,,x^".toList = .ok v := by
  have h : classify .eq 0 "+07,TRUE,null,-0,,x^".toList = .ok (.array [.int 7, .bool true,
      .text "null".toList, .int 0, .text [], .text "x^".toList]) := rfl
  have hdisplay : (Value.array [.int 7, .bool true, .text "null".toList, .int 0, .text [],
      .text "x^".toList]).display = "7,true,null,0,,x^".toList := rfl
  have hagain := display_reads_back _ _ _ _ h
  rw [hdisplay] at hagain
  exact ⟨_, h, hdisplay, hagain⟩

end Value

end FilterLang
