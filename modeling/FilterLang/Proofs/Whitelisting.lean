import FilterLang.Proofs.Sanitizing
import FilterLang.Proofs.Typing

/-! The characters of what is passed beside a statement. A text is sanitized once, and then taken
apart, lowered and wrapped; none of that brings back a character that the whitelist keeps out. -/
namespace FilterLang

variable {s : Text} {c d : Char}

namespace Text

/-- Inside a run of capitals the small letters are a fixed number of places away. -/
theorem toNat_of_mem_lowerChar (first last shift : Nat) (hlast : last + shift < 0xD800)
    (hrun : ∃ run ∈ capitals, run.first = first ∧ run.last = last ∧ run.stride = 1)
    (hshift : ∀ run ∈ capitals, run.last < first ∨ last < run.first ∨ run.shift = shift)
    (hne : c ≠ 'İ') (hc : first ≤ c.toNat ∧ c.toNat ≤ last) (hd : d ∈ lowerChar c) :
    d.toNat = c.toNat + shift := by
  rw [lowerChar, if_neg hne] at hd
  cases hfind : capitals.find? (·.holds c.toNat) with
  | none =>
    obtain ⟨run, hmem, rfl, rfl, hstride⟩ := hrun
    have hnot := List.find?_eq_none.mp hfind run hmem
    simp [CaseRun.holds, hc, hstride, Nat.mod_one] at hnot
  | some run =>
    have hreach : run.first ≤ c.toNat ∧ c.toNat ≤ run.last := by
      have hholds := List.find?_some hfind
      simp only [CaseRun.holds, Bool.and_eq_true, decide_eq_true_eq] at hholds
      exact hholds.1
    -- Of whichever run holds the character, the shift is known.
    have hplaces : run.shift = shift := by
      rcases hshift run (List.mem_of_find?_eq_some hfind) with h | h | h
      · omega
      · omega
      · exact h
    rw [hfind] at hd
    obtain rfl := List.mem_singleton.mp hd
    have hplace : (c.toNat + run.shift).toNat = c.toNat + shift := by omega
    have hvalid : (c.toNat + shift).isValidChar := .inl (by omega)
    have hchar : Char.ofNat (c.toNat + shift) = Char.ofNatAux (c.toNat + shift) hvalid :=
      dif_pos hvalid
    rw [hplace, hchar]
    rfl

/-- Where no run of capitals reaches, a character is its own small form. -/
theorem lowerChar_of_gap (first last : Nat)
    (hgap : ∀ run ∈ capitals, run.last < first ∨ last < run.first) (hne : c ≠ 'İ')
    (hc : first ≤ c.toNat ∧ c.toNat ≤ last) : lowerChar c = [c] := by
  have hfind : capitals.find? (·.holds c.toNat) = none := by
    rw [List.find?_eq_none]
    intro run hrun hholds
    simp only [CaseRun.holds, Bool.and_eq_true, decide_eq_true_eq] at hholds
    rcases hgap run hrun with h | h
    · omega
    · omega
  rw [lowerChar, if_neg hne, hfind]

/-- Without a capital sigma, text is lowered character by character. -/
theorem mem_lowerFrom {before : Text} (hsigma : 'Σ' ∉ s) (h : d ∈ lowerFrom before s) :
    ∃ c ∈ s, d ∈ lowerChar c := by
  induction s generalizing before with
  | nil => cases h
  | cons c s ih =>
    obtain ⟨hc, hs⟩ := not_or.mp (mt List.mem_cons.mpr hsigma)
    rw [lowerFrom, if_neg (Ne.symm hc)] at h
    rcases List.mem_append.mp h with h | h
    · exact ⟨c, List.mem_cons_self, h⟩
    · obtain ⟨e, he, hd⟩ := ih hs h
      exact ⟨e, List.mem_cons_of_mem _ he, hd⟩

end Text

namespace Charset

theorem allows_replacement_condition : ∀ d ∈ condition.replacement, condition.allows d := by
  rintro d ⟨⟩

theorem allows_replacement_search : ∀ d ∈ search.replacement, search.allows d := by
  rintro d ⟨⟩
  decide

/-- The capitals among the Cyrillic letters. -/
def isCyrillicCapital (c : Char) : Bool := ('А' ≤ c && c ≤ 'Я') || c == 'Ё'

/-- What a pattern may consist of: search text in small letters, without the other wildcard and
without escapes. -/
structure InPattern (c : Char) : Prop where
  allowed : search.allows c
  not_wildcard : c ≠ '_'
  not_escape : c ≠ '\\'
  not_upper : c.isUpper = false
  not_capital : isCyrillicCapital c = false

theorem isAlphanum_iff_toNat :
    c.isAlphanum ↔ (0x41 ≤ c.toNat ∧ c.toNat ≤ 0x5A) ∨ (0x61 ≤ c.toNat ∧ c.toNat ≤ 0x7A) ∨
      (0x30 ≤ c.toNat ∧ c.toNat ≤ 0x39) := by
  have h : c.isAlphanum = ((c.isUpper || c.isLower) || c.isDigit) := rfl
  rw [h, Bool.or_eq_true, Bool.or_eq_true, Text.isUpper_iff_toNat, Text.isLower_iff_toNat,
    Char.isDigit_iff_toNat, or_assoc]
  rfl

/-- The code points of search text: capitals first, then what lowering leaves alone. -/
theorem search_allows_iff :
    search.allows c ↔
      (0x41 ≤ c.toNat ∧ c.toNat ≤ 0x5A) ∨ (0x410 ≤ c.toNat ∧ c.toNat ≤ 0x42F) ∨
      c.toNat = 0x401 ∨
      (0x30 ≤ c.toNat ∧ c.toNat ≤ 0x39) ∨ (0x61 ≤ c.toNat ∧ c.toNat ≤ 0x7A) ∨
      (0x430 ≤ c.toNat ∧ c.toNat ≤ 0x44F) ∨ c.toNat = 0x451 ∨ c.toNat = 0x20 ∨ c.toNat = 0x25 ∨
      c.toNat = 0x27 ∨ c.toNat = 0x2C ∨ c.toNat = 0x5E := by
  simp only [allows, search, isCyrillic, isAlphanum_iff_toNat, Char.le_def,
    UInt32.le_iff_toNat_le, Char.reduceVal, UInt32.reduceToNat, Char.toNat_val,
    List.contains_eq_mem, List.mem_cons, List.not_mem_nil, or_false, Bool.or_eq_true,
    Bool.and_eq_true, decide_eq_true_eq, beq_iff_eq, ← Char.toNat_inj, Char.reduceToNat]
  omega

theorem inPattern_of_toNat
    (h : (0x30 ≤ c.toNat ∧ c.toNat ≤ 0x39) ∨ (0x61 ≤ c.toNat ∧ c.toNat ≤ 0x7A) ∨
      (0x430 ≤ c.toNat ∧ c.toNat ≤ 0x44F) ∨ c.toNat = 0x451 ∨ c.toNat = 0x20 ∨ c.toNat = 0x25 ∨
      c.toNat = 0x27 ∨ c.toNat = 0x2C ∨ c.toNat = 0x5E) : InPattern c := by
  refine ⟨search_allows_iff.mpr (.inr (.inr (.inr h))), ?_, ?_, ?_, ?_⟩
  · rintro rfl
    revert h
    decide
  · rintro rfl
    revert h
    decide
  · rw [Bool.eq_false_iff, ne_eq, Text.isUpper_iff_toNat]
    omega
  · simp only [isCyrillicCapital, Char.le_def, UInt32.le_iff_toNat_le, Char.reduceVal,
      UInt32.reduceToNat, Char.toNat_val, Bool.or_eq_false_iff, Bool.and_eq_false_imp,
      decide_eq_true_eq, decide_eq_false_iff_not, beq_eq_false_iff_ne, ne_eq, ← Char.toNat_inj,
      Char.reduceToNat]
    omega

/-- Search text in small letters is still search text. -/
theorem inPattern_of_mem_lowerChar (h : search.allows c) (hd : d ∈ Text.lowerChar c) :
    InPattern d := by
  have hne : c ≠ 'İ' := by
    rintro rfl
    revert h
    decide
  rcases search_allows_iff.mp h with hc | hc | hc | hc
  · have hplace := Text.toNat_of_mem_lowerChar 0x41 0x5A 32 (by decide) (by decide +kernel)
      (by decide +kernel) hne hc hd
    exact inPattern_of_toNat (by omega)
  · have hplace := Text.toNat_of_mem_lowerChar 0x410 0x42F 32 (by decide) (by decide +kernel)
      (by decide +kernel) hne hc hd
    exact inPattern_of_toNat (by omega)
  · have hplace := Text.toNat_of_mem_lowerChar 0x400 0x40F 80 (by decide) (by decide +kernel)
      (by decide +kernel) hne (by omega) hd
    exact inPattern_of_toNat (by omega)
  · have hself : Text.lowerChar c = [c] := by
      have hplace : (0 ≤ c.toNat ∧ c.toNat ≤ 0x40) ∨ (0x5B ≤ c.toNat ∧ c.toNat ≤ 0xBF) ∨
          (0x430 ≤ c.toNat ∧ c.toNat ≤ 0x45F) := by omega
      rcases hplace with hplace | hplace | hplace
      · exact Text.lowerChar_of_gap 0 0x40 (by decide +kernel) hne hplace
      · exact Text.lowerChar_of_gap 0x5B 0xBF (by decide +kernel) hne hplace
      · exact Text.lowerChar_of_gap 0x430 0x45F (by decide +kernel) hne hplace
    rw [hself] at hd
    obtain rfl := List.mem_singleton.mp hd
    exact inPattern_of_toNat hc

theorem inPattern_of_mem_lower (h : ∀ c ∈ s, search.allows c) (hd : d ∈ s.lower) :
    InPattern d := by
  have hsigma : 'Σ' ∉ s := by
    intro hs
    exact absurd (h 'Σ' hs) (by decide)
  obtain ⟨c, hc, hd⟩ := Text.mem_lowerFrom hsigma hd
  exact inPattern_of_mem_lowerChar (h c hc) hd

end Charset

namespace Value

variable {T : Text → Prop} {v : Value}

/-- What is bound is made of texts of the given kind only. -/
theorem BoundOf.of_mem_texts (h : v.BoundOf T) {t : Text} (ht : t ∈ v.texts) : T t := by
  have hscalar : ∀ w : Value, w.ScalarOf T → t ∈ w.texts → T t := by
    intro w hw ht
    cases w with
    | null | bool _ | int _ => simp [texts] at ht
    | text s =>
      obtain rfl : t = s := by simpa [texts] using ht
      exact hw
    | array _ | path _ _ => exact hw.elim
  rcases h with h | ⟨items, rfl, h⟩
  · exact hscalar v h ht
  · simp only [texts, textsAll_eq_flatMap, List.mem_flatMap] at ht
    obtain ⟨item, hitem, ht⟩ := ht
    exact hscalar item (h item hitem) ht

theorem behindKey_infix (s : Text) : behindKey s <:+: s := by
  unfold behindKey
  cases hcut : Text.cut? pathMarker s with
  | none => exact List.infix_rfl
  | some parts => exact (Text.infix_of_cut? hcut).2

end Value

namespace Sql

open Node

variable {quote : Quoting} {settings : Settings} {r : Resolver} {q : Query}
  {target filter search : Text} {withCount : Bool} {mode : Mode} {nodes : List (Node Condition)}
  {clause : Clause} {v : Value}

/-- The values passed beside a statement are those of the search, then those of the conditions. -/
theorem exists_clauses_of_compile
    (h : compile quote settings r ⟨target, filter, search, withCount, true⟩ = .ok q) :
    ∃ f searched nodes searchClause ownClause, Filter.split filter = .ok f ∧
      Block.parse .search search = .ok searched ∧ Block.parse .standard f.conditions = .ok nodes ∧
      Clause.ofNodes settings r .search searched = .ok searchClause ∧
      Clause.ofNodes settings r .standard nodes = .ok ownClause ∧
      q.args =
        some ((Clause.template searchClause).slots ++ (Clause.template ownClause).slots) := by
  rw [compile_eq_map_plan] at h
  obtain ⟨plan, hplan, rfl⟩ := map_eq_ok_iff.mp h
  obtain ⟨-, -, f, select, clause, restriction, hf, -, hblocks, -, rfl⟩ := plan_eq_ok_iff.mp hplan
  obtain ⟨searched, nodes, searchClause, ownClause, hsn, hn, hsc, hc, rfl⟩ :=
    Clause.ofBlocks_eq_ok_iff.mp hblocks
  refine ⟨f, searched, nodes, searchClause, ownClause, Filter.split_eq_ok_iff.mpr hf, hsn, hn, hsc,
    hc, ?_⟩
  simp [Plan.query, Plan.whereClause, BindMode.ofFlag, Template.render_placeholder,
    Clause.slots_whereTemplate, Clause.slots_join]

theorem args_compileNodes (quote : Quoting) (h : Clause.ofNodes settings r mode nodes = .ok clause)
    (used : UInt64) :
    ∃ x, compileNodes quote settings r mode .placeholder used nodes = .ok x ∧
      x.args = (Clause.template clause).slots := by
  rw [compileNodes_eq]
  exact ⟨_, map_eq_ok_iff.mpr ⟨clause, h, rfl⟩, by rw [Template.render_placeholder]⟩

/-- A value belongs to a predicate, and that to a condition of the block. -/
theorem Clause.exists_of_mem_slots (h : ofNodes settings r mode nodes = .ok clause)
    (hv : v ∈ (template clause).slots) :
    ∃ c p, Predicate.of settings r mode c = .ok p ∧ v ∈ p.template.slots := by
  rw [slots_template] at hv
  obtain ⟨p, hp, hv⟩ := List.mem_flatMap.mp hv
  obtain ⟨c, -, hc⟩ := exists_of_mem_leavesAll h hp
  exact ⟨c, p, hc, hv⟩

/-- The text that a condition passes is made of what its whitelist allows. -/
theorem allows_of_condition (settings : Settings) {t : Text} {ch : Char}
    (hr : ∀ d ∈ settings.conditionCharset.replacement, settings.conditionCharset.allows d)
    (h : Clause.ofNodes settings r .standard nodes = .ok clause)
    (hv : v ∈ (Clause.template clause).slots) (ht : t ∈ v.texts) (hch : ch ∈ t) :
    settings.conditionCharset.allows ch := by
  obtain ⟨c, p, hp, hv⟩ := Clause.exists_of_mem_slots h hv
  have hof : p.Of (fun _ => True) fun t => ∀ ch ∈ t, settings.conditionCharset.allows ch := by
    refine Predicate.of_ofCondition (fun _ _ _ => trivial) ?_ hp
    intro piece hpiece ch hch
    exact Charset.allows_of_mem_sanitize hr (hpiece.subset hch)
  exact (hof.boundOf_slots v hv).of_mem_texts ht ch hch

theorem pattern_of_search (hs : settings.searchCharset = .search)
    (h : Clause.ofNodes settings r .search nodes = .ok clause)
    (hv : v ∈ (Clause.template clause).slots) :
    ∃ s, v = .text ('%' :: s ++ ['%']) ∧ ∀ c ∈ '%' :: s ++ ['%'], Charset.InPattern c := by
  obtain ⟨c, p, hp, hv⟩ := Clause.exists_of_mem_slots h hv
  have hslots := Predicate.slots_ofSearch (e := ⟨[], [], c.value, false, none⟩) rfl hp
  rw [hslots] at hv
  obtain rfl := List.mem_singleton.mp hv
  refine ⟨(Value.behindKey (settings.searchCharset.sanitize c.value)).lower, rfl, ?_⟩
  have hwildcard : Charset.InPattern '%' := Charset.inPattern_of_toNat (by decide)
  have hallowed : ∀ d ∈ Value.behindKey (settings.searchCharset.sanitize c.value),
      Charset.search.allows d := by
    intro d hd
    rw [hs] at hd
    exact Charset.allows_of_mem_sanitize Charset.allows_replacement_search
      ((Value.behindKey_infix _).subset hd)
  intro d hd
  rcases List.mem_append.mp hd with hd | hd
  · rcases List.mem_cons.mp hd with rfl | hd
    · exact hwildcard
    · exact Charset.inPattern_of_mem_lower hallowed hd
  · obtain rfl := List.mem_singleton.mp hd
    exact hwildcard

/-- Under the standard settings a condition passes nothing but characters of its whitelist. A search
passes patterns between wildcards, made of search text in small letters: there is no other wildcard
in them, and no escape. -/
theorem passed_text_is_whitelisted (quote : Quoting) (r : Resolver) (target filter search : Text)
    (withCount : Bool) (q : Query)
    (h : compile quote .standard r ⟨target, filter, search, withCount, true⟩ = .ok q) :
    ∃ f searched nodes found own, Filter.split filter = .ok f ∧
      Block.parse .search search = .ok searched ∧ Block.parse .standard f.conditions = .ok nodes ∧
      compileNodes quote .standard r .search .placeholder 0 searched = .ok found ∧
      compileNodes quote .standard r .standard .placeholder (.ofNat found.args.length) nodes =
        .ok own ∧
      q.args = some (found.args ++ own.args) ∧
      (∀ v ∈ own.args, ∀ t ∈ v.texts, ∀ c ∈ t, Charset.condition.allows c) ∧
      ∀ v ∈ found.args, ∃ s, v = .text ('%' :: s ++ ['%']) ∧
        ∀ c ∈ '%' :: s ++ ['%'], Charset.InPattern c := by
  obtain ⟨f, searched, nodes, searchClause, ownClause, hf, hsn, hn, hsc, hc, hargs⟩ :=
    exists_clauses_of_compile h
  obtain ⟨found, hfound, hfoundArgs⟩ := args_compileNodes quote hsc 0
  obtain ⟨own, hown, hownArgs⟩ := args_compileNodes quote hc (.ofNat found.args.length)
  refine ⟨f, searched, nodes, found, own, hf, hsn, hn, hfound, hown, ?_, ?_, ?_⟩
  · rw [hargs, hfoundArgs, hownArgs]
  · intro v hv t ht c hch
    rw [hownArgs] at hv
    exact allows_of_condition .standard Charset.allows_replacement_condition hc hv ht hch
  · intro v hv
    rw [hfoundArgs] at hv
    exact pattern_of_search rfl hsc hv

/-- Capitals and underscores, a blank in the search, and signs that no condition may have. -/
theorem passed_text_is_whitelisted_signs :
    ∃ q, compile .postgres .standard ⟨some, [], []⟩ ⟨"t".toList, "?a==K;^^x\"y,Ё_?".toList,
        "e~~50_OFF Ж".toList, false, true⟩ = .ok q ∧
      q.args = some [.text "%50%off%ж%".toList, .array [.text "xy".toList, .text "Ё_".toList]] ∧
      (∀ c ∈ "Ё_".toList, Charset.condition.allows c) ∧
      ∀ c ∈ "%50%off%ж%".toList, Charset.InPattern c := by
  have hparse : Filter.parse "?a==K;^^x\"y,Ё_?".toList =
      .ok ⟨[], "a==K;^^x\"y,Ё_".toList, []⟩ := by cbv
  have hsearch : Block.parse .search "e~~50_OFF Ж".toList =
      .ok [.leaf ⟨"e".toList, .like, "50_OFF%Ж".toList⟩ none] := by cbv
  have hnodes : Block.parse .standard "a==K;^^x\"y,Ё_".toList =
      .ok [.leaf ⟨"a".toList, .eq, "K;^^x\"y,Ё_".toList⟩ none] := by cbv
  have hfound : Clause.ofNodes .standard ⟨some, [], []⟩ .search
      [.leaf ⟨"e".toList, .like, "50_OFF%Ж".toList⟩ none] =
        .ok [.leaf (.like (.column "e".toList) "%50%off%ж%".toList) none] := rfl
  have hown : Clause.ofNodes .standard ⟨some, [], []⟩ .standard
      [.leaf ⟨"a".toList, .eq, "K;^^x\"y,Ё_".toList⟩ none] =
        .ok [.leaf (.anyOf (.member "a".toList "K".toList)
          [.text "xy".toList, .text "Ё_".toList]) none] := rfl
  obtain ⟨q, hq⟩ : ∃ q, compile .postgres .standard ⟨some, [], []⟩ ⟨"t".toList,
      "?a==K;^^x\"y,Ё_?".toList, "e~~50_OFF Ж".toList, false, true⟩ = .ok q := by
    rw [compile_eq_map_plan]
    have hblocks := Clause.ofBlocks_eq_ok_iff.mpr ⟨_, _, _, _, hsearch, hnodes, hfound, hown, rfl⟩
    exact ⟨_, map_eq_ok_iff.mpr ⟨_, plan_eq_ok_iff.mpr
      ⟨by decide, by decide, _, _, _, _, hparse, by cbv, hblocks, by cbv, rfl⟩, rfl⟩⟩
  obtain ⟨f, searched, nodes, found, own, hf, hsn, hn, hx, hy, hargs, hconditions, hpatterns⟩ :=
    passed_text_is_whitelisted _ _ _ _ _ _ _ hq
  obtain rfl := Except.ok.inj (hparse.symm.trans (Filter.split_eq_ok_iff.mp hf))
  obtain rfl := Except.ok.inj (hsearch.symm.trans hsn)
  obtain rfl := Except.ok.inj (hnodes.symm.trans hn)
  rw [compileNodes_eq, hfound] at hx
  cases hx
  rw [compileNodes_eq, hown] at hy
  cases hy
  obtain ⟨s, hs, hpattern⟩ := hpatterns (.text "%50%off%ж%".toList) List.mem_cons_self
  obtain hs : "%50%off%ж%".toList = '%' :: s ++ ['%'] := by simpa using hs
  refine ⟨q, hq, hargs, hconditions _ List.mem_cons_self "Ё_".toList ?_, hs ▸ hpattern⟩
  simp [Value.texts]

end Sql

end FilterLang
