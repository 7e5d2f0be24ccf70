import FilterLang.Proofs.Scanning
import Mathlib.Data.List.Find
import Mathlib.Data.List.Infix

/-! Which operator a condition is read with. Wherever tokens stand in a text, a longer operator
prevails over every short one, and of the short ones the one that is looked for last. -/
namespace FilterLang

namespace Text

variable {mark s t : Text}

theorem holds_eq_decide (hm : mark ≠ []) : holds mark s = decide (mark <:+: s) := by
  have h : cut? mark s = none ↔ ¬ mark <:+: s := cut?_eq_none_iff hm
  rw [holds]
  cases hc : cut? mark s <;> simp_all

/-- A mark that shares no character with the text in front stands behind it. -/
theorem infix_append_right_iff (hm : mark ≠ []) (h : ∀ c ∈ mark, c ∉ s) :
    mark <:+: s ++ t ↔ mark <:+: t := by
  rw [List.infix_append_iff_ne_nil]
  constructor
  · rintro (hs | ht | ⟨m₁, m₂, hne, -, rfl, hs, -⟩)
    · obtain ⟨c, hc⟩ := List.exists_mem_of_ne_nil _ hm
      exact absurd (hs.subset hc) (h c hc)
    · exact ht
    · obtain ⟨c, hc⟩ := List.exists_mem_of_ne_nil _ hne
      exact absurd (hs.subset hc) (h c (List.mem_append_left _ hc))
  · intro ht
    exact .inr (.inl ht)

/-- A mark that shares no character with the text behind stands in front of it. -/
theorem infix_append_left_iff (hm : mark ≠ []) (h : ∀ c ∈ mark, c ∉ t) :
    mark <:+: s ++ t ↔ mark <:+: s := by
  rw [List.infix_append_iff_ne_nil]
  constructor
  · rintro (hs | ht | ⟨m₁, m₂, -, hne, rfl, -, ht⟩)
    · exact hs
    · obtain ⟨c, hc⟩ := List.exists_mem_of_ne_nil _ hm
      exact absurd (ht.subset hc) (h c hc)
    · obtain ⟨c, hc⟩ := List.exists_mem_of_ne_nil _ hne
      exact absurd (ht.subset hc) (h c (List.mem_append_right _ hc))
  · exact .inl

/-- A text is cut where the first character of the mark stands first, if the mark stands there. -/
theorem cut?_of_head_notMem {c : Char} (h : c ∉ s) :
    cut? (c :: mark) (s ++ (c :: mark ++ t)) = some (s, t) := by
  induction s with
  | nil => simp [cut?]
  | cons d ds ih =>
    obtain ⟨hd, hds⟩ : c ≠ d ∧ c ∉ ds := by simpa using h
    have hp : (c :: mark).isPrefixOf (d :: (ds ++ (c :: mark ++ t))) = false := by
      simp [List.isPrefixOf, hd]
    rw [List.cons_append, cut?, hp, if_neg Bool.false_ne_true, ih hds]
    rfl

end Text

namespace Operator

variable {atom : Text} {op : Operator}

/-- The characters that tokens of conditions are made of. -/
def signs : List Char := ['=', '!', '<', '>']

/-- The condition operators, each before those over which it prevails. -/
def precedence : List Operator := [lte, gte, overlaps, gt, lt, notEq, eq]

theorem token_ne_nil (op : Operator) : op.token ≠ [] := by
  cases op <;> decide

theorem mem_signs_of_mem_token (h : op ∈ conditionOperators) : ∀ c ∈ op.token, c ∈ signs := by
  cases op with
  | like => simp [conditionOperators] at h
  | eq | notEq | lt | lte | gt | gte | overlaps => simp [token, signs]

/-- The whole search. The longer operators are looked for in the order of the families, and only if
there is none the short ones, in the opposite order. -/
theorem findAmong_eq {fs : List Family} (h : ∀ f ∈ fs, ∀ op ∈ f.longer, f.base.token <:+: op.token)
    (found : Option Operator) :
    findAmong atom fs found =
      ((fs.flatMap Family.longer ++ (fs.map Family.base).reverse).find?
        fun op => op.token <:+: atom).or found := by
  -- What was found before stands only if nothing of the families behind it occurs.
  induction fs generalizing found with
  | nil => rfl
  | cons f fs ih =>
    obtain ⟨hf, hfs⟩ := List.forall_mem_cons.mp h
    simp only [List.flatMap_cons, List.map_cons, List.reverse_cons, List.find?_append,
      Option.or_assoc] at ih ⊢
    simp only [findAmong, Text.holds_eq_decide (token_ne_nil _), decide_eq_true_iff]
    by_cases hb : f.base.token <:+: atom
    · rw [if_pos hb]
      cases hl : f.longer.find? fun op => op.token <:+: atom with
      | some op => simp
      | none => simp [ih hfs, hb]
    · have hl : f.longer.find? (fun op => op.token <:+: atom) = none := by
        rw [List.find?_eq_none]
        intro op hop hlonger
        exact hb ((hf op hop).trans (decide_eq_true_iff.mp hlonger))
      simp [ih hfs, hb, hl]

theorem find?_eq_precedence (atom : Text) :
    find? atom = precedence.find? fun op => op.token <:+: atom := by
  have hstarts : ∀ f ∈ families, ∀ op ∈ f.longer, f.base.token <:+: op.token := by
    simp only [families]
    decide
  rw [find?, findAmong_eq hstarts, Option.or_none]
  rfl

theorem infix_of_find? (h : find? atom = some op) : op.token <:+: atom := by
  rw [find?_eq_precedence] at h
  simpa using List.find?_some h

/-- The operator of search text stands in no condition. -/
theorem ne_like_of_find? (h : find? atom = some op) : op ≠ like := by
  have hall : ∀ op ∈ precedence, op ≠ like := by decide
  rw [find?_eq_precedence] at h
  exact hall op (List.mem_of_find?_eq_some h)

/-- Between a field and a value without signs there is no other operator to find. -/
theorem find?_between {field value : Text} (hop : op ∈ conditionOperators)
    (hf : ∀ c ∈ signs, c ∉ field) (hv : ∀ c ∈ signs, c ∉ value) :
    find? (field ++ op.token ++ value) = some op := by
  have hinfix : ∀ o ∈ precedence,
      decide (o.token <:+: field ++ op.token ++ value) = decide (o.token <:+: op.token) := by
    intro o ho
    have hsigns : ∀ c ∈ o.token, c ∈ signs := mem_signs_of_mem_token (by revert o; decide)
    rw [decide_eq_decide, Text.infix_append_left_iff o.token_ne_nil fun c hc => hv c (hsigns c hc),
      Text.infix_append_right_iff o.token_ne_nil fun c hc => hf c (hsigns c hc)]
  have hself : ∀ op ∈ conditionOperators,
      precedence.find? (fun o => o.token <:+: op.token) = some op := by decide
  rw [find?_eq_precedence, ← hself op hop]
  exact List.find?_congr hinfix

end Operator

namespace Condition

variable {text : Text}

theorem operator_of_parse {c : Condition} (h : parse .standard text = .ok c) :
    Operator.find? text = some c.operator := by
  unfold parse at h
  split at h
  · contradiction
  · next hop =>
    split at h
    · contradiction
    · cases h
      exact hop

/-- Once an operator is found the text can be cut there. -/
theorem exists_parse_iff :
    (∃ c, parse .standard text = .ok c) ↔ Operator.find? text ≠ none := by
  constructor
  · rintro ⟨c, hc⟩
    simp [operator_of_parse hc]
  · intro h
    obtain ⟨op, hop⟩ := Option.ne_none_iff_exists'.mp h
    have hcut : Text.cut? op.token text ≠ none := by
      rw [Ne, Text.cut?_eq_none_iff op.token_ne_nil, not_not]
      exact Operator.infix_of_find? hop
    obtain ⟨⟨field, value⟩, hcut⟩ := Option.ne_none_iff_exists'.mp hcut
    exact ⟨⟨field, op, value⟩, by simp [parse, Mode.operator?, hop, hcut]⟩

/-- A plain condition is read as it was written. -/
theorem parse_between {field value : Text} {op : Operator} (hop : op ∈ Operator.conditionOperators)
    (hf : ∀ c ∈ Operator.signs, c ∉ field) (hv : ∀ c ∈ Operator.signs, c ∉ value) :
    parse .standard (field ++ op.token ++ value) = .ok ⟨field, op, value⟩ := by
  have hcut : Text.cut? op.token (field ++ op.token ++ value) = some (field, value) := by
    obtain ⟨c, mark, htoken⟩ := List.exists_cons_of_ne_nil op.token_ne_nil
    have hc : c ∈ Operator.signs := Operator.mem_signs_of_mem_token hop c (by simp [htoken])
    rw [htoken, List.append_assoc]
    exact Text.cut?_of_head_notMem (hf c hc)
  simp only [parse, Mode.operator?, Operator.find?_between hop hf hv, hcut]

end Condition

/-- The operator of a text is the first of a fixed order whose token stands anywhere in it. With one
the text is a condition and is read with it, without one it is none; and a condition whose field and
value hold no signs is read as it was written. -/
theorem operator_found_by_precedence :
    (∀ text, Operator.find? text = Operator.precedence.find? fun op => op.token <:+: text) ∧
    (∀ text, (∃ c, Condition.parse .standard text = .ok c) ↔ Operator.find? text ≠ none) ∧
    (∀ text c, Condition.parse .standard text = .ok c → Operator.find? text = some c.operator) ∧
    ∀ op ∈ Operator.conditionOperators, ∀ field value : Text,
      (∀ c ∈ Operator.signs, c ∉ field) → (∀ c ∈ Operator.signs, c ∉ value) →
      Condition.parse .standard (field ++ op.token ++ value) = .ok ⟨field, op, value⟩ := by
  refine ⟨Operator.find?_eq_precedence, ?_, ?_, ?_⟩
  · intro text
    exact Condition.exists_parse_iff
  · intro text c hc
    exact Condition.operator_of_parse hc
  · intro op hop field value hf hv
    exact Condition.parse_between hop hf hv

/-- Of four operators in one text the longer one prevails, though it stands last; and a condition on
a list is read back with its commas. -/
theorem operator_found_by_precedence_mixed :
    Operator.find? "a==b<c!=d>=e".toList = some .gte ∧
      Condition.parse .standard "tags>>a,b".toList =
        .ok ⟨"tags".toList, .overlaps, "a,b".toList⟩ := by
  obtain ⟨-, -, hoperator, hread⟩ := operator_found_by_precedence
  have hfield : ∀ c ∈ Operator.signs, c ∉ "tags".toList := by simp [Operator.signs]
  have hvalue : ∀ c ∈ Operator.signs, c ∉ "a,b".toList := by simp [Operator.signs]
  refine ⟨?_, hread .overlaps (by decide) _ _ hfield hvalue⟩
  exact hoperator _ ⟨"a==b<c!=d".toList, .gte, "e".toList⟩ (by cbv)

end FilterLang
