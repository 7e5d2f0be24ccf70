import FilterLang.Proofs.Spots

/-! A listing as a transcript of its block. All that gets lost is the parentheses, and for these
each entry says whether it stood between them. -/
namespace FilterLang

variable {s t : Text} {mode : Mode} {c : Condition}

namespace Text

def isParenthesis (c : Char) : Bool := c == '(' || c == ')'

/-- The text without its parentheses. -/
def bare (s : Text) : Text := s.filter (!isParenthesis ·)

/-- The parentheses of a text, in their order. -/
def parentheses (s : Text) : Text := s.filter isParenthesis

/-- What stands between the two texts stands between parentheses: the last one before it opens, and
the first one after it closes. -/
def Encloses (before after : Text) : Prop :=
  before.parentheses.getLast? = some '(' ∧ after.parentheses.head? = some ')'

@[simp] theorem bare_append (s t : Text) : bare (s ++ t) = s.bare ++ t.bare :=
  List.filter_append s t

@[simp] theorem parentheses_append (s t : Text) :
    parentheses (s ++ t) = s.parentheses ++ t.parentheses :=
  List.filter_append s t

@[simp] theorem bare_opening (s : Text) : bare ('(' :: s) = s.bare := rfl

@[simp] theorem bare_closing (s : Text) : bare (')' :: s) = s.bare := rfl

@[simp] theorem parentheses_opening (s : Text) : parentheses ('(' :: s) = '(' :: s.parentheses :=
  rfl

@[simp] theorem parentheses_closing (s : Text) : parentheses (')' :: s) = ')' :: s.parentheses :=
  rfl

/-- No character of the text is a parenthesis. -/
def Plain (s : Text) : Prop := '(' ∉ s ∧ ')' ∉ s

theorem Plain.append (hs : s.Plain) (ht : t.Plain) : Plain (s ++ t) := by
  simp [Plain, hs.1, hs.2, ht.1, ht.2]

theorem Plain.not_isParenthesis (h : s.Plain) : ∀ c ∈ s, isParenthesis c = false := by
  intro c hc
  by_contra hp
  rcases Bool.or_eq_true_iff.mp (Bool.of_not_eq_false hp) with hp | hp
  · exact h.1 (beq_iff_eq.mp hp ▸ hc)
  · exact h.2 (beq_iff_eq.mp hp ▸ hc)

theorem Plain.bare_eq (h : s.Plain) : s.bare = s := by
  simpa [bare, List.filter_eq_self] using h.not_isParenthesis

theorem Plain.parentheses_eq (h : s.Plain) : s.parentheses = [] := by
  simpa [parentheses, List.filter_eq_nil_iff] using h.not_isParenthesis

end Text

namespace Connector

theorem plain_text (k : Option Connector) : (text k).Plain := by
  obtain _ | _ | _ := k <;> simp [Text.Plain, text, token]

/-- The last connector of a level makes way for what joins the level to others. -/
theorem Linked.extend {ks rest : List (Option Connector)} {k l : Option Connector}
    (h : Linked (ks ++ [l])) (hr : Linked (k :: rest)) : Linked (ks ++ k :: rest) := by
  induction ks with
  | nil => exact hr
  | cons x ks ih =>
    obtain ⟨hx, hks⟩ := linked_cons_iff.mp h
    exact linked_cons_iff.mpr ⟨by simpa using hx, ih hks⟩

end Connector

/-- The text of an entry with what joins it to the next. -/
def Entry.print (e : Entry) : Text := e.text ++ Connector.text e.separator

/-- The entries give the block again, but for its parentheses. Every entry but the last has a
separator, and those that stood between parentheses say so. -/
structure Entry.Transcribe (es : List Entry) (block : Text) : Prop where
  text : es.flatMap Entry.print = block.bare
  links : Connector.Linked (es.map Entry.separator)
  enclosed : ∀ first e later, es = first ++ e :: later →
    ∃ before after, block = before ++ e.text ++ after ∧
      before.bare = first.flatMap Entry.print ∧
      (e.inGroup = true ↔ Text.Encloses before after)

namespace Node

open Occurrence

variable {ns children : List (Node Condition)} {k : Option Connector}
  {P : Condition → Option Connector → Prop}

/-- The text that listed conditions make up. -/
def printed (os : List Occurrence) : Text := (os.map entry).flatMap Entry.print

theorem printed_append (os ps : List Occurrence) :
    printed (os ++ ps) = printed os ++ printed ps := by
  simp [printed]

theorem printed_singleton (o : Occurrence) :
    printed [o] = o.condition.print ++ Connector.text o.separator := by
  simp [printed, entry, Entry.print, Entry.text, Condition.print]

theorem plain_leaf (h : UnitOf (Condition.Stands mode) (leaf c k)) : (leaf c k).print.Plain :=
  Text.Plain.append ⟨h.noOpening, h.noClosing⟩ (Connector.plain_text k)

/-- The conditions of a group, each with its own connector, are all that is in it. -/
theorem map_leaf_filterMap (h : ∀ n ∈ children, LeafOf P n) :
    (children.filterMap ofChild?).map (fun o => leaf o.condition o.separator) = children := by
  induction children with
  | nil => rfl
  | cons n children ih =>
    obtain ⟨hn, hrest⟩ := List.forall_mem_cons.mp h
    cases n with
    | group cs l => exact hn.elim
    | leaf c l =>
      rw [List.filterMap_cons_some (by rfl : ofChild? (leaf c l) = some ⟨c, true, l⟩), List.map_cons,
        ih hrest]

theorem printed_leaves (h : ∀ n ∈ children, LeafOf P n) :
    printed (children.filterMap ofChild?) = printAll children := by
  nth_rewrite 2 [← map_leaf_filterMap h]
  rw [printAll_eq_flatten, printed, List.flatMap_def, List.map_map, List.map_map]
  rfl

theorem separators_leaves (h : ∀ n ∈ children, LeafOf P n) :
    (children.filterMap ofChild?).map separator = children.map connector := by
  nth_rewrite 2 [← map_leaf_filterMap h]
  rw [List.map_map]
  rfl

/-- The connector of a group is listed with its last condition, which has none of its own. -/
theorem ofNode_group (h : UnitOf P (group children k)) :
    ∃ init c, children = init ++ [leaf c none] ∧ (∀ n ∈ init, LeafOf P n) ∧
      ofNode (group children k) = init.filterMap ofChild? ++ [⟨c, true, k⟩] := by
  obtain ⟨hne, hlevel⟩ := h
  obtain ⟨init, n, rfl⟩ := (children.eq_nil_or_concat').resolve_left hne
  have hnone : n.connector = none := hlevel.connector_last
  cases n with
  | group cs l => exact (hlevel.2 (group cs l) (by simp)).elim
  | leaf c l =>
    obtain rfl : l = none := hnone
    refine ⟨init, c, rfl, fun n hn => hlevel.2 n (List.mem_append_left _ hn), ?_⟩
    change (relink k (init ++ [leaf c none])).filterMap ofChild? = _
    rw [relink_concat, List.filterMap_append]
    rfl

/-- What is listed from units makes up their text without its parentheses. -/
theorem printed_ofNodes (h : ∀ n ∈ ns, UnitOf (Condition.Stands mode) n) :
    printed (ofNodes ns) = (printAll ns).bare := by
  induction ns with
  | nil => rfl
  | cons n ns ih =>
    obtain ⟨hn, hrest⟩ := List.forall_mem_cons.mp h
    have hunit : printed (ofNode n) = n.print.bare := by
      cases n with
      | leaf c k =>
        rw [(plain_leaf hn).bare_eq]
        exact printed_singleton ⟨c, false, k⟩
      | group children k =>
        have hplain : (printAll children).Plain := parenthesis_notMem_leaves hn.2.2
        obtain ⟨init, c, rfl, hinit, hlisted⟩ := ofNode_group hn
        calc printed (ofNode (group (init ++ [leaf c none]) k))
          _ = printAll init ++ (c.print ++ Connector.text k) := by
            rw [hlisted, printed_append, printed_leaves hinit, printed_singleton]
          _ = printAll (init ++ [leaf c none]) ++ Connector.text k := by
            simp [printAll_append, printAll, print, Connector.text]
          _ = (group (init ++ [leaf c none]) k).print.bare := by
            rw [print, List.cons_append, Text.bare_opening, Text.bare_append, Text.bare_closing,
              hplain.bare_eq, (Connector.plain_text k).bare_eq]
    rw [ofNodes_cons, printed_append, hunit, ih hrest, printAll, Text.bare_append]

/-- Of the conditions listed from a tree, all but the last have a separator. -/
theorem linked_ofNodes (h : Shaped ns) : Connector.Linked ((ofNodes ns).map separator) := by
  induction ns with
  | nil => trivial
  | cons n ns ih =>
    obtain ⟨hn, hk, hns⟩ := level_cons_iff.mp h
    have hnil : (ofNodes ns).map separator = [] ↔ ns = [] := by
      rw [List.map_eq_nil_iff, ← List.map_eq_nil_iff (f := said), map_said_ofNodes,
        saidAll_eq_nil_iff hns]
    have hjoined : Connector.Linked (n.connector :: (ofNodes ns).map separator) :=
      Connector.linked_cons_iff.mpr ⟨hk.trans hnil.symm, ih hns⟩
    rw [ofNodes_cons, List.map_append]
    cases n with
    | leaf c k => exact hjoined
    | group children k =>
      obtain ⟨init, c, rfl, hinit, hlisted⟩ := ofNode_group hn
      have hlevel : Connector.Linked (init.map connector ++ [none]) := by
        simpa [connector] using hn.2.1
      rw [hlisted, List.map_append, separators_leaves hinit, List.append_assoc]
      exact hlevel.extend hjoined

/-- Behind a unit the first parenthesis, if there is one, opens a group. -/
theorem head?_parentheses_ne (h : ∀ n ∈ ns, UnitOf (Condition.Stands mode) n) :
    (printAll ns).parentheses.head? ≠ some ')' := by
  induction ns with
  | nil => simp [printAll, Text.parentheses]
  | cons n ns ih =>
    obtain ⟨hn, hrest⟩ := List.forall_mem_cons.mp h
    cases n with
    | group children k => simp [printAll, print]
    | leaf c k =>
      rw [printAll, Text.parentheses_append, (plain_leaf hn).parentheses_eq]
      exact ih hrest

namespace Spot

variable {spot : Spot}

theorem inside_leaves {outer inside : Gap} (h : Canonical mode ((inner outer inside).fill c)) :
    ∀ n ∈ inside.fill (leaf c), LeafOf (Condition.Stands mode) n := by
  obtain ⟨-, -, hleaf⟩ :
      UnitOf (Condition.Stands mode) (group (inside.fill (leaf c)) outer.link) :=
    h.2 _ (by simp [fill, Gap.fill])
  exact hleaf

/-- What is listed before a spot makes up the text before it. -/
theorem bare_front (h : Canonical mode (spot.fill c)) : spot.front.bare = printed spot.earlier := by
  cases spot with
  | top g => exact (printed_ofNodes fun n hn => h.2 n (List.mem_append_left _ hn)).symm
  | inner outer inside =>
    have hout : printed (ofNodes outer.before) = outer.front.bare :=
      printed_ofNodes fun n hn => h.2 n (List.mem_append_left _ hn)
    have hin : ∀ n ∈ inside.before, LeafOf (Condition.Stands mode) n :=
      fun n hn => inside_leaves h n (List.mem_append_left _ hn)
    have hplain : inside.front.Plain := parenthesis_notMem_leaves hin
    rw [earlier, printed_append, hout, printed_leaves hin, front, Text.bare_append,
      Text.bare_opening, hplain.bare_eq]
    rfl

/-- A spot is in a group exactly if parentheses stand around it. -/
theorem grouped_iff_encloses (h : Canonical mode (spot.fill c)) :
    spot.grouped = true ↔ Text.Encloses spot.front spot.back := by
  cases spot with
  | top g =>
    refine iff_of_false (by simp [grouped]) ?_
    rintro ⟨-, hclose⟩
    have hafter : ∀ n ∈ g.after, UnitOf (Condition.Stands mode) n :=
      fun n hn => h.2 n (by simp [fill, Gap.fill, hn])
    rw [back, Gap.back, Text.parentheses_append, (Connector.plain_text _).parentheses_eq] at hclose
    exact head?_parentheses_ne hafter hclose
  | inner outer inside =>
    refine iff_of_true rfl ⟨?_, ?_⟩
    · have hplain : inside.front.Plain := parenthesis_notMem_leaves fun n hn =>
        inside_leaves h n (List.mem_append_left _ hn)
      simp [front, hplain.parentheses_eq]
    · have hplain : inside.back.Plain := (Connector.plain_text _).append
        (parenthesis_notMem_leaves fun n hn => inside_leaves h n (by simp [Gap.fill, hn]))
      simp [back, hplain.parentheses_eq]

end Spot

/-- What is listed from a tree is a transcript of its text. -/
theorem transcribe_ofNodes (h : Canonical mode ns) :
    Entry.Transcribe ((ofNodes ns).map entry) (printAll ns) := by
  refine ⟨printed_ofNodes h.2, ?_, ?_⟩
  · rw [List.map_map]
    exact linked_ofNodes (canonical_iff.mp h).1
  · intro first e later hes
    obtain ⟨fs, rest, hlisted, rfl, hrest⟩ := List.map_eq_append_iff.mp hes
    obtain ⟨o, ls, rfl, rfl, rfl⟩ := List.map_eq_cons_iff.mp hrest
    obtain ⟨spot, rfl, rfl, hgrouped⟩ := exists_spot hlisted
    refine ⟨spot.front, spot.back, spot.printAll_fill _, Spot.bare_front h, ?_⟩
    rw [← Spot.grouped_iff_encloses h, hgrouped]
    rfl

end Node

open Node Occurrence

/-- The second entry says what the first does, with the column in place of the field and the SQL
spelling in place of the token. -/
def Entry.ResolvesTo (r : Resolver) (e resolved : Entry) : Prop :=
  ∃ column operator, r.resolve e.field = some column ∧ e.operator = Operator.token operator ∧
    resolved = { e with field := column, operator := operator.sql }

namespace Occurrence

variable {r : Resolver} {o : Occurrence}

theorem resolve_eq_ok_iff {e : Entry} : o.resolve r = .ok e ↔ o.entry.ResolvesTo r e := by
  unfold resolve Resolver.column
  cases hr : r.resolve o.condition.field with
  | none =>
    refine iff_of_false (by simp [bind, Except.bind]) ?_
    rintro ⟨column, operator, hc, -⟩
    simp [entry, hr] at hc
  | some column =>
    constructor
    · intro h
      cases h
      exact ⟨column, o.condition.operator, hr, rfl, rfl⟩
    · rintro ⟨column', operator, hc, ho, rfl⟩
      obtain rfl : column = column' := Option.some.inj (hr.symm.trans hc)
      obtain rfl : o.condition.operator = operator := Operator.token_injective ho
      rfl

theorem exists_resolve_iff :
    (∃ e, o.resolve r = .ok e) ↔ (r.resolve o.condition.field).isSome := by
  unfold resolve Resolver.column
  cases r.resolve o.condition.field <;> simp [bind, Except.bind, pure, Except.pure]

theorem resolve_eq_error (h : r.resolve o.condition.field = none) :
    o.resolve r = .error (.unknownField .condition o.condition.field) := by
  simp [resolve, Resolver.column, h, bind, Except.bind]

end Occurrence

namespace Reading

variable {r : Resolver} {filter : Text} {es : List Entry}

theorem conditions_eq_ok_iff :
    conditions filter = .ok es ↔ ∃ os, occurrences filter = .ok os ∧ os.map entry = es := by
  unfold conditions
  cases occurrences filter <;> simp [bind, Except.bind, pure, Except.pure]

theorem resolvedConditions_eq {os : List Occurrence} (h : occurrences filter = .ok os) :
    resolvedConditions r filter = os.mapM (Occurrence.resolve r) := by
  simp [resolvedConditions, h, bind, Except.bind]

/-- Columns can be listed exactly where every listed field has one. -/
theorem exists_resolvedConditions_iff :
    (∃ resolved, resolvedConditions r filter = .ok resolved) ↔
      ∃ es, conditions filter = .ok es ∧ ∀ e ∈ es, (r.resolve e.field).isSome := by
  simp only [conditions_eq_ok_iff]
  cases hos : occurrences filter with
  | error err => simp [resolvedConditions, hos, bind, Except.bind]
  | ok os =>
    simp only [resolvedConditions_eq hos, exists_mapM_eq_ok_iff, exists_resolve_iff]
    simp [entry]

theorem forall₂_resolvedConditions {resolved : List Entry} (hes : conditions filter = .ok es)
    (h : resolvedConditions r filter = .ok resolved) :
    List.Forall₂ (Entry.ResolvesTo r) es resolved := by
  obtain ⟨os, hos, rfl⟩ := conditions_eq_ok_iff.mp hes
  rw [resolvedConditions_eq hos, mapM_eq_ok_iff_forall₂] at h
  rw [List.forall₂_map_left_iff]
  exact h.imp fun _ _ => resolve_eq_ok_iff.mp

/-- The first field without a column is the one that is reported. -/
theorem resolvedConditions_eq_error {first later : List Entry} {e : Entry}
    (h : conditions filter = .ok (first ++ e :: later))
    (hfirst : ∀ x ∈ first, (r.resolve x.field).isSome) (he : r.resolve e.field = none) :
    resolvedConditions r filter = .error (.unknownField .condition e.field) := by
  obtain ⟨os, hos, hes⟩ := conditions_eq_ok_iff.mp h
  obtain ⟨fs, rest, rfl, rfl, hrest⟩ := List.map_eq_append_iff.mp hes
  obtain ⟨o, ls, rfl, rfl, rfl⟩ := List.map_eq_cons_iff.mp hrest
  rw [resolvedConditions_eq hos]
  refine mapM_eq_error_iff.mpr ⟨fs, o, ls, rfl, ?_, resolve_eq_error he⟩
  intro x hx
  exact exists_resolve_iff.mpr (hfirst x.entry (List.mem_map_of_mem hx))

end Reading

/-- A listing keeps all of its block but the parentheses, and so does one of a search text. Listed
with columns it is the same, entry by entry, provided that each field has a column; else the first
field without one is reported. -/
theorem listing_transcribes_block :
    (∀ filter es, Reading.conditions filter = .ok es →
      ∃ f, Filter.split filter = .ok f ∧ Entry.Transcribe es f.conditions.unblank) ∧
    (∀ search es, search ≠ [] → Reading.searchConditions search = .ok es →
      Entry.Transcribe es (Mode.search.normalize search)) ∧
    ∀ r filter,
      ((∃ resolved, Reading.resolvedConditions r filter = .ok resolved) ↔
        ∃ es, Reading.conditions filter = .ok es ∧ ∀ e ∈ es, (r.resolve e.field).isSome) ∧
      (∀ es resolved, Reading.conditions filter = .ok es →
        Reading.resolvedConditions r filter = .ok resolved →
        List.Forall₂ (Entry.ResolvesTo r) es resolved) ∧
      ∀ first e later, Reading.conditions filter = .ok (first ++ e :: later) →
        (∀ x ∈ first, (r.resolve x.field).isSome) → r.resolve e.field = none →
        Reading.resolvedConditions r filter = .error (.unknownField .condition e.field) := by
  refine ⟨?_, ?_, ?_⟩
  · intro filter es h
    obtain ⟨os, hos, -⟩ := Reading.conditions_eq_ok_iff.mp h
    obtain ⟨f, hf, hos⟩ := bind_eq_ok_iff.mp hos
    obtain ⟨ns, hn, -⟩ := bind_eq_ok_iff.mp hos
    obtain rfl := Except.ok.inj ((Reading.conditions_eq_ok hf hn).symm.trans h)
    obtain ⟨hprint, hcan⟩ := Block.parse_eq_ok_iff.mp hn
    have hblock : printAll ns = f.conditions.unblank := hprint
    exact ⟨f, Filter.split_eq_ok_iff.mpr hf, hblock ▸ transcribe_ofNodes hcan⟩
  · intro search es hne h
    simp only [Reading.searchConditions, List.isEmpty_iff, hne, if_false] at h
    obtain ⟨-, -, h⟩ := bind_eq_ok_iff.mp h
    obtain ⟨ns, hn, h⟩ := bind_eq_ok_iff.mp h
    cases h
    obtain ⟨hprint, hcan⟩ := Block.parse_eq_ok_iff.mp hn
    exact hprint ▸ transcribe_ofNodes hcan
  · intro r filter
    exact ⟨Reading.exists_resolvedConditions_iff, fun _ _ => Reading.forall₂_resolvedConditions,
      fun _ _ _ => Reading.resolvedConditions_eq_error⟩

/-- A group before a single condition, a search with a blank in it, and a field without a column
between two that have one. -/
theorem listing_transcribes_block_grouped :
    Entry.Transcribe [⟨"a".toList, "==".toList, "1".toList, true, some .or⟩,
        ⟨"b".toList, "!=".toList, "2".toList, true, some .and⟩,
        ⟨"a".toList, "<".toList, "3".toList, false, none⟩] "(a==1||b!=2)*a<3".toList ∧
      Entry.Transcribe [⟨"a".toList, "~~".toList, "x%y".toList, false, some .or⟩,
        ⟨"b".toList, "~~".toList, "z".toList, true, none⟩] "a~~x%y||(b~~z)".toList ∧
      Reading.resolvedConditions ⟨fun name => if name = ['a'] then some ['x'] else none, [], []⟩
        "?(a == 1||b!=2) * a<3?".toList = .error (.unknownField .condition "b".toList) := by
  have hread : Reading.conditions "?(a == 1||b!=2) * a<3?".toList = .ok
      ([⟨"a".toList, "==".toList, "1".toList, true, some .or⟩] ++
        ⟨"b".toList, "!=".toList, "2".toList, true, some .and⟩ ::
        [⟨"a".toList, "<".toList, "3".toList, false, none⟩]) := by cbv
  have hsplit : Filter.split "?(a == 1||b!=2) * a<3?".toList =
      .ok ⟨[], "(a == 1||b!=2) * a<3".toList, []⟩ := by cbv
  have hsearch : Reading.searchConditions "a~~x y||(b~~z)".toList = .ok
      [⟨"a".toList, "~~".toList, "x%y".toList, false, some .or⟩,
        ⟨"b".toList, "~~".toList, "z".toList, true, none⟩] := by cbv
  obtain ⟨f, hf, htranscript⟩ := listing_transcribes_block.1 _ _ hread
  rw [hsplit] at hf
  cases hf
  refine ⟨htranscript, listing_transcribes_block.2.1 _ _ (by decide) hsearch, ?_⟩
  exact (listing_transcribes_block.2.2 _ _).2.2 _ _ _ hread (by decide) (by decide)

end FilterLang
