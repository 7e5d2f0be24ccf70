import FilterLang.Proofs.Deleting

/-! A condition added and then deleted. The connector that joined it goes with it, so the others are
left as they were. -/
namespace FilterLang

open Occurrence

namespace Node

variable {ns after : List (Node Condition)} {n : Node Condition} {c : Condition}
  {k : Connector} {grouped : Bool}

theorem withConnector_single (k l : Option Connector) :
    (single grouped c k).withConnector l = single grouped c l := by
  cases grouped <;> rfl

/-- A unit that was joined to the end leaves the others as they were. -/
theorem close_relink (hs : Shaped ns) (hn : n.connector = none) :
    close (relink (some k) ns) n [] = ns := by
  rcases ns.eq_nil_or_concat' with rfl | ⟨init, m, rfl⟩
  · rfl
  · have hm : m.connector = none := Level.connector_last hs
    -- Only the last unit was joined to the new one, and it ended the block before.
    rw [close, hn, relink_concat, relink_concat, List.append_nil]
    cases m <;> simp_all [withConnector, connector]

theorem mentions_relink {name : Text} {l : Option Connector}
    (h : ∀ n ∈ ns, mentions name n = false) : ∀ n ∈ relink l ns, mentions name n = false := by
  rcases ns.eq_nil_or_concat' with rfl | ⟨init, m, rfl⟩
  · exact h
  · rw [relink_concat]
    have hm : mentions name (m.withConnector l) = mentions name m := by cases m <;> rfl
    simpa [or_imp, forall_and, hm] using h

/-- The first condition on its field goes with the parentheses that it came with. -/
theorem deleteFirst?_single (before : List (Node Condition)) {k : Option Connector}
    (hb : ∀ n ∈ before, mentions c.field n = false) :
    deleteFirst? c.field (before ++ single grouped c k :: after) =
      some (close before (single grouped c k) after) := by
  have hon : mentions c.field (single grouped c k) = true := by
    cases grouped <;> simp [single, mentions, isOn]
  have hsplit : splitFirst? (mentions c.field) (before ++ single grouped c k :: after) =
      some (before, single grouped c k, after) := splitFirst?_eq_some_iff.mpr ⟨rfl, hon, hb⟩
  cases grouped with
  | false => simp_all [deleteFirst?, single]
  | true => simp_all [deleteFirst?, single, splitFirst?, isOn, close, relink]

theorem deleteFirst?_putBefore :
    deleteFirst? c.field (putBefore [(k, single grouped c none)] ns) = some ns := by
  simp only [putBefore, withConnector_single]
  exact deleteFirst?_single [] (by simp)

theorem deleteFirst?_putAfter (hs : Shaped ns) (hnew : ∀ n ∈ ns, mentions c.field n = false) :
    deleteFirst? c.field (putAfter ns [(k, single grouped c none)]) = some ns := by
  calc deleteFirst? c.field (putAfter ns [(k, single grouped c none)])
    _ = deleteFirst? c.field (relink (some k) ns ++ [single grouped c none]) := rfl
    _ = some (close (relink (some k) ns) (single grouped c none) []) :=
      deleteFirst?_single _ (mentions_relink hnew)
    _ = some ns := by rw [close_relink hs connector_single]

end Node

open Node

variable {s : Text} {f : Filter} {ns ms : List (Node Condition)} {e : Entry}

/-- Entries without blanks that fit in are read as the tree that they were put into. -/
theorem Entry.nodes_added {es : List Entry} {added : List (Connector × Node Condition)}
    {leading : Bool} (hp : Filter.parse s = .ok f) (hn : f.nodes = .ok ns)
    (h : List.Forall₂ Adds es added) (hsolid : ∀ e ∈ es, e.text.Solid)
    (hfit : FitIn leading ((ofNodes ns).map entry) es)
    (hms : ms = if leading then putBefore added ns else putAfter ns added) :
    Filter.parse (f.withNodes ms).print = .ok (f.withNodes ms) ∧
      (f.withNodes ms).nodes = .ok ms := by
  obtain ⟨hw, hseal, hold⟩ := Filter.writable_nodes hp hn
  have hnew := (text_solid_iff (said_added h).1).mpr hsolid
  obtain ⟨hwrite, hsealed, hall⟩ :
      Writable ms ∧ SealedAll ms ∧ ∀ x ∈ saidAll ms, x.1.print.Solid := by
    cases leading with
    | true =>
      obtain rfl : ms = putBefore added ns := hms
      have hnil : (ofNodes ns).map entry = [] ↔ ns = [] := by
        rw [← saidAll_eq_nil_iff hw.1, ← map_said_ofNodes]
        simp
      refine ⟨hw.putBefore h, (sealedAll_putBefore h hnil).mpr ⟨hfit, hseal⟩, ?_⟩
      rw [saidAll_putBefore, List.forall_mem_append]
      exact ⟨hnew, hold⟩
    | false =>
      obtain rfl : ms = putAfter ns added := hms
      have hend := endsIn_entries hw.1
      refine ⟨hw.putAfter h, (sealedAll_putAfter h hw.1 hend).mpr ⟨hfit, hseal⟩, ?_⟩
      rw [saidAll_putAfter, List.forall_mem_append]
      exact ⟨hold, hnew⟩
  exact ⟨Filter.parse_withNodes (Filter.parse_eq_ok_iff.mp hp).2.1 hwrite,
    Filter.nodes_withNodes hwrite hsealed hall⟩

/-- An entry that is joined by `*` fits in everywhere. -/
theorem Entry.fitIn_and {leading : Bool} {kept : List Entry} (h : e.separator ≠ some .or) :
    FitIn leading kept [e] := by
  cases leading with
  | true => cases kept <;> simp [FitIn, Fits, h]
  | false => cases hl : kept.getLast? <;> simp [FitIn, Fits, h, hl]

theorem Operator.solid_token (op : Operator) : op.token.Solid := by
  cases op <;> decide

theorem Entry.solid_text {c : Condition} (hc : e.toCondition = .ok c) (hf : e.field.Solid)
    (hv : e.value.Solid) : e.text.Solid := by
  have hcontent := (toCondition_eq_ok hc false).1
  simp only [contentOf, Prod.mk.injEq] at hcontent
  rw [text, ← hcontent.2.1]
  intro x hx
  simp only [List.mem_append] at hx
  rcases hx with (hx | hx) | hx
  · exact hf x hx
  · exact c.operator.solid_token x hx
  · exact hv x hx

/-- Where no condition on a field is listed, no unit mentions the field. -/
theorem Reading.not_mentioned {listed : List Entry} {name : Text} (hp : Filter.parse s = .ok f)
    (hn : f.nodes = .ok ns) (hl : conditions s = .ok listed) (h : ∀ x ∈ listed, x.field ≠ name) :
    ∀ n ∈ ns, mentions name n = false := by
  rw [conditions_eq_ok hp hn] at hl
  cases hl
  rw [forall_not_mentions_iff]
  intro o ho
  exact h o.entry (List.mem_map_of_mem ho)

theorem Edit.deleteCondition_eq_ok {name : Text} (hp : Filter.parse s = .ok f)
    (hn : f.nodes = .ok ns) (hd : deleteFirst? name ns = some ms) :
    onText (deleteCondition name) s = .ok (f.withNodes ms).print := by
  rw [deleteCondition_eq hp hn, hd, update]

/-- Adding a single condition that is joined by `*` brings a tree into the filter from which the
first condition on its field can be taken away again. -/
theorem Edit.addConditions_single {leading : Bool} {g : Text} (hp : Filter.parse s = .ok f)
    (hn : f.nodes = .ok ns) (hfield : e.field ≠ []) (hsolid : e.field.Solid ∧ e.value.Solid)
    (hsep : e.separator ≠ some .or) (hnew : ∀ n ∈ ns, mentions e.field n = false)
    (h : onText (addConditions [e] false leading) s = .ok g) :
    ∃ ms, Filter.parse g = .ok (f.withNodes ms) ∧ (f.withNodes ms).nodes = .ok ms ∧
      deleteFirst? e.field ms = some ns := by
  obtain ⟨f', hp', h⟩ := bind_eq_ok_iff.mp h
  rw [hp] at hp'
  cases hp'
  obtain ⟨f', hf', h⟩ := bind_eq_ok_iff.mp h
  cases h
  obtain ⟨ns', hn', hf'⟩ := bind_eq_ok_iff.mp hf'
  rw [hn] at hn'
  cases hn'
  obtain ⟨added, hadded, hf'⟩ := bind_eq_ok_iff.mp hf'
  cases hf'
  have hadds : List.Forall₂ Entry.Adds [e] added := by
    simpa [hfield] using Entry.forall₂_adds hadded
  obtain ⟨p, ps, ⟨-, c, hc, hunit⟩, hps, rfl⟩ := List.forall₂_cons_left_iff.mp hadds
  cases hps
  have htext : ∀ x ∈ [e], x.text.Solid := by
    simpa using Entry.solid_text hc hsolid.1 hsolid.2
  obtain ⟨hparse, hnodes⟩ := Entry.nodes_added hp hn hadds htext (Entry.fitIn_and hsep) rfl
  refine ⟨_, hparse, hnodes, ?_⟩
  have hon : c.field = e.field := congrArg Prod.fst (Entry.toCondition_eq_ok hc false).1
  obtain ⟨k, n⟩ := p
  obtain rfl : n = single e.inGroup c none := hunit
  obtain ⟨hw, -, -⟩ := Filter.writable_nodes hp hn
  rw [← hon] at hnew ⊢
  cases leading with
  | true => exact deleteFirst?_putBefore
  | false => exact deleteFirst?_putAfter hw.1 hnew

/-- A condition on a new field, joined by `*` before or behind the others and with or without
parentheses, can be deleted again: what is left is the filter as it was, but for the blanks of its
conditions. -/
theorem deleting_undoes_adding (filter g : Text) (e : Entry) (leading : Bool)
    (listed : List Entry) (hl : Reading.conditions filter = .ok listed) (hfield : e.field ≠ [])
    (hsolid : e.field.Solid ∧ e.value.Solid)
    (hsep : e.separator = none ∨ e.separator = some .and)
    (hnew : ∀ x ∈ listed, x.field ≠ e.field)
    (h : Edit.onText (Edit.addConditions [e] false leading) filter = .ok g) :
    ∃ f out, Filter.split filter = .ok f ∧
      Edit.onText (Edit.deleteCondition e.field) g = .ok out ∧
      Filter.split out = .ok { f with conditions := f.conditions.unblank } := by
  obtain ⟨os, hos, -⟩ := bind_eq_ok_iff.mp hl
  obtain ⟨f, hp, hos⟩ := bind_eq_ok_iff.mp hos
  obtain ⟨ns, hn, -⟩ := bind_eq_ok_iff.mp hos
  have hor : e.separator ≠ some .or := by
    rcases hsep with hsep | hsep <;> simp [hsep]
  obtain ⟨ms, hparse, hnodes, hdelete⟩ := Edit.addConditions_single hp hn hfield hsolid hor
    (Reading.not_mentioned hp hn hl hnew) h
  refine ⟨f, (f.withNodes ns).print, Filter.split_eq_ok_iff.mpr hp, ?_, ?_⟩
  · exact Edit.deleteCondition_eq_ok (f := f.withNodes ms) hparse hnodes hdelete
  · obtain ⟨hw, -, -⟩ := Filter.writable_nodes hp hn
    rw [← Filter.withNodes_eq hn]
    exact Filter.split_eq_ok_iff.mpr
      (Filter.parse_withNodes (Filter.parse_eq_ok_iff.mp hp).2.1 hw)

/-- A grouped condition that ends in a bar, put behind one that ends in a bar too. -/
theorem deleting_undoes_adding_bar :
    Edit.onText (Edit.addConditions
        [⟨"b".toList, ">=".toList, "2|".toList, true, some .and⟩] false false)
        "x?(a == 1||c!=0) * d<1|?d".toList = .ok "x?(a==1||c!=0)*d<1|*(b>=2|)?d".toList ∧
      Edit.onText (Edit.deleteCondition "b".toList) "x?(a==1||c!=0)*d<1|*(b>=2|)?d".toList =
        .ok "x?(a==1||c!=0)*d<1|?d".toList := by
  have hadd : Edit.onText (Edit.addConditions
      [⟨"b".toList, ">=".toList, "2|".toList, true, some .and⟩] false false)
      "x?(a == 1||c!=0) * d<1|?d".toList = .ok "x?(a==1||c!=0)*d<1|*(b>=2|)?d".toList := by cbv
  have hread : Reading.conditions "x?(a == 1||c!=0) * d<1|?d".toList = .ok
      [⟨"a".toList, "==".toList, "1".toList, true, some .or⟩,
        ⟨"c".toList, "!=".toList, "0".toList, true, some .and⟩,
        ⟨"d".toList, "<".toList, "1|".toList, false, none⟩] := by cbv
  have hsplit : Filter.split "x?(a == 1||c!=0) * d<1|?d".toList =
      .ok ⟨"x".toList, "(a == 1||c!=0) * d<1|".toList, "d".toList⟩ := by cbv
  obtain ⟨f, out, hf, hout, hblocks⟩ := deleting_undoes_adding _ _ _ _ _ hread (by decide)
    (by decide) (.inr rfl) (by decide) hadd
  rw [hsplit] at hf
  cases hf
  obtain rfl : out = "x?(a==1||c!=0)*d<1|?d".toList := by
    rw [← Filter.print_of_split hblocks]
    cbv
  exact ⟨hadd, hout⟩

end FilterLang
