import FilterLang.Proofs.Listing
import Mathlib.Data.List.Chain

/-! Conditions added to a filter. They are listed unchanged exactly if no blank and no seam between
two neighbours turns them into something else. -/
namespace FilterLang

open Occurrence Node

variable {f : Filter} {ns : List (Node Condition)} {e : Entry}

namespace Entry

/-- The entry stands outside groups and ends in a bar, which would run into a `||` behind it. -/
def Open (e : Entry) : Prop := e.inGroup = false ∧ e.text.getLast? = some '|'

instance : DecidablePred Open := fun _ => inferInstanceAs (Decidable (_ ∧ _))

/-- Two neighbours can be joined. Their connector is that of the first if entries are put in front
of others, and that of the second if they are put behind. -/
def Fits (leading : Bool) (x y : Entry) : Prop :=
  (if leading then x else y).separator = some .or → ¬ x.Open

instance (leading : Bool) : DecidableRel (Fits leading) :=
  fun _ _ => inferInstanceAs (Decidable (_ → _))

/-- New entries can be joined to each other and to the ones that are there. -/
def FitIn (leading : Bool) (kept added : List Entry) : Prop :=
  List.IsChain (Fits leading)
    (if leading then added ++ kept.take 1 else kept.getLast?.toList ++ added)

instance (leading : Bool) (kept added : List Entry) : Decidable (FitIn leading kept added) :=
  inferInstanceAs (Decidable (List.IsChain _ _))

/-- The pair of a connector and a unit is what the entry adds. -/
def Adds (e : Entry) (p : Connector × Node Condition) : Prop :=
  p.1 = e.separator.getD .and ∧ ∃ c, e.toCondition = .ok c ∧ p.2 = single e.inGroup c none

theorem forall₂_adds {entries : List Entry} {added : List (Connector × Node Condition)}
    (h : additions entries = .ok added) :
    List.Forall₂ Adds (entries.filter (!·.field.isEmpty)) added := by
  refine (mapM_eq_ok_iff_forall₂.mp h).imp ?_
  intro e p hp
  obtain ⟨n, hn, hp⟩ := bind_eq_ok_iff.mp hp
  cases hp
  exact ⟨rfl, toNode_eq_ok_iff.mp hn⟩

section Added

variable {p : Connector × Node Condition} {es kept : List Entry}
  {added : List (Connector × Node Condition)}

theorem Adds.open_iff (h : e.Adds p) : p.2.Open ↔ e.Open := by
  obtain ⟨-, c, hc, hn⟩ := h
  rw [hn, open_single, print_of_toCondition hc, Entry.Open]

theorem Adds.connector_eq_or_iff (h : e.Adds p) : p.1 = .or ↔ e.separator = some .or := by
  rw [h.1]
  obtain _ | _ | _ := e.separator <;> simp

theorem Adds.unitOf (h : e.Adds p) : UnitOf (fun _ _ => True) p.2 ∧ p.2.connector = none := by
  obtain ⟨-, c, -, hn⟩ := h
  exact hn ▸ ⟨unitOf_single, connector_single⟩

theorem Adds.sealedAll (h : e.Adds p) : SealedAll [p.2] := by
  obtain ⟨-, c, -, hn⟩ := h
  simp [SealedAll, hn, standing_single, Sealed]

theorem Adds.said (h : e.Adds p) :
    ((standing p.2).map said).map contentOf = [e.content] ∧
      ∀ x ∈ (standing p.2).map said, '?' ∉ x.1.print ∧ x.1.Stands .standard none := by
  obtain ⟨-, c, hc, hn⟩ := h
  obtain ⟨hcontent, hwrite⟩ := toCondition_eq_ok hc e.inGroup
  rw [hn, standing_single]
  constructor
  · simpa [Occurrence.said, content] using hcontent
  · simpa [Occurrence.said] using hwrite

theorem said_added (h : List.Forall₂ Adds es added) :
    (saidAll (added.map Prod.snd)).map contentOf = es.map content ∧
      ∀ x ∈ saidAll (added.map Prod.snd), '?' ∉ x.1.print ∧ x.1.Stands .standard none := by
  induction h with
  | nil => simp
  | cons he _ ih =>
    simp only [List.map_cons, saidAll_cons, List.map_append, he.said.1, ih.1,
      List.forall_mem_append]
    exact ⟨rfl, he.said.2, ih.2⟩

theorem unitOf_added (h : List.Forall₂ Adds es added) :
    ∀ p ∈ added, UnitOf (fun _ _ => True) p.2 ∧ p.2.connector = none := by
  induction h with
  | nil => simp
  | cons he _ ih => exact List.forall_mem_cons.mpr ⟨he.unitOf, ih⟩

/-- Entries put in front of others keep apart from what follows exactly if they fit in. -/
theorem sealedAll_putBefore (h : List.Forall₂ Adds es added) (hk : kept = [] ↔ ns = []) :
    SealedAll (putBefore added ns) ↔ FitIn true kept es ∧ SealedAll ns := by
  simp only [FitIn, if_true]
  induction h with
  | nil => cases kept <;> simp [putBefore]
  | @cons e p es added he hes ih =>
    have hnil : putBefore added ns = [] ↔ es ++ kept.take 1 = [] := by
      cases hes <;> simp [putBefore, hk]
    have hjoin : SealedAll [p.2.withConnector
        (if (putBefore added ns).isEmpty then none else some p.1)] ↔
          ∀ y ∈ (es ++ kept.take 1).head?, Fits true e y := by
      rw [sealedAll_withConnector he.unitOf.2]
      simp only [List.isEmpty_iff, hnil]
      cases es ++ kept.take 1 with
      | nil => simp [he.sealedAll]
      | cons y ys =>
        simp [he.sealedAll, Fits, he.open_iff, ← he.connector_eq_or_iff]
    rw [putBefore, sealedAll_cons, ih, hjoin, List.cons_append, List.isChain_cons, and_assoc]

/-- Entries put behind others keep apart from what precedes exactly if they fit in. -/
theorem sealedAll_putAfter (h : List.Forall₂ Adds es added) (hs : Shaped ns) {last : Option Entry}
    (hl : ∀ y, (∀ m ∈ ns.getLast?, y.separator = some .or → ¬ m.Open) ↔
      ∀ x ∈ last, Fits false x y) :
    SealedAll (putAfter ns added) ↔
      List.IsChain (Fits false) (last.toList ++ es) ∧ SealedAll ns := by
  induction h generalizing ns last with
  | nil => cases last <;> simp [putAfter]
  | @cons e p es added he hes ih =>
    have hlast : ∀ y, (∀ m ∈ (relink (some p.1) ns ++ [p.2]).getLast?,
        y.separator = some .or → ¬ m.Open) ↔ ∀ x ∈ some e, Fits false x y := by
      intro y
      simp [Fits, he.open_iff]
    have hstep : SealedAll (putAfter ns (p :: added)) ↔ _ :=
      ih (shaped_relink_append hs he.unitOf.1 he.unitOf.2 p.1) hlast
    have hchain : List.IsChain (Fits false) (last.toList ++ e :: es) ↔
        (∀ x ∈ last, Fits false x e) ∧ List.IsChain (Fits false) (e :: es) := by
      cases last <;> simp
    rw [hstep, sealedAll_append, sealedAll_relink hs, he.connector_eq_or_iff, hl, hchain]
    constructor
    · rintro ⟨hes, ⟨hns, hfit⟩, -⟩
      exact ⟨⟨hfit, hes⟩, hns⟩
    · rintro ⟨⟨hfit, hes⟩, hns⟩
      exact ⟨hes, ⟨hns, hfit⟩, he.sealedAll⟩

end Added

end Entry

/-- The last entry of a listing tells whether the last unit of the tree ends in a bar. -/
theorem exists_getLast?_entry {m : Node Condition} (hs : Shaped ns) (hm : ns.getLast? = some m) :
    ∃ x, ((ofNodes ns).map entry).getLast? = some x ∧ (x.Open ↔ m.Open) := by
  obtain ⟨init, rfl⟩ := List.getLast?_eq_some_iff.mp hm
  have hu : UnitOf (fun _ _ => True) m := hs.2 m (by simp)
  have hlast : ∃ o, (ofNode m).getLast? = some o ∧ (o.entry.Open ↔ m.Open) := by
    have hne : ofNode m ≠ [] := by
      intro he
      have hsaid := map_said_ofNode m
      rw [he] at hsaid
      exact standing_ne_nil hu (List.map_eq_nil_iff.mp hsaid.symm)
    refine ⟨(ofNode m).getLast hne, List.getLast?_eq_some_getLast hne, ?_⟩
    have hmem := List.getLast_mem hne
    generalize (ofNode m).getLast hne = o at hmem ⊢
    obtain ⟨o', ho', hsaid⟩ := List.mem_map.mp (map_said_ofNode m ▸ List.mem_map_of_mem hmem)
    cases m with
    | leaf c k =>
      obtain rfl := List.mem_singleton.mp hmem
      simp [Entry.Open, entry, Entry.text, Open, Condition.print]
    | group children k =>
      have hg : o.inGroup = true := by
        have hsame : o'.inGroup = o.inGroup := congrArg Prod.snd hsaid
        rw [← hsame, inGroup_of_mem_standing ho']
        rfl
      simp [Entry.Open, entry, Open, hg]
  obtain ⟨o, ho, hopen⟩ := hlast
  refine ⟨o.entry, ?_, hopen⟩
  simp [ofNodes, List.getLast?_append, ho]

theorem Entry.text_solid_iff {es : List Entry} {xs : List (Condition × Bool)}
    (h : xs.map contentOf = es.map content) :
    (∀ x ∈ xs, x.1.print.Solid) ↔ ∀ e ∈ es, e.text.Solid := by
  let solid : Text × Text × Text × Bool → Prop := fun t => (t.1 ++ t.2.1 ++ t.2.2.1).Solid
  have hxs : (∀ t ∈ xs.map contentOf, solid t) ↔ ∀ x ∈ xs, x.1.print.Solid := by
    rw [List.forall_mem_map]
    rfl
  have hes : (∀ t ∈ es.map content, solid t) ↔ ∀ e ∈ es, e.text.Solid := by
    rw [List.forall_mem_map]
    rfl
  rw [← hxs, h, hes]

/-- The last unit of a tree in terms of what is listed from it. -/
def EndsIn (ns : List (Node Condition)) (last : Option Entry) : Prop :=
  ∀ y : Entry, (∀ m ∈ ns.getLast?, y.separator = some .or → ¬ m.Open) ↔
    ∀ x ∈ last, Entry.Fits false x y

theorem endsIn_entries (hs : Shaped ns) : EndsIn ns ((ofNodes ns).map entry).getLast? := by
  intro y
  cases hm : ns.getLast? with
  | none =>
    obtain rfl := List.getLast?_eq_none_iff.mp hm
    simp [ofNodes]
  | some m =>
    obtain ⟨x, hx, hopen⟩ := exists_getLast?_entry hs hm
    simp [hx, Entry.Fits, hopen]

theorem Node.Writable.putBefore {es : List Entry} {added : List (Connector × Node Condition)}
    (hw : Writable ns) (h : List.Forall₂ Entry.Adds es added) : Writable (putBefore added ns) := by
  refine ⟨shaped_putBefore (fun p hp => (Entry.unitOf_added h p hp).1) hw.1, ?_⟩
  rw [saidAll_putBefore, List.forall_mem_append]
  exact ⟨(Entry.said_added h).2, hw.2⟩

theorem Node.Writable.putAfter {es : List Entry} {added : List (Connector × Node Condition)}
    (hw : Writable ns) (h : List.Forall₂ Entry.Adds es added) : Writable (putAfter ns added) := by
  refine ⟨shaped_putAfter (Entry.unitOf_added h) hw.1, ?_⟩
  rw [saidAll_putAfter, List.forall_mem_append]
  exact ⟨hw.2, (Entry.said_added h).2⟩

theorem lists_added_iff {kept es : List Entry} {added : List (Connector × Node Condition)}
    {leading : Bool} (hf : '?' ∉ f.fields) (hw : Writable ns) (hseal : SealedAll ns)
    (hsolid : ∀ x ∈ saidAll ns, x.1.print.Solid)
    (hkept : (saidAll ns).map contentOf = kept.map Entry.content) (hlast : EndsIn ns kept.getLast?)
    (h : List.Forall₂ Entry.Adds es added) :
    Reading.Lists (f.withNodes (if leading then putBefore added ns else putAfter ns added)).print
        ((if leading then es ++ kept else kept ++ es).map Entry.content) ↔
      (∀ e ∈ es, e.text.Solid) ∧ Entry.FitIn leading kept es := by
  obtain ⟨hsaid, -⟩ := Entry.said_added h
  have hresult : ∀ ms, Writable ms →
      (∀ x, x ∈ saidAll ms ↔ x ∈ saidAll (added.map Prod.snd) ∨ x ∈ saidAll ns) →
      (SealedAll ms ↔ Entry.FitIn leading kept es ∧ SealedAll ns) →
      (Reading.Lists (f.withNodes ms).print ((saidAll ms).map contentOf) ↔
        (∀ e ∈ es, e.text.Solid) ∧ Entry.FitIn leading kept es) := by
    intro ms hwms hmem hms
    rw [Reading.lists_withNodes_iff hf hwms, hms, ← Entry.text_solid_iff hsaid]
    constructor
    · rintro ⟨hsol, hfit, -⟩
      exact ⟨fun x hx => hsol x ((hmem x).mpr (.inl hx)), hfit⟩
    · rintro ⟨hsol, hfit⟩
      refine ⟨fun x hx => ?_, hfit, hseal⟩
      rcases (hmem x).mp hx with hx | hx
      · exact hsol x hx
      · exact hsolid x hx
  cases leading with
  | true =>
    have hall := saidAll_putBefore added ns
    have hnil : kept = [] ↔ ns = [] := by
      rw [← saidAll_eq_nil_iff hw.1, ← List.map_eq_nil_iff (f := contentOf), hkept,
        List.map_eq_nil_iff]
    have hms := hresult (putBefore added ns) (hw.putBefore h) (by simp [hall])
      (Entry.sealedAll_putBefore h hnil)
    rwa [hall, List.map_append, hsaid, hkept, ← List.map_append] at hms
  | false =>
    have hall := saidAll_putAfter ns added
    have hms := hresult (putAfter ns added) (hw.putAfter h) (by simp [hall, or_comm])
      (Entry.sealedAll_putAfter h hw.1 hlast)
    rwa [hall, List.map_append, hsaid, hkept, ← List.map_append] at hms

/-- Entries that were added to a filter are listed unchanged, beside what was there, exactly if none
of them has a blank and they fit in. -/
theorem lists_addConditions_iff {filter out : Text} {entries : List Entry}
    {replace leading : Bool}
    (h : Edit.onText (Edit.addConditions entries replace leading) filter = .ok out) :
    ∃ before, Reading.conditions filter = .ok before ∧
      let kept := if replace && !entries.isEmpty then [] else before
      let added := entries.filter (!·.field.isEmpty)
      (Reading.Lists out ((if leading then added ++ kept else kept ++ added).map Entry.content) ↔
        (∀ e ∈ added, e.text.Solid) ∧ Entry.FitIn leading kept added) := by
  obtain ⟨f, hp, h⟩ := bind_eq_ok_iff.mp h
  obtain ⟨f', hf', h⟩ := bind_eq_ok_iff.mp h
  cases h
  obtain ⟨ns, hn, hf'⟩ := bind_eq_ok_iff.mp hf'
  refine ⟨_, Reading.conditions_eq_ok hp hn, ?_⟩
  dsimp only
  by_cases hempty : entries = []
  · subst hempty
    cases hf'
    obtain ⟨rfl, -⟩ := Filter.parse_eq_ok_iff.mp hp
    have hlists : Reading.Lists f.print (((ofNodes ns).map entry).map Entry.content) :=
      ⟨_, Reading.conditions_eq_ok hp hn, rfl⟩
    have hfit : Entry.FitIn leading ((ofNodes ns).map entry) [] := by
      generalize (ofNodes ns).map entry = before
      cases leading with
      | true => cases before <;> simp [Entry.FitIn]
      | false => cases h : before.getLast? <;> simp [Entry.FitIn, h]
    simpa [hfit] using hlists
  · simp only [List.isEmpty_iff, hempty, if_false] at hf'
    obtain ⟨added, hadded, hf'⟩ := bind_eq_ok_iff.mp hf'
    cases hf'
    obtain ⟨hw, hseal, hsolid⟩ := Filter.writable_nodes hp hn
    have hq := (Filter.parse_eq_ok_iff.mp hp).2.1
    have hadds := Entry.forall₂_adds hadded
    cases replace with
    | true =>
      have hnone : EndsIn [] ([] : List Entry).getLast? := by simp [EndsIn]
      have hnothing : (saidAll []).map contentOf = ([] : List Entry).map Entry.content := rfl
      simpa [hempty] using
        lists_added_iff hq writable_nil (by simp) (by simp) hnothing hnone hadds
    | false =>
      simpa using lists_added_iff hq hw hseal hsolid (Reading.map_content_ofNodes ns).symm
        (endsIn_entries hw.1) hadds

end FilterLang
