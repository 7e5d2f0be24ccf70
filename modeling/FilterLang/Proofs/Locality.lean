import FilterLang.Proofs.Confinement
import FilterLang.Proofs.Spots

/-! Changes to one condition. Replacing it touches its own text only, and deleting it takes one
connector along; all else stays in its place, character for character. -/
namespace FilterLang

open Occurrence

namespace Node

variable {ns : List (Node Condition)} {g : Gap} {unit : Option Connector → Node Condition}

/-- What is left of a level without the unit in a gap. The other units are the same but for the
connectors behind them, and of these one is gone: the one in front of the unit, or the one behind it
if it came first. The last unit of a level has none. -/
structure Gap.Closed (g : Gap) (unit : Option Connector → Node Condition)
    (ms : List (Node Condition)) : Prop where
  units : ms.map (withConnector none) = (g.before ++ g.after).map (withConnector none)
  links : ms.map connector = ((g.fill unit).map connector).eraseIdx (g.before.length - 1)

/-- What is left of a tree without the condition in a spot: its level is closed, or that of its
group if nothing else is in it. The units of other levels are the same. -/
def Spot.Cleared (c : Condition) (ms : List (Node Condition)) : Spot → Prop
  | top g => g.Closed (leaf c) ms
  | inner outer inside =>
    if inside.before = [] ∧ inside.after = [] then outer.Closed (group [leaf c inside.link]) ms
    else ∃ children, inside.Closed (leaf c) children ∧ ms = outer.fill (group children)

theorem withConnector_withConnector (n : Node Condition) (k l : Option Connector) :
    (n.withConnector k).withConnector l = n.withConnector l := by
  cases n <;> rfl

theorem Gap.closed_close (hu : ∀ k, (unit k).connector = k) : g.Closed unit g.close := by
  obtain ⟨before, k, after⟩ := g
  rcases before.eq_nil_or_concat' with rfl | ⟨init, m, rfl⟩
  · exact ⟨rfl, by simp [close, fill, relink]⟩
  · constructor
    · simp [close, relink_concat, withConnector_withConnector]
    · have hlen : (init ++ [m]).length - 1 = (init.map connector).length := by simp
      simp only [close, fill, relink_concat, List.map_append, List.map_cons, List.map_nil,
        List.append_assoc, hu, connector_withConnector, hlen]
      rw [List.eraseIdx_append_of_length_le le_rfl, Nat.sub_self]
      rfl

theorem Gap.close_eq_nil_iff : g.close = [] ↔ g.before = [] ∧ g.after = [] :=
  Node.close_eq_nil_iff (n := group [] g.link)

theorem Spot.cleared_clear (s : Spot) (c : Condition) : s.Cleared c s.clear := by
  cases s with
  | top g => exact Gap.closed_close fun _ => rfl
  | inner outer inside =>
    by_cases hempty : inside.before = [] ∧ inside.after = []
    · have hclose : inside.close.isEmpty = true := by
        rw [List.isEmpty_iff, Gap.close_eq_nil_iff]
        exact hempty
      simp only [Cleared, clear, hempty, hclose, and_self, if_true]
      exact Gap.closed_close fun _ => rfl
    · have hclose : inside.close.isEmpty = false := by
        rw [List.isEmpty_eq_false_iff, ne_eq, Gap.close_eq_nil_iff]
        exact hempty
      simp only [Cleared, clear, hempty, hclose, if_false]
      exact ⟨inside.close, Gap.closed_close fun _ => rfl, rfl⟩

end Node

open Node

variable {filter name : Text} {f : Filter} {ns : List (Node Condition)} {e : Entry}

theorem Edit.replaceCondition_eq (hf : Filter.parse filter = .ok f) (hn : f.nodes = .ok ns) :
    onText (replaceCondition e) filter = (e.replaceFirst? ns).map fun r => (update f r).print := by
  simp only [onText, replaceCondition, hf, hn, bind, Except.bind]
  cases e.replaceFirst? ns <;> rfl

/-- The first listed condition on a field is the first that stands on it. -/
theorem Reading.FirstOn.exists_standing {s : Spot} {old : Occurrence} {later : List Occurrence}
    (h : FirstOn name filter ns s old later) :
    ∃ b o a, standingAll ns = b ++ o :: a ∧ b.map said = s.earlier.map said ∧
      a.map said = later.map said ∧ o.condition.field = name ∧
      ∀ x ∈ b, x.condition.field ≠ name := by
  have hsaid : (standingAll ns).map said = s.earlier.map said ++ old.said :: later.map said := by
    calc (standingAll ns).map said
      _ = (ofNodes ns).map said := (map_said_ofNodes ns).symm
      _ = s.earlier.map said ++ old.said :: later.map said := by simp [h.listed]
  obtain ⟨b, rest, hstand, hb, hrest⟩ := List.map_eq_append_iff.mp hsaid
  obtain ⟨o, a, rfl, ho, ha⟩ := List.map_eq_cons_iff.mp hrest
  refine ⟨b, o, a, hstand, hb, ha, ?_, ?_⟩
  · have hc : o.condition = old.condition := congrArg Prod.fst ho
    rw [hc, h.field]
  · intro x hx hname
    obtain ⟨y, hy, hxy⟩ := List.mem_map.mp (hb ▸ List.mem_map_of_mem hx)
    have hc : y.condition = x.condition := congrArg Prod.fst hxy
    exact h.earlier y hy (by rw [hc, hname])

/-- A change of one condition is a splice of its text. Where no condition is on the field of the
entry, nothing changes; where one is, the first makes way for the text of the entry, in parentheses
if the entry asks for them and the condition stood in none. It fails only as the entry does. -/
theorem replacement_splices_text (filter : Text) (e : Entry) (f : Filter)
    (ns : List (Node Condition)) (hf : Filter.split filter = .ok f) (hn : f.nodes = .ok ns) :
    ((∀ o ∈ ofNodes ns, o.condition.field ≠ e.field) →
      Edit.onText (Edit.replaceCondition e) filter = .ok filter) ∧
    ((∃ o ∈ ofNodes ns, o.condition.field = e.field) →
      ∃ s old later, Reading.FirstOn e.field filter ns s old later ∧
        f.conditions.unblank = s.front ++ old.condition.print ++ s.back ∧
        (∀ err, Edit.onText (Edit.replaceCondition e) filter = .error err ↔
          e.toCondition = .error err) ∧
        ∀ c, e.toCondition = .ok c →
          ∃ out, Edit.onText (Edit.replaceCondition e) filter = .ok out ∧
            Filter.split out = .ok { f with conditions := s.front ++
              (if e.inGroup && !old.inGroup then '(' :: e.text ++ [')'] else e.text) ++
                s.back }) := by
  obtain ⟨hprint, hwhole⟩ := Filter.split_eq_ok_iff_whole.mp hf
  have hparse := Filter.split_eq_ok_iff.mp hf
  rw [Edit.replaceCondition_eq hparse hn]
  refine ⟨fun hnone => ?_, fun hsome => ?_⟩
  · have hsplit := splitFirst?_eq_none_iff.mpr (forall_not_mentions_iff.mpr hnone)
    rw [Entry.replaceFirst?, hsplit, ← hprint]
    rfl
  · obtain ⟨s, old, later, hfirst⟩ := Reading.exists_firstOn hparse hn hsome
    have hreplace : e.replaceFirst? ns = e.toCondition.map fun d => some (s.put e.inGroup d) := by
      rw [hfirst.tree]
      exact Spot.replaceFirst?_fill hfirst.field hfirst.earlier
    refine ⟨s, old, later, hfirst, ?_, ?_, ?_⟩
    · rw [← Spot.printAll_fill, ← hfirst.tree]
      exact (Block.parse_eq_ok_iff.mp hn).1.symm
    · intro err
      rw [hreplace]
      cases e.toCondition <;> simp [Except.map]
    · intro c hc
      have hput : printAll (s.put e.inGroup c) = s.front ++
          (if e.inGroup && !old.inGroup then '(' :: e.text ++ [')'] else e.text) ++ s.back := by
        rw [Spot.printAll_put, hfirst.grouped, Entry.print_of_toCondition hc]
      have hedit : Edit.replaceCondition e f = .ok (f.withNodes (s.put e.inGroup c)) := by
        simp [Edit.replaceCondition, hn, hreplace, hc, bind, Except.bind, pure, Except.pure,
          Except.map, Edit.update]
      have hout := Edit.whole_replaceCondition hwhole hedit
      refine ⟨(f.withNodes (s.put e.inGroup c)).print, by rw [hreplace, hc]; rfl, ?_⟩
      rw [← hput]
      exact Filter.split_eq_ok_iff_whole.mpr ⟨rfl, hout⟩

/-- An entry that asks for parentheses takes the place of a condition outside groups. Blanks between
the others go, and the second condition on the field stays. -/
theorem replacement_splices_text_parentheses :
    ∃ front back, "a==1*(b==2||a==3)".toList = front ++ "a==1".toList ++ back ∧
      Edit.onText (Edit.replaceCondition ⟨"a".toList, ">=".toList, "7".toList, true, none⟩)
        "x? a == 1*( b==2||a==3 )?".toList = .ok "x?(a>=7)*(b==2||a==3)?".toList ∧
      Filter.split "x?(a>=7)*(b==2||a==3)?".toList =
        .ok ⟨"x".toList, front ++ "(a>=7)".toList ++ back, []⟩ := by
  have hsplit : Filter.split "x? a == 1*( b==2||a==3 )?".toList =
      .ok ⟨"x".toList, " a == 1*( b==2||a==3 )".toList, []⟩ := by cbv
  have hnodes : Block.parse .standard " a == 1*( b==2||a==3 )".toList = .ok
      [.leaf ⟨"a".toList, .eq, "1".toList⟩ (some .and),
        .group [.leaf ⟨"b".toList, .eq, "2".toList⟩ (some .or),
          .leaf ⟨"a".toList, .eq, "3".toList⟩ none] none] := by cbv
  have hentry : Entry.toCondition ⟨"a".toList, ">=".toList, "7".toList, true, none⟩ =
      .ok ⟨"a".toList, .gte, "7".toList⟩ := by cbv
  have hedit : Edit.onText (Edit.replaceCondition ⟨"a".toList, ">=".toList, "7".toList, true, none⟩)
      "x? a == 1*( b==2||a==3 )?".toList = .ok "x?(a>=7)*(b==2||a==3)?".toList := by cbv
  have hreport : Reading.condition? "a".toList "x? a == 1*( b==2||a==3 )?".toList =
      .ok (some ⟨"a".toList, "==".toList, "1".toList, false, some .and⟩) := by cbv
  obtain ⟨s, old, later, hfirst, htext, -, hsplice⟩ := (replacement_splices_text _
    ⟨"a".toList, ">=".toList, "7".toList, true, none⟩ _ _ hsplit hnodes).2
      ⟨_, List.mem_cons_self, rfl⟩
  obtain ⟨out, hout, hblocks⟩ := hsplice _ hentry
  obtain rfl := Except.ok.inj (hedit.symm.trans hout)
  have hold : old.entry = ⟨"a".toList, "==".toList, "1".toList, false, some .and⟩ :=
    Option.some.inj (Except.ok.inj (hfirst.reported.symm.trans hreport))
  have hprint : old.condition.print = "a==1".toList := congrArg Entry.text hold
  have hgroup : old.inGroup = false := congrArg Entry.inGroup hold
  rw [hprint] at htext
  rw [hgroup] at hblocks
  exact ⟨s.front, s.back, htext, hedit, hblocks⟩

/-- A condition without a field can be replaced, in a group too, but no question finds it. -/
theorem replacement_of_unnamed :
    Edit.onText (Edit.replaceCondition ⟨[], "==".toList, "7".toList, false, none⟩)
        "?ID==2||(==1)?".toList = .ok "?ID==2||(==7)?".toList ∧
      Reading.Lists "?ID==2||(==1)?".toList
        [("ID".toList, "==".toList, "2".toList, false), ([], "==".toList, "1".toList, true)] ∧
      ∀ x, Reading.condition? [] "?ID==2||(==1)?".toList ≠ .ok x := by
  have hread : Reading.conditions "?ID==2||(==1)?".toList = .ok
      [⟨"ID".toList, "==".toList, "2".toList, false, some .or⟩,
        ⟨[], "==".toList, "1".toList, true, none⟩] := by cbv
  have hnone : Reading.condition? [] "?ID==2||(==1)?".toList = .error (.missing .fieldName) := by
    cbv
  refine ⟨by cbv, ⟨_, hread, rfl⟩, ?_⟩
  intro x hx
  rw [hnone] at hx
  cases hx

/-- Deleting a condition takes one condition and one connector. Where no condition is on the field,
nothing changes; where one is, the first goes and every other is listed as before. Connectors still
stand between units only, no group is empty, and but for one connector, in front of what went or
behind it if it came first, all of them are the same. -/
theorem deletion_erases_one_link (filter name : Text) (f : Filter) (ns : List (Node Condition))
    (hf : Filter.split filter = .ok f) (hn : f.nodes = .ok ns) :
    ((∀ o ∈ ofNodes ns, o.condition.field ≠ name) →
      Edit.onText (Edit.deleteCondition name) filter = .ok filter) ∧
    ((∃ o ∈ ofNodes ns, o.condition.field = name) →
      ∃ s old later ms out, Reading.FirstOn name filter ns s old later ∧
        Edit.onText (Edit.deleteCondition name) filter = .ok out ∧
        Filter.split out = .ok { f with conditions := printAll ms } ∧
        (ofNodes ms).map said = (s.earlier ++ later).map said ∧ Shaped ms ∧
        s.Cleared old.condition ms) := by
  obtain ⟨hprint, hwhole⟩ := Filter.split_eq_ok_iff_whole.mp hf
  have hparse := Filter.split_eq_ok_iff.mp hf
  rw [Edit.deleteCondition_eq hparse hn]
  refine ⟨fun hnone => ?_, fun hsome => ?_⟩
  · have hsplit := splitFirst?_eq_none_iff.mpr (forall_not_mentions_iff.mpr hnone)
    rw [deleteFirst?, hsplit, ← hprint]
    rfl
  · obtain ⟨s, old, later, hfirst⟩ := Reading.exists_firstOn hparse hn hsome
    have hdelete : deleteFirst? name ns = some s.clear := by
      rw [hfirst.tree]
      exact Spot.deleteFirst?_fill hfirst.field hfirst.earlier
    obtain ⟨b, o, a, hstand, hb, ha, ho, hbefore⟩ := hfirst.exists_standing
    obtain ⟨hw, hseal⟩ := hwhole.writable_nodes hn
    obtain ⟨ms, hms, hshape, hsaid, -⟩ := deleteFirst?_spec hw.1 hseal hstand ho hbefore
    obtain rfl : s.clear = ms := Option.some.inj (hdelete.symm.trans hms)
    refine ⟨s, old, later, s.clear, (f.withNodes s.clear).print, hfirst, by rw [hdelete]; rfl, ?_,
      ?_, hshape, s.cleared_clear _⟩
    · have hwrite := writable_of_deleteFirst? hw hseal hdelete
      exact Filter.split_eq_ok_iff_whole.mpr ⟨rfl, Filter.whole_withNodes hwhole hwrite⟩
    · rw [map_said_ofNodes, hsaid, hb, ha, List.map_append]

/-- A condition in the middle of a group goes with the connector in front of it; the one behind it
now stands behind the condition before. -/
theorem deletion_erases_one_link_inner :
    Filter.split "?a==1*(b==2||c==3*d==4)||c==5?".toList =
        .ok ⟨[], "a==1*(b==2||c==3*d==4)||c==5".toList, []⟩ ∧
      ∃ s old later ms, Reading.FirstOn "c".toList "?a==1*(b==2||c==3*d==4)||c==5?".toList
          [.leaf ⟨"a".toList, .eq, "1".toList⟩ (some .and),
            .group [.leaf ⟨"b".toList, .eq, "2".toList⟩ (some .or),
              .leaf ⟨"c".toList, .eq, "3".toList⟩ (some .and),
              .leaf ⟨"d".toList, .eq, "4".toList⟩ none] (some .or),
            .leaf ⟨"c".toList, .eq, "5".toList⟩ none] s old later ∧
        Filter.split "?a==1*(b==2*d==4)||c==5?".toList = .ok ⟨[], printAll ms, []⟩ ∧
        Shaped ms ∧ s.Cleared old.condition ms := by
  have hsplit : Filter.split "?a==1*(b==2||c==3*d==4)||c==5?".toList =
      .ok ⟨[], "a==1*(b==2||c==3*d==4)||c==5".toList, []⟩ := by cbv
  have hnodes : Block.parse .standard "a==1*(b==2||c==3*d==4)||c==5".toList = .ok
      [.leaf ⟨"a".toList, .eq, "1".toList⟩ (some .and),
        .group [.leaf ⟨"b".toList, .eq, "2".toList⟩ (some .or),
          .leaf ⟨"c".toList, .eq, "3".toList⟩ (some .and),
          .leaf ⟨"d".toList, .eq, "4".toList⟩ none] (some .or),
        .leaf ⟨"c".toList, .eq, "5".toList⟩ none] := by cbv
  have hedit : Edit.onText (Edit.deleteCondition "c".toList)
      "?a==1*(b==2||c==3*d==4)||c==5?".toList = .ok "?a==1*(b==2*d==4)||c==5?".toList := by cbv
  obtain ⟨s, old, later, ms, out, hfirst, hout, hblocks, -, hshape, hclear⟩ :=
    (deletion_erases_one_link _ "c".toList _ _ hsplit hnodes).2
      ⟨⟨⟨"c".toList, .eq, "5".toList⟩, false, none⟩, by simp [ofNodes, ofNode, relink], rfl⟩
  obtain rfl := Except.ok.inj (hedit.symm.trans hout)
  exact ⟨hsplit, s, old, later, ms, hfirst, hblocks, hshape, hclear⟩

/-- A condition without a field can be deleted, but no question finds it. -/
theorem deletion_of_unnamed :
    Edit.onText (Edit.deleteCondition []) "?==1*ID==2?".toList = .ok "?ID==2?".toList ∧
      Reading.Lists "?==1*ID==2?".toList
        [([], "==".toList, "1".toList, false), ("ID".toList, "==".toList, "2".toList, false)] ∧
      ∀ x, Reading.condition? [] "?==1*ID==2?".toList ≠ .ok x := by
  have hread : Reading.conditions "?==1*ID==2?".toList = .ok
      [⟨[], "==".toList, "1".toList, false, some .and⟩,
        ⟨"ID".toList, "==".toList, "2".toList, false, none⟩] := by cbv
  have hnone : Reading.condition? [] "?==1*ID==2?".toList = .error (.missing .fieldName) := by cbv
  refine ⟨by cbv, ⟨_, hread, rfl⟩, ?_⟩
  intro x hx
  rw [hnone] at hx
  cases hx

end FilterLang
