import FilterLang.Proofs.ReadBack

/-! A condition deleted from a filter. Its neighbours are joined by a connector that neither of them
had before, and the others are listed unchanged exactly if that seam holds. -/
namespace FilterLang

open Occurrence

namespace Node

variable {name : Text} {ns ms before after : List (Node Condition)} {n : Node Condition}
  {k : Option Connector} {children : List (Node Condition)}

/-- What goes with the first condition on a field, and the units before it on the same level: the
condition itself, or its group if nothing else is in it. -/
def seam? (name : Text) (nodes : List (Node Condition)) :
    Option (List (Node Condition) × Node Condition) := do
  let (before, hit, _) ← splitFirst? (mentions name) nodes
  match hit with
  | leaf _ _ => return (before, hit)
  | group children _ =>
    let (inBefore, inHit, inAfter) ← splitFirst? (isOn name) children
    return if inBefore.isEmpty && inAfter.isEmpty then (before, hit) else (inBefore, inHit)

/-- The connector of a removed unit can pass to the unit before it, which ends in no bar that would
run into it. -/
def Rejoins (before : List (Node Condition)) (removed : Node Condition) : Prop :=
  removed.connector = some .or → ∀ m ∈ before.getLast?, ¬ m.Open

/-- Deleting the first condition on a field brings no bar next to a `||`. -/
def DeletesCleanly (name : Text) (nodes : List (Node Condition)) : Prop :=
  ∀ p ∈ seam? name nodes, Rejoins p.1 p.2

instance : DecidablePred Open
  | leaf c _ => inferInstanceAs (Decidable (c.print.getLast? = some '|'))
  | group _ _ => inferInstanceAs (Decidable False)

instance (before : List (Node Condition)) (removed : Node Condition) :
    Decidable (Rejoins before removed) :=
  inferInstanceAs (Decidable (_ → _))

instance (name : Text) (nodes : List (Node Condition)) : Decidable (DeletesCleanly name nodes) :=
  inferInstanceAs (Decidable (∀ _ ∈ seam? _ _, _))

theorem close_eq_nil_iff : close before n after = [] ↔ before = [] ∧ after = [] := by
  cases before with
  | nil => simp [close, relink]
  | cons m before => cases before <;> simp [close, relink]

/-- All that deleting can do: a whole unit goes from the top level, or a condition goes from a group
that keeps others. -/
theorem deleteFirst?_cases (h : deleteFirst? name ns = some ms) :
    (∃ before hit after, splitFirst? (mentions name) ns = some (before, hit, after) ∧
      (∃ o, standing hit = [o]) ∧ seam? name ns = some (before, hit) ∧
      ms = close before hit after) ∨
    ∃ before children k after inBefore inHit inAfter,
      splitFirst? (mentions name) ns = some (before, group children k, after) ∧
      splitFirst? (isOn name) children = some (inBefore, inHit, inAfter) ∧
      seam? name ns = some (inBefore, inHit) ∧ close inBefore inHit inAfter ≠ [] ∧
      ms = before ++ group (close inBefore inHit inAfter) k :: after := by
  unfold deleteFirst? at h
  obtain ⟨⟨before, hit, after⟩, hsplit, hd⟩ := Option.bind_eq_some_iff.mp h
  cases hit with
  | leaf c l =>
    refine .inl ⟨before, leaf c l, after, hsplit, ⟨_, rfl⟩, ?_, (Option.some.inj hd).symm⟩
    simp [seam?, hsplit]
  | group children l =>
    obtain ⟨⟨inBefore, inHit, inAfter⟩, hinner, hd⟩ := Option.bind_eq_some_iff.mp hd
    by_cases hempty : inBefore = [] ∧ inAfter = []
    · refine .inl ⟨before, group children l, after, hsplit, ?_, ?_, ?_⟩
      · obtain ⟨rfl, hon, -⟩ := splitFirst?_eq_some_iff.mp hinner
        obtain ⟨o, ho, -⟩ := isOn_iff.mp hon
        exact ⟨o, by simp [standing, hempty, Option.mem_def.mp ho]⟩
      · simp [seam?, hsplit, hinner, hempty]
      · simpa [close_eq_nil_iff, hempty] using hd.symm
    · refine .inr ⟨before, children, l, after, inBefore, inHit, inAfter, hsplit, hinner, ?_, ?_, ?_⟩
      · simp [seam?, hsplit, hinner, hempty]
      · rwa [ne_eq, close_eq_nil_iff]
      · simpa [close_eq_nil_iff, hempty] using hd.symm

theorem deleteFirst?_ne_none {o : Occurrence} (ho : o ∈ standingAll ns)
    (hname : o.condition.field = name) : deleteFirst? name ns ≠ none := by
  obtain ⟨n, hn, hon⟩ := List.mem_flatMap.mp ho
  have hmentions : mentions name n = true := mentions_iff.mpr ⟨o, hon, hname⟩
  cases hsplit : splitFirst? (mentions name) ns with
  | none => simp [splitFirst?_eq_none_iff.mp hsplit n hn] at hmentions
  | some parts =>
    obtain ⟨before, hit, after⟩ := parts
    cases hit with
    | leaf c l => simp [deleteFirst?, hsplit]
    | group children l =>
      obtain ⟨-, hhit, -⟩ := splitFirst?_eq_some_iff.mp hsplit
      cases hinner : splitFirst? (isOn name) children with
      | none =>
        obtain ⟨m, hm, hmon⟩ := List.any_eq_true.mp hhit
        simp [splitFirst?_eq_none_iff.mp hinner m hm] at hmon
      | some inner => simp [deleteFirst?, hsplit, hinner]

theorem Level.close {Q : Node Condition → Prop} (hQ : ∀ n k, Q n → Q (n.withConnector k))
    (h : Level Q (before ++ n :: after)) : Level Q (close before n after) := by
  unfold Node.close
  fun_induction relink n.connector before with
  | case1 => exact (level_cons_iff.mp h).2.2
  | case2 m =>
    obtain ⟨hm, -, h⟩ := level_cons_iff.mp h
    obtain ⟨-, hk, h⟩ := level_cons_iff.mp h
    exact level_cons_iff.mpr ⟨hQ m _ hm, by simpa using hk, h⟩
  | case3 m m' before ih =>
    obtain ⟨hm, hk, h⟩ := level_cons_iff.mp h
    refine level_cons_iff.mpr ⟨hm, ?_, ih h⟩
    cases before <;> simpa [relink] using hk

theorem saidAll_close : saidAll (close before n after) = saidAll before ++ saidAll after := by
  rw [close, saidAll_append, saidAll_relink]

theorem sealedAll_relink_iff (h : SealedAll ns) :
    SealedAll (relink k ns) ↔ (k = some .or → ∀ m ∈ ns.getLast?, ¬ m.Open) := by
  fun_induction relink k ns with
  | case1 => simp
  | case2 m =>
    cases m with
    | leaf c l => simp [SealedAll, withConnector, standing, Sealed, Open]
    | group children l => simpa [SealedAll, withConnector, standing, Open] using h
  | case3 m m' ns ih =>
    obtain ⟨hm, hns⟩ := sealedAll_cons.mp h
    rw [sealedAll_cons, ih hns, List.getLast?_cons_cons, and_iff_right hm]

/-- Where nothing ran into a connector before, only the new seam can do so. -/
theorem sealedAll_close_iff (h : SealedAll (before ++ n :: after)) :
    SealedAll (close before n after) ↔ Rejoins before n := by
  obtain ⟨hb, hn⟩ := sealedAll_append.mp h
  rw [close, sealedAll_append, sealedAll_relink_iff hb, Rejoins,
    and_iff_left (sealedAll_cons.mp hn).2]

section Group

variable (hl : ∀ n ∈ children, LeafOf (fun _ _ => True) n)
include hl

/-- A group says what its conditions say by themselves, but inside parentheses. -/
theorem standing_group (k : Option Connector) :
    standing (group children k) = (standingAll children).map ({ · with inGroup := true }) := by
  rw [standing]
  induction children with
  | nil => rfl
  | cons n children ih =>
    obtain ⟨hn, hrest⟩ := List.forall_mem_cons.mp hl
    cases n with
    | group cs l => exact hn.elim
    | leaf c l => simp [ofChild?, standing, ih hrest]

theorem sealedAll_group_iff (k : Option Connector) :
    SealedAll [group children k] ↔ SealedAll children := by
  simp [SealedAll, standing_group hl, Sealed]

theorem said_group (k : Option Connector) :
    (standing (group children k)).map said = (saidAll children).map fun x => (x.1, true) := by
  simp [standing_group hl, saidAll, said]

end Group

/-- The first condition on a field goes and every other one stays, with a single new seam. -/
theorem deleteFirst?_spec {first later : List Occurrence} {old : Occurrence} (hs : Shaped ns)
    (hseal : SealedAll ns) (hstand : standingAll ns = first ++ old :: later)
    (ho : old.condition.field = name) (hb : ∀ o ∈ first, o.condition.field ≠ name) :
    ∃ ms, deleteFirst? name ns = some ms ∧ Shaped ms ∧
      saidAll ms = first.map said ++ later.map said ∧
      (SealedAll ms ↔ DeletesCleanly name ns) := by
  obtain ⟨ms, hms⟩ : ∃ ms, deleteFirst? name ns = some ms :=
    Option.ne_none_iff_exists'.mp (deleteFirst?_ne_none (by simp [hstand]) ho)
  obtain ⟨front, hit, back, b, a, hfront, hhit, rfl, rfl⟩ :=
    splitFirst?_of_flatMap (fun _ => mentions_iff) hstand ho hb
  obtain ⟨rfl, -, -⟩ := splitFirst?_eq_some_iff.mp hfront
  refine ⟨ms, hms, ?_⟩
  rcases deleteFirst?_cases hms with
    ⟨before, unit, after, hsplit, ⟨o, hone⟩, hseam, rfl⟩ |
    ⟨before, children, k, after, inBefore, inHit, inAfter, hsplit, hinner, hseam, hne, rfl⟩
  · obtain ⟨rfl, rfl, rfl⟩ : front = before ∧ hit = unit ∧ back = after := by
      simpa [hfront] using hsplit
    obtain ⟨rfl, -, rfl⟩ : b = [] ∧ old = o ∧ a = [] := by
      simpa [hone, List.singleton_eq_append_iff] using hhit
    refine ⟨hs.close fun _ _ => unitOf_withConnector, ?_, ?_⟩
    · rw [saidAll_close, saidAll, saidAll]
      simp [standingAll]
    · rw [sealedAll_close_iff hseal]
      simp [DeletesCleanly, hseam]
  · obtain ⟨rfl, rfl, rfl⟩ : front = before ∧ hit = group children k ∧ back = after := by
      simpa [hfront] using hsplit
    obtain ⟨inFront, d, l, inBack, hinner', rfl, rfl, rfl⟩ :=
      splitFirst?_of_group hhit ho fun o ho => hb o (List.mem_append_right _ ho)
    obtain ⟨rfl, rfl, rfl⟩ : inBefore = inFront ∧ inHit = leaf d l ∧ inAfter = inBack := by
      simpa [hinner] using hinner'
    obtain ⟨rfl, -, -⟩ := splitFirst?_eq_some_iff.mp hinner
    obtain ⟨-, hlevel⟩ : UnitOf (fun _ _ => True) (group (inBefore ++ leaf d l :: inAfter) k) :=
      hs.2 _ (by simp)
    have hrest : Level (LeafOf fun _ _ => True) (close inBefore (leaf d l) inAfter) := by
      refine hlevel.close fun n k hn => ?_
      cases n <;> exact hn
    refine ⟨Level.replace hs ⟨hne, hrest⟩ rfl, ?_, ?_⟩
    · have hinside : (standing (group (close inBefore (leaf d l) inAfter) k)).map said =
          (inBefore.filterMap ofChild?).map said ++ (inAfter.filterMap ofChild?).map said := by
        have hb : (standing (group inBefore k)).map said = _ :=
          said_group (fun n hn => hlevel.2 n (by simp [hn])) k
        have ha : (standing (group inAfter k)).map said = _ :=
          said_group (fun n hn => hlevel.2 n (by simp [hn])) k
        rw [said_group hrest.2, saidAll_close, List.map_append, ← hb, ← ha]
        rfl
      rw [saidAll_append, saidAll_cons, hinside]
      simp [saidAll, standingAll]
    · obtain ⟨hfront, hunit, hback⟩ : SealedAll front ∧
          SealedAll [group (inBefore ++ leaf d l :: inAfter) k] ∧ SealedAll back := by
        rwa [sealedAll_append, sealedAll_cons] at hseal
      rw [sealedAll_append, sealedAll_cons, sealedAll_group_iff hrest.2,
        sealedAll_close_iff ((sealedAll_group_iff hlevel.2 k).mp hunit)]
      simp [DeletesCleanly, hseam, hfront, hback]

/-- What is left over was there before. -/
theorem saidAll_subset_of_deleted {first later : List Occurrence} {old : Occurrence}
    (hstand : standingAll ns = first ++ old :: later)
    (hsaid : saidAll ms = first.map said ++ later.map said) : saidAll ms ⊆ saidAll ns := by
  rw [hsaid, saidAll, hstand, List.map_append, List.map_cons]
  exact ((List.sublist_cons_self _ _).append_left _).subset

end Node

open Node

theorem Edit.deleteCondition_eq {filter name : Text} {f : Filter} {ns : List (Node Condition)}
    (hf : Filter.parse filter = .ok f) (hn : f.nodes = .ok ns) :
    onText (deleteCondition name) filter = .ok (update f (deleteFirst? name ns)).print := by
  simp [onText, deleteCondition, hf, hn, bind, Except.bind, pure, Except.pure]

/-- All conditions but the deleted one are listed as they were exactly if deleting it brings no bar
next to a `||`: not if the unit that goes stands between `|*` and `||`. -/
theorem deletion_reads_back_iff (filter out name : Text) (before after : List Entry) (old : Entry)
    (h : Edit.onText (Edit.deleteCondition name) filter = .ok out)
    (hl : Reading.conditions filter = .ok (before ++ old :: after)) (ho : old.field = name)
    (hb : ∀ x ∈ before, x.field ≠ name) :
    ∃ f ns, Filter.parse filter = .ok f ∧ f.nodes = .ok ns ∧
      (Reading.Lists out ((before ++ after).map Entry.content) ↔ DeletesCleanly name ns) := by
  obtain ⟨f, hp, h⟩ := bind_eq_ok_iff.mp h
  obtain ⟨f', hf', h⟩ := bind_eq_ok_iff.mp h
  cases h
  obtain ⟨ns, hn, hf'⟩ := bind_eq_ok_iff.mp hf'
  cases hf'
  refine ⟨f, ns, hp, hn, ?_⟩
  obtain ⟨hw, hseal, hsolid⟩ := Filter.writable_nodes hp hn
  obtain ⟨b, o, a, hstand, -, hbc, -, hac, hfield, hfirst⟩ :=
    Reading.exists_first_standing hp hn hl ho hb
  obtain ⟨ms, hms, hs, hsaid, hclean⟩ := deleteFirst?_spec hw.1 hseal hstand hfield hfirst
  have hmem := saidAll_subset_of_deleted hstand hsaid
  have hlists := Reading.lists_withNodes_iff (Filter.parse_eq_ok_iff.mp hp).2.1
    (⟨hs, fun x hx => hw.2 x (hmem hx)⟩ : Writable ms)
  rw [hsaid, List.map_append, hbc, hac, ← List.map_append, ← hsaid] at hlists
  rw [hms, Edit.update, hlists, hclean]
  exact and_iff_right fun x hx => hsolid x (hmem hx)

/-- A bar before a closing parenthesis is safe, although a `||` takes the place of the `*` behind
the group. -/
theorem deletion_reads_back_after_group :
    Edit.onText (Edit.deleteCondition "b".toList) "?(a==1|)*(b==2)||b==3?".toList =
        .ok "?(a==1|)||b==3?".toList ∧
      Reading.Lists "?(a==1|)||b==3?".toList
        [("a".toList, "==".toList, "1|".toList, true),
          ("b".toList, "==".toList, "3".toList, false)] := by
  have hedit : Edit.onText (Edit.deleteCondition "b".toList) "?(a==1|)*(b==2)||b==3?".toList =
      .ok "?(a==1|)||b==3?".toList := by cbv
  have hread : Reading.conditions "?(a==1|)*(b==2)||b==3?".toList = .ok
      ([⟨"a".toList, "==".toList, "1|".toList, true, some .and⟩] ++
        ⟨"b".toList, "==".toList, "2".toList, true, some .or⟩ ::
        [⟨"b".toList, "==".toList, "3".toList, false, none⟩]) := by cbv
  have hparse : Filter.parse "?(a==1|)*(b==2)||b==3?".toList =
      .ok ⟨[], "(a==1|)*(b==2)||b==3".toList, []⟩ := by cbv
  have hnodes : Block.parse .standard "(a==1|)*(b==2)||b==3".toList = .ok
      [.group [.leaf ⟨"a".toList, .eq, "1|".toList⟩ none] (some .and),
        .group [.leaf ⟨"b".toList, .eq, "2".toList⟩ none] (some .or),
        .leaf ⟨"b".toList, .eq, "3".toList⟩ none] := by cbv
  obtain ⟨f, ns, hf, hn, hiff⟩ :=
    deletion_reads_back_iff _ _ _ _ _ _ hedit hread rfl (by decide)
  rw [hparse] at hf
  cases hf
  rw [Filter.nodes, hnodes] at hn
  cases hn
  exact ⟨hedit, hiff.mpr (by decide)⟩

/-- A bar at the end of a value meets the `||` that stood behind the deleted condition: the value
loses its bar, and the next field gains it. -/
theorem deletion_moves_bar :
    Edit.onText (Edit.deleteCondition "count".toList) "ID?ID==1|*count==2||content==3?".toList =
        .ok "ID?ID==1|||content==3?".toList ∧
    Reading.Lists "ID?ID==1|*count==2||content==3?".toList
      [("ID".toList, "==".toList, "1|".toList, false),
        ("count".toList, "==".toList, "2".toList, false),
        ("content".toList, "==".toList, "3".toList, false)] ∧
    Reading.Lists "ID?ID==1|||content==3?".toList
      [("ID".toList, "==".toList, "1".toList, false),
        ("|content".toList, "==".toList, "3".toList, false)] ∧
    ¬ Reading.Lists "ID?ID==1|||content==3?".toList
      [("ID".toList, "==".toList, "1|".toList, false),
        ("content".toList, "==".toList, "3".toList, false)] := by
  have hbefore : Reading.conditions "ID?ID==1|*count==2||content==3?".toList = .ok
      [⟨"ID".toList, "==".toList, "1|".toList, false, some .and⟩,
        ⟨"count".toList, "==".toList, "2".toList, false, some .or⟩,
        ⟨"content".toList, "==".toList, "3".toList, false, none⟩] := by cbv
  have hafter : Reading.conditions "ID?ID==1|||content==3?".toList = .ok
      [⟨"ID".toList, "==".toList, "1".toList, false, some .or⟩,
        ⟨"|content".toList, "==".toList, "3".toList, false, none⟩] := by cbv
  refine ⟨by cbv, ⟨_, hbefore, rfl⟩, ⟨_, hafter, rfl⟩, ?_⟩
  rintro ⟨es, hes, hcontent⟩
  rw [hafter] at hes
  cases hes
  exact absurd hcontent (by decide)

end FilterLang
