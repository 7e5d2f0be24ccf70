import FilterLang.Proofs.Adding
import Mathlib.Data.List.Permutation

/-! A condition replaced in its place, and what is read back of all that was written. -/
namespace FilterLang

open Occurrence Node

variable {f : Filter} {ns ms : List (Node Condition)} {e : Entry} {c : Condition}
  {before after : List Occurrence} {old : Occurrence}

/-- What stands in the place of a condition once an entry has replaced it. Only an entry that brings
its own parentheses is cut off from the connector behind it. -/
def Occurrence.replacedBy (old : Occurrence) (e : Entry) (c : Condition) : Occurrence :=
  ⟨c, old.inGroup || e.inGroup, if e.inGroup && !old.inGroup then none else old.separator⟩

/-- The first condition on a field is the only one by which a list can be split so. -/
theorem Occurrence.first_unique {name : Text} {before' after' : List Occurrence} {old' : Occurrence}
    (h : before ++ old :: after = before' ++ old' :: after')
    (ho : old.condition.field = name) (hb : ∀ o ∈ before, o.condition.field ≠ name)
    (ho' : old'.condition.field = name) (hb' : ∀ o ∈ before', o.condition.field ≠ name) :
    before = before' ∧ old = old' ∧ after = after' := by
  let on : Occurrence → Bool := fun o => o.condition.field = name
  have h₁ : splitFirst? on (before ++ old :: after) = some (before, old, after) :=
    splitFirst?_eq_some_iff.mpr ⟨rfl, by simpa [on] using ho, by simpa [on] using hb⟩
  have h₂ : splitFirst? on (before ++ old :: after) = some (before', old', after') :=
    splitFirst?_eq_some_iff.mpr ⟨h, by simpa [on] using ho', by simpa [on] using hb'⟩
  simpa using h₁.symm.trans h₂

/-- The first unit that has a condition on a field is the one that has the first such condition. -/
theorem Occurrence.splitFirst?_of_flatMap {name : Text} {p : Node Condition → Bool}
    {g : Node Condition → List Occurrence}
    (hp : ∀ n, p n = true ↔ ∃ o ∈ g n, o.condition.field = name)
    (h : ns.flatMap g = before ++ old :: after) (ho : old.condition.field = name)
    (hb : ∀ o ∈ before, o.condition.field ≠ name) :
    ∃ front hit back b a, splitFirst? p ns = some (front, hit, back) ∧ g hit = b ++ old :: a ∧
      before = front.flatMap g ++ b ∧ after = a ++ back.flatMap g := by
  cases hsplit : splitFirst? p ns with
  | none =>
    have hmem : old ∈ ns.flatMap g := by simp [h]
    obtain ⟨n, hn, hold⟩ := List.mem_flatMap.mp hmem
    have hpn : p n = true := (hp n).mpr ⟨old, hold, ho⟩
    simp [splitFirst?_eq_none_iff.mp hsplit n hn] at hpn
  | some parts =>
    obtain ⟨front, hit, back⟩ := parts
    obtain ⟨rfl, hhit, hfront⟩ := splitFirst?_eq_some_iff.mp hsplit
    obtain ⟨x, hx, hxn⟩ := (hp hit).mp hhit
    let on : Occurrence → Bool := fun o => o.condition.field = name
    cases hin : splitFirst? on (g hit) with
    | none => exact absurd hxn (by simpa [on] using splitFirst?_eq_none_iff.mp hin x hx)
    | some inner =>
      obtain ⟨b, o, a⟩ := inner
      obtain ⟨hg, hon, hbn⟩ := splitFirst?_eq_some_iff.mp hin
      have hall : (front.flatMap g ++ b) ++ o :: (a ++ back.flatMap g) =
          before ++ old :: after := by
        rw [← h, List.flatMap_append, List.flatMap_cons, hg]
        simp
      have hfirst : ∀ o ∈ front.flatMap g ++ b, o.condition.field ≠ name := by
        intro o ho hname
        rcases List.mem_append.mp ho with ho | ho
        · obtain ⟨n, hn, hno⟩ := List.mem_flatMap.mp ho
          have hpn : p n = true := (hp n).mpr ⟨o, hno, hname⟩
          simp [hfront n hn] at hpn
        · simpa [on, hname] using hbn o ho
      obtain ⟨rfl, rfl, rfl⟩ := first_unique hall (by simpa [on] using hon) hfirst ho hb
      exact ⟨front, hit, back, b, a, rfl, hg, rfl, rfl⟩

/-- A tree that mentions a field has a first condition on it. -/
theorem Occurrence.exists_first {name : Text} {parts : List (Node Condition) × Node Condition × _}
    (h : splitFirst? (mentions name) ns = some parts) :
    ∃ before old after, standingAll ns = before ++ old :: after ∧ old.condition.field = name ∧
      ∀ o ∈ before, o.condition.field ≠ name := by
  obtain ⟨front, hit, back⟩ := parts
  obtain ⟨rfl, hhit, -⟩ := splitFirst?_eq_some_iff.mp h
  obtain ⟨x, hx, hname⟩ := mentions_iff.mp hhit
  let on : Occurrence → Bool := fun o => o.condition.field = name
  cases hfirst : splitFirst? on (standingAll (front ++ hit :: back)) with
  | none =>
    have hoff : on x = false := splitFirst?_eq_none_iff.mp hfirst x (by simp [hx])
    simp [on, hname] at hoff
  | some found =>
    obtain ⟨before, old, after⟩ := found
    obtain ⟨hstand, hon, hoff⟩ := splitFirst?_eq_some_iff.mp hfirst
    exact ⟨before, old, after, hstand, by simpa [on] using hon, by simpa [on] using hoff⟩

/-- Inside a group the first condition on a field is a member by itself. -/
theorem Occurrence.splitFirst?_of_group {name : Text} {children : List (Node Condition)}
    {k : Option Connector} (h : standing (group children k) = before ++ old :: after)
    (ho : old.condition.field = name) (hb : ∀ o ∈ before, o.condition.field ≠ name) :
    ∃ front c l back, splitFirst? (isOn name) children = some (front, leaf c l, back) ∧
      old = ⟨c, true, l⟩ ∧ before = front.filterMap ofChild? ∧
      after = back.filterMap ofChild? := by
  have hinner : children.flatMap (fun n => (ofChild? n).toList) = before ++ old :: after := by
    rw [← List.filterMap_eq_flatMap_toList]
    exact h
  obtain ⟨front, hit, back, b, a, hsplit, hhit, rfl, rfl⟩ :=
    splitFirst?_of_flatMap (p := isOn name) (by simp [isOn_iff]) hinner ho hb
  cases hit with
  | group cs l => simp [ofChild?] at hhit
  | leaf c l =>
    obtain ⟨rfl, hold, rfl⟩ : b = [] ∧ old = ⟨c, true, l⟩ ∧ a = [] := by
      simpa [ofChild?, List.singleton_eq_append_iff] using hhit
    simp only [← List.filterMap_eq_flatMap_toList, List.append_nil, List.nil_append]
    exact ⟨front, c, l, back, hsplit, hold, rfl, rfl⟩

/-- A unit can make way for another that says the same but for one condition. -/
theorem Occurrence.standingAll_replace {front back : List (Node Condition)} {m n : Node Condition}
    {b a : List Occurrence} {new : Occurrence} (hs : Shaped (front ++ n :: back))
    (hu : UnitOf (fun _ _ => True) m) (hk : m.connector = n.connector)
    (hm : standing m = b ++ new :: a) :
    Shaped (front ++ m :: back) ∧
      standingAll (front ++ m :: back) =
        (standingAll front ++ b) ++ new :: (a ++ standingAll back) :=
  ⟨Level.replace hs hu hk, by simp [hm]⟩

/-- The entry takes the place of the first condition on its field, and nothing else changes. -/
theorem Entry.replaceFirst?_eq_ok {r : Option (List (Node Condition))} (hs : Shaped ns)
    (hstand : standingAll ns = before ++ old :: after) (ho : old.condition.field = e.field)
    (hb : ∀ o ∈ before, o.condition.field ≠ e.field) (h : e.replaceFirst? ns = .ok r) :
    ∃ ms c, r = some ms ∧ e.toCondition = .ok c ∧ Shaped ms ∧
      standingAll ms = before ++ old.replacedBy e c :: after := by
  obtain ⟨front, hit, back, b, a, hsplit, hhit, rfl, rfl⟩ :=
    splitFirst?_of_flatMap (fun _ => mentions_iff) hstand ho hb
  obtain ⟨rfl, -, -⟩ := splitFirst?_eq_some_iff.mp hsplit
  unfold replaceFirst? at h
  rw [hsplit] at h
  cases hit with
  | leaf d k =>
    obtain ⟨n, hn, h⟩ := bind_eq_ok_iff.mp h
    cases h
    obtain ⟨c, hc, rfl⟩ := Entry.toNode_eq_ok_iff.mp hn
    obtain ⟨rfl, rfl, rfl⟩ : b = [] ∧ old = ⟨d, false, k⟩ ∧ a = [] := by
      simpa [standing, List.singleton_eq_append_iff] using hhit
    have hnew : standing (single e.inGroup c k) =
        [] ++ Occurrence.replacedBy ⟨d, false, k⟩ e c :: [] := by
      simp [standing_single, replacedBy]
    obtain ⟨hshape, hstand⟩ := standingAll_replace hs unitOf_single connector_single hnew
    exact ⟨_, c, rfl, hc, hshape, hstand⟩
  | group children k =>
    have hfirst : ∀ o ∈ b, o.condition.field ≠ e.field :=
      fun o ho => hb o (List.mem_append_right _ ho)
    obtain ⟨inFront, d, l, inBack, hsplit', rfl, rfl, rfl⟩ := splitFirst?_of_group hhit ho hfirst
    obtain ⟨rfl, -, -⟩ := splitFirst?_eq_some_iff.mp hsplit'
    dsimp only at h
    rw [hsplit'] at h
    obtain ⟨c, hc, h⟩ := bind_eq_ok_iff.mp h
    cases h
    have hu : UnitOf (fun _ _ => True) (group (inFront ++ leaf c l :: inBack) k) := by
      have hold : UnitOf (fun _ _ => True) (group (inFront ++ leaf d l :: inBack) k) :=
        hs.2 _ (by simp)
      exact ⟨by simp, Level.replace (m := leaf c l) hold.2 trivial rfl⟩
    have hnew : standing (group (inFront ++ leaf c l :: inBack) k) =
        inFront.filterMap ofChild? ++ Occurrence.replacedBy ⟨d, true, l⟩ e c ::
          inBack.filterMap ofChild? := by
      simp [standing, replacedBy, ofChild?]
    obtain ⟨hshape, hstand⟩ := standingAll_replace hs hu rfl hnew
    exact ⟨_, c, rfl, hc, hshape, hstand⟩

/-- The connector right behind a condition of the filter, counted from the first. A parenthesis that
closes there is none. -/
def Reading.behind (filter : Text) (i : Nat) : Option Connector :=
  match Filter.parse filter >>= Filter.nodes with
  | .ok ns => (standingAll ns)[i]?.bind separator
  | .error _ => none

/-- An entry can stand in the place of a condition. Only parentheses of its own keep a bar at its
end from a `||` behind it. -/
def Entry.FitsFor (e old : Entry) (k : Option Connector) : Prop :=
  k = some .or → e.text.getLast? = some '|' → e.inGroup = true ∧ old.inGroup = false

instance (e old : Entry) (k : Option Connector) : Decidable (e.FitsFor old k) :=
  inferInstanceAs (Decidable (_ → _))

theorem Occurrence.sealed_replacedBy_iff {x : Entry} (hc : e.toCondition = .ok c)
    (hg : old.inGroup = x.inGroup) : (old.replacedBy e c).Sealed ↔ e.FitsFor x old.separator := by
  rw [Entry.FitsFor, ← Entry.print_of_toCondition hc, ← hg]
  cases he : e.inGroup <;> cases ho : old.inGroup <;> simp [Sealed, replacedBy, he, ho]

theorem Node.Writable.replaced (hw : Writable ns) (hstand : standingAll ns = before ++ old :: after)
    (hc : e.toCondition = .ok c) (hs : Shaped ms)
    (hms : standingAll ms = before ++ old.replacedBy e c :: after) : Writable ms := by
  refine ⟨hs, ?_⟩
  have hall := hw.2
  simp only [saidAll, hstand, List.map_append, List.map_cons, List.forall_mem_append,
    List.forall_mem_cons] at hall
  simp only [saidAll, hms, List.map_append, List.map_cons, List.forall_mem_append,
    List.forall_mem_cons]
  exact ⟨hall.1, (Entry.toCondition_eq_ok hc false).2, hall.2.2⟩

/-- A tree in which an entry stands in the place of a condition is read as such exactly if the entry
has no blank and fits there. -/
theorem lists_replaced_iff {x : Entry} (hf : '?' ∉ f.fields) (hw : Writable ns)
    (hseal : SealedAll ns) (hsolid : ∀ x ∈ saidAll ns, x.1.print.Solid)
    (hstand : standingAll ns = before ++ old :: after) (hg : old.inGroup = x.inGroup)
    (hc : e.toCondition = .ok c) (hs : Shaped ms)
    (hms : standingAll ms = before ++ old.replacedBy e c :: after) :
    Reading.Lists (f.withNodes ms).print ((before.map said).map contentOf ++
        (e.field, e.operator, e.value, x.inGroup || e.inGroup) :: (after.map said).map contentOf) ↔
      e.text.Solid ∧ e.FitsFor x old.separator := by
  obtain ⟨hcontent, -⟩ := Entry.toCondition_eq_ok hc (x.inGroup || e.inGroup)
  have hsaid : saidAll ns = before.map said ++ old.said :: after.map said := by
    simp [saidAll, hstand]
  have hsaid' : saidAll ms = before.map said ++ (c, x.inGroup || e.inGroup) :: after.map said := by
    simp [saidAll, hms, replacedBy, said, hg]
  simp only [hsaid, List.forall_mem_append, List.forall_mem_cons] at hsolid
  simp only [SealedAll, hstand, List.forall_mem_append, List.forall_mem_cons] at hseal
  have hlists := Reading.lists_withNodes_iff hf (hw.replaced hstand hc hs hms)
  simp only [hsaid', List.map_append, List.map_cons, hcontent, SealedAll, hms,
    List.forall_mem_append, List.forall_mem_cons, Entry.print_of_toCondition hc,
    sealed_replacedBy_iff hc hg] at hlists
  rw [hlists]
  constructor
  · rintro ⟨⟨-, hsol, -⟩, -, hfit, -⟩
    exact ⟨hsol, hfit⟩
  · rintro ⟨hsol, hfit⟩
    exact ⟨⟨hsolid.1, hsol, hsolid.2.2⟩, hseal.1, hfit, hseal.2.2⟩

/-- What is listed from a filter splits as its tree does. -/
theorem Reading.exists_standing {filter : Text} {before after : List Entry} {old : Entry}
    (hp : Filter.parse filter = .ok f) (hn : f.nodes = .ok ns)
    (h : conditions filter = .ok (before ++ old :: after)) :
    ∃ b o a, standingAll ns = b ++ o :: a ∧ behind filter before.length = o.separator ∧
      (b.map said).map contentOf = before.map Entry.content ∧ contentOf o.said = old.content ∧
      (a.map said).map contentOf = after.map Entry.content := by
  rw [conditions_eq_ok hp hn] at h
  have hmap : ((standingAll ns).map said).map contentOf =
      before.map Entry.content ++ old.content :: after.map Entry.content := by
    rw [← List.map_cons, ← List.map_append, ← Except.ok.inj h]
    exact (map_content_ofNodes ns).symm
  rw [List.map_map] at hmap
  obtain ⟨b, rest, hsplit, hb, hrest⟩ := List.map_eq_append_iff.mp hmap
  obtain ⟨o, a, rfl, ho, ha⟩ := List.map_eq_cons_iff.mp hrest
  refine ⟨b, o, a, hsplit, ?_, by rw [List.map_map, hb], ho, by rw [List.map_map, ha]⟩
  have hlen : b.length = before.length := by simpa using congrArg List.length hb
  simp [behind, hp, hn, hsplit, ← hlen, bind, Except.bind]

/-- The first listed condition on a field is the first one on it in the tree. -/
theorem Reading.exists_first_standing {filter name : Text} {before after : List Entry} {old : Entry}
    (hp : Filter.parse filter = .ok f) (hn : f.nodes = .ok ns)
    (h : conditions filter = .ok (before ++ old :: after)) (ho : old.field = name)
    (hb : ∀ x ∈ before, x.field ≠ name) :
    ∃ b o a, standingAll ns = b ++ o :: a ∧ behind filter before.length = o.separator ∧
      (b.map said).map contentOf = before.map Entry.content ∧ o.inGroup = old.inGroup ∧
      (a.map said).map contentOf = after.map Entry.content ∧ o.condition.field = name ∧
      ∀ x ∈ b, x.condition.field ≠ name := by
  obtain ⟨b, o, a, hstand, hbehind, hbc, hoc, hac⟩ := exists_standing hp hn h
  obtain ⟨hfield, -, -, hgroup⟩ :
      o.condition.field = old.field ∧ _ ∧ _ ∧ o.inGroup = old.inGroup := by
    simpa [contentOf, said, Entry.content] using hoc
  refine ⟨b, o, a, hstand, hbehind, hbc, hgroup, hac, hfield.trans ho, ?_⟩
  intro x hx hname
  have hmem : contentOf x.said ∈ before.map Entry.content := by
    rw [← hbc]
    exact List.mem_map_of_mem (List.mem_map_of_mem hx)
  obtain ⟨y, hy, hxy⟩ := List.mem_map.mp hmem
  exact hb y hy ((congrArg Prod.fst hxy).trans hname)

/-- An entry that replaced a condition is listed in its place, and all others unchanged, exactly if
it has no blank and fits there. -/
theorem lists_replaceCondition_iff {filter out : Text} {before after : List Entry} {old : Entry}
    (h : Edit.onText (Edit.replaceCondition e) filter = .ok out)
    (hl : Reading.conditions filter = .ok (before ++ old :: after)) (ho : old.field = e.field)
    (hb : ∀ x ∈ before, x.field ≠ e.field) :
    Reading.Lists out (before.map Entry.content ++
        (e.field, e.operator, e.value, old.inGroup || e.inGroup) :: after.map Entry.content) ↔
      e.text.Solid ∧ e.FitsFor old (Reading.behind filter before.length) := by
  obtain ⟨f, hp, h⟩ := bind_eq_ok_iff.mp h
  obtain ⟨f', hf', h⟩ := bind_eq_ok_iff.mp h
  cases h
  obtain ⟨ns, hn, hf'⟩ := bind_eq_ok_iff.mp hf'
  obtain ⟨r, hr, hf'⟩ := bind_eq_ok_iff.mp hf'
  cases hf'
  obtain ⟨hw, hseal, hsolid⟩ := Filter.writable_nodes hp hn
  obtain ⟨b, o, a, hstand, hbehind, hbc, hgroup, hac, hfield, hfirst⟩ :=
    Reading.exists_first_standing hp hn hl ho hb
  obtain ⟨ms, c, rfl, hc, hs, hms⟩ := Entry.replaceFirst?_eq_ok hw.1 hstand hfield hfirst hr
  rw [hbehind, ← hbc, ← hac]
  have hq := (Filter.parse_eq_ok_iff.mp hp).2.1
  exact lists_replaced_iff hq hw hseal hsolid hstand hgroup hc hs hms

/-- What was written is read back, in full and in its place, exactly if no written text has a blank
and none ends in a bar right before a `||`. -/
theorem written_reads_back_iff (filter out : Text) :
    (∀ (entries : List Entry) (replace leading : Bool),
      Edit.onText (Edit.addConditions entries replace leading) filter = .ok out →
        ∃ before, Reading.conditions filter = .ok before ∧
          let kept := if replace && !entries.isEmpty then [] else before
          let added := entries.filter (!·.field.isEmpty)
          (Reading.Lists out
              ((if leading then added ++ kept else kept ++ added).map Entry.content) ↔
            (∀ e ∈ added, e.text.Solid) ∧ Entry.FitIn leading kept added)) ∧
    ∀ (e old : Entry) (before after : List Entry),
      Edit.onText (Edit.replaceCondition e) filter = .ok out →
      Reading.conditions filter = .ok (before ++ old :: after) →
      old.field = e.field → (∀ x ∈ before, x.field ≠ e.field) →
        (Reading.Lists out (before.map Entry.content ++
            (e.field, e.operator, e.value, old.inGroup || e.inGroup) :: after.map Entry.content) ↔
          e.text.Solid ∧ e.FitsFor old (Reading.behind filter before.length)) :=
  ⟨fun _ _ _ h => lists_addConditions_iff h,
    fun _ _ _ _ h hl ho hb => lists_replaceCondition_iff h hl ho hb⟩

/-- A bar at the end of a condition is safe before `*`, and one before a closing parenthesis is safe
even where a `||` follows the group. -/
theorem written_reads_back_after_bar :
    (Edit.onText (Edit.addConditions
        [⟨"c".toList, "==".toList, "3|".toList, false, some .or⟩,
          ⟨[], "==".toList, "1".toList, false, none⟩,
          ⟨"d".toList, ">".toList, "4".toList, true, none⟩] false false)
        "x?(a==1||b==2)?".toList = .ok "x?(a==1||b==2)||c==3|*(d>4)?".toList ∧
      Reading.Lists "x?(a==1||b==2)||c==3|*(d>4)?".toList
        [("a".toList, "==".toList, "1".toList, true), ("b".toList, "==".toList, "2".toList, true),
          ("c".toList, "==".toList, "3|".toList, false),
          ("d".toList, ">".toList, "4".toList, true)]) ∧
    Edit.onText (Edit.replaceCondition ⟨"b".toList, "==".toList, "9|".toList, false, none⟩)
        "?(a==1||b==2)||c==3?".toList = .ok "?(a==1||b==9|)||c==3?".toList ∧
      Reading.Lists "?(a==1||b==9|)||c==3?".toList
        [("a".toList, "==".toList, "1".toList, true), ("b".toList, "==".toList, "9|".toList, true),
          ("c".toList, "==".toList, "3".toList, false)] := by
  refine ⟨⟨by cbv, ?_⟩, by cbv, ?_⟩
  · have hread : Reading.conditions "x?(a==1||b==2)?".toList = .ok
        [⟨"a".toList, "==".toList, "1".toList, true, some .or⟩,
          ⟨"b".toList, "==".toList, "2".toList, true, none⟩] := by cbv
    obtain ⟨before, hbefore, hiff⟩ :=
      (written_reads_back_iff "x?(a==1||b==2)?".toList "x?(a==1||b==2)||c==3|*(d>4)?".toList).1
        [⟨"c".toList, "==".toList, "3|".toList, false, some .or⟩,
          ⟨[], "==".toList, "1".toList, false, none⟩,
          ⟨"d".toList, ">".toList, "4".toList, true, none⟩] false false (by cbv)
    rw [hread] at hbefore
    cases hbefore
    exact hiff.mpr ⟨by decide, by decide⟩
  · have hbehind : Reading.behind "?(a==1||b==2)||c==3?".toList 1 = none := by cbv
    refine ((written_reads_back_iff "?(a==1||b==2)||c==3?".toList _).2
      ⟨"b".toList, "==".toList, "9|".toList, false, none⟩
      ⟨"b".toList, "==".toList, "2".toList, true, some .or⟩
      [⟨"a".toList, "==".toList, "1".toList, true, some .or⟩]
      [⟨"c".toList, "==".toList, "3".toList, false, none⟩]
      (by cbv) (by cbv) rfl (by decide)).mpr ⟨by decide, ?_⟩
    exact hbehind.symm ▸ by decide

/-- A blank between two bars passes the check and is gone when the filter is read: one condition
that was written becomes two. -/
theorem blank_splits_condition :
    Edit.onText (Edit.addConditions
        [⟨"ID".toList, "==".toList, "1| |count==2".toList, false, none⟩] false false)
        "ID??".toList = .ok "ID?ID==1| |count==2?".toList ∧
    Reading.Lists "ID?ID==1| |count==2?".toList
      [("ID".toList, "==".toList, "1".toList, false),
        ("count".toList, "==".toList, "2".toList, false)] ∧
    ¬ Reading.Lists "ID?ID==1| |count==2?".toList
      [("ID".toList, "==".toList, "1| |count==2".toList, false)] := by
  have hread : Reading.conditions "ID?ID==1| |count==2?".toList = .ok
      [⟨"ID".toList, "==".toList, "1".toList, false, some .or⟩,
        ⟨"count".toList, "==".toList, "2".toList, false, none⟩] := by cbv
  refine ⟨by cbv, ⟨_, hread, rfl⟩, ?_⟩
  rintro ⟨es, hes, hcontent⟩
  rw [hread] at hes
  cases hes
  exact absurd hcontent (by simp)

end FilterLang
