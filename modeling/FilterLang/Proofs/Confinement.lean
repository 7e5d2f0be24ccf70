import FilterLang.Proofs.Deleting
import FilterLang.Proofs.Sources
import Mathlib.Data.List.DropRight

/-! What a write leaves alone. The first two question marks of a filter are all that keeps its parts
from each other, so no write may bring another one into the first two parts. -/
namespace FilterLang

variable {f g : Filter} {ns ms : List (Node Condition)} {r : Resolver} {s t : Text}

theorem Text.trim_sublist (s : Text) : s.trim.Sublist s :=
  (List.rdropWhile_prefix isBlank (s.dropWhile isBlank)).sublist.trans (List.dropWhile_sublist _)

/-- The three blocks of a filter. -/
inductive Filter.Part where
  | fields
  | conditions
  | restrictions
  deriving DecidableEq

namespace Filter

def part (f : Filter) : Part → Text
  | .fields => f.fields
  | .conditions => f.conditions
  | .restrictions => f.restrictions

def withPart (f : Filter) (s : Text) : Part → Filter
  | .fields => { f with fields := s }
  | .conditions => { f with conditions := s }
  | .restrictions => { f with restrictions := s }

/-- A filter that has no more than one part of another. -/
def only (f : Filter) (p : Part) : Filter := withPart ⟨[], [], []⟩ (f.part p) p

theorem part_withPart_self (f : Filter) (s : Text) (p : Part) : (f.withPart s p).part p = s := by
  cases p <;> rfl

theorem part_withPart_of_ne {p q : Part} (h : p ≠ q) (f : Filter) (s : Text) :
    (f.withPart s q).part p = f.part p := by
  cases p <;> cases q <;> simp_all [withPart, part]

/-- The parts of the filter are what its text splits into. -/
def Whole (f : Filter) : Prop := '?' ∉ f.fields ∧ '?' ∉ f.conditions

theorem split_eq_ok_iff_whole : split s = .ok f ↔ f.print = s ∧ f.Whole := by
  rw [split_eq_ok_iff, parse_eq_ok_iff, Whole]

theorem Whole.writable_nodes (hf : f.Whole) (hn : f.nodes = .ok ns) :
    Node.Writable ns ∧ Node.SealedAll ns := by
  obtain ⟨hw, hseal, -⟩ := Filter.writable_nodes (parse_eq_ok_iff.mpr ⟨rfl, hf⟩) hn
  exact ⟨hw, hseal⟩

theorem whole_withNodes (hf : f.Whole) (hw : Node.Writable ns) : (f.withNodes ns).Whole :=
  ⟨hf.1, hw.mark_notMem⟩

end Filter

/-- Every change to a filter, with its arguments. -/
inductive Write where
  | addFields (r : Resolver) (names : List Text) (replace : Bool)
  | addConditions (entries : List Entry) (replace leading : Bool)
  | replaceCondition (e : Entry)
  | deleteCondition (name : Text)
  | addRestrictions (sortFields sortOrder limit offset : Text)

namespace Write

def edit : Write → Filter → Except Error Filter
  | addFields r names replace, f => .ok (Edit.addFields r names replace f)
  | addConditions entries replace leading, f => Edit.addConditions entries replace leading f
  | replaceCondition e, f => Edit.replaceCondition e f
  | deleteCondition name, f => Edit.deleteCondition name f
  | addRestrictions sortFields sortOrder limit offset, f =>
    Edit.addRestrictions sortFields sortOrder limit offset f

/-- The part that a write is about. -/
def part : Write → Filter.Part
  | addFields _ _ _ => .fields
  | addConditions _ _ _ | replaceCondition _ | deleteCondition _ => .conditions
  | addRestrictions _ _ _ _ => .restrictions

/-- The model behind a write knows no name with a question mark in it. -/
def Trusted : Write → Prop
  | addFields r _ _ => ∀ name, (r.resolve name).isSome → '?' ∉ name
  | _ => True

/-- Takes one write. One that fails leaves the filter as it was. -/
def apply (filter : Text) (w : Write) : Text :=
  match Edit.onText w.edit filter with
  | .ok out => out
  | .error _ => filter

def run (ws : List Write) (filter : Text) : Text := ws.foldl apply filter

end Write

theorem Entry.writable_of_replaceFirst? {e : Entry} (hw : Node.Writable ns)
    (h : e.replaceFirst? ns = .ok (some ms)) : Node.Writable ms := by
  cases hsplit : Node.splitFirst? (Node.mentions e.field) ns with
  | none => simp [replaceFirst?, hsplit] at h
  | some parts =>
    obtain ⟨before, old, after, hstand, ho, hb⟩ := Occurrence.exists_first hsplit
    obtain ⟨_, c, hms, hc, hs, hnew⟩ := replaceFirst?_eq_ok hw.1 hstand ho hb h
    cases hms
    exact hw.replaced hstand hc hs hnew

theorem Node.writable_of_deleteFirst? {name : Text} (hw : Writable ns) (hseal : SealedAll ns)
    (h : deleteFirst? name ns = some ms) : Writable ms := by
  cases hsplit : splitFirst? (mentions name) ns with
  | none => simp [deleteFirst?, hsplit] at h
  | some parts =>
    obtain ⟨before, old, after, hstand, ho, hb⟩ := Occurrence.exists_first hsplit
    obtain ⟨_, hms, hs, hsaid, -⟩ := deleteFirst?_spec hw.1 hseal hstand ho hb
    rw [h] at hms
    cases hms
    exact ⟨hs, fun x hx => hw.2 x (saidAll_subset_of_deleted hstand hsaid hx)⟩

namespace Edit

/-- Every name in the select block was there before or is known to the model. -/
theorem mem_appendNames {selected names : List Text} (h : s ∈ appendNames r selected names) :
    s ∈ selected ∨ (r.resolve s).isSome := by
  unfold appendNames at h
  induction names generalizing selected with
  | nil => exact .inl h
  | cons name names ih =>
    rcases ih h with h | h
    · dsimp only at h
      split at h
      · next hknown =>
        rcases List.mem_append.mp h with h | h
        · exact .inl h
        · obtain rfl := List.mem_singleton.mp h
          exact .inr (Bool.and_eq_true_iff.mp hknown).1
      · exact .inl h
    · exact .inr h

theorem mark_notMem_intercalate {names : List Text} (h : ∀ name ∈ names, '?' ∉ name) :
    '?' ∉ [','].intercalate names := by
  induction names with
  | nil => simp
  | cons name names ih =>
    obtain ⟨hname, hnames⟩ := List.forall_mem_cons.mp h
    cases names with
    | nil => simpa using hname
    | cons next names =>
      rw [List.intercalate_cons_cons]
      simp [hname, ih hnames]

theorem mark_of_mem_names {name : Text} (hn : name ∈ Selection.names s) (h : '?' ∈ name) :
    '?' ∈ s := by
  obtain ⟨part, hpart, rfl⟩ := List.mem_map.mp hn
  exact (Text.infix_of_mem_splitOn hpart).subset ((Text.trim_sublist part).subset h)

theorem whole_addFields {names : List Text} {replace : Bool}
    (hr : ∀ name, (r.resolve name).isSome → '?' ∉ name) (hf : f.Whole) :
    (addFields r names replace f).Whole := by
  refine ⟨mark_notMem_intercalate ?_, hf.2⟩
  intro name hname
  rcases mem_appendNames hname with hname | hname
  · cases replace with
    | true => cases hname
    | false => exact fun h => hf.1 (mark_of_mem_names (List.mem_of_mem_filter hname) h)
  · exact hr name hname

theorem whole_addConditions {entries : List Entry} {replace leading : Bool} (hf : f.Whole)
    (h : addConditions entries replace leading f = .ok g) : g.Whole := by
  obtain ⟨ns, hn, h⟩ := bind_eq_ok_iff.mp h
  by_cases hempty : entries = []
  · subst hempty
    cases h
    exact hf
  · simp only [List.isEmpty_iff, hempty, if_false] at h
    obtain ⟨added, hadded, h⟩ := bind_eq_ok_iff.mp h
    cases h
    have hadds := Entry.forall₂_adds hadded
    have hkept : Node.Writable (if replace then [] else ns) := by
      cases replace with
      | true => exact Node.writable_nil
      | false => exact (hf.writable_nodes hn).1
    apply Filter.whole_withNodes hf
    cases leading with
    | true => exact hkept.putBefore hadds
    | false => exact hkept.putAfter hadds

theorem whole_replaceCondition {e : Entry} (hf : f.Whole) (h : replaceCondition e f = .ok g) :
    g.Whole := by
  obtain ⟨ns, hn, h⟩ := bind_eq_ok_iff.mp h
  obtain ⟨o, ho, h⟩ := bind_eq_ok_iff.mp h
  cases h
  cases o with
  | none => exact hf
  | some ms =>
    have hw := (hf.writable_nodes hn).1
    exact Filter.whole_withNodes hf (Entry.writable_of_replaceFirst? hw ho)

theorem whole_deleteCondition {name : Text} (hf : f.Whole) (h : deleteCondition name f = .ok g) :
    g.Whole := by
  obtain ⟨ns, hn, h⟩ := bind_eq_ok_iff.mp h
  cases h
  cases hd : Node.deleteFirst? name ns with
  | none => exact hf
  | some ms =>
    obtain ⟨hw, hseal⟩ := hf.writable_nodes hn
    exact Filter.whole_withNodes hf (Node.writable_of_deleteFirst? hw hseal hd)

end Edit

namespace Write

/-- A write reads and changes one part of a filter, as if the others were not there. -/
theorem edit_eq (w : Write) (f : Filter) :
    w.edit f = (w.edit (f.only w.part)).map fun g => f.withPart (g.part w.part) w.part := by
  cases w with
  | addFields r names replace => rfl
  | addConditions entries replace leading =>
    have hn : (f.only .conditions).nodes = f.nodes := rfl
    simp only [edit, part, Edit.addConditions, hn, bind, Except.bind]
    cases f.nodes with
    | error e => rfl
    | ok ns =>
      by_cases hempty : entries.isEmpty
      · simp only [hempty, if_true]
        rfl
      · cases Entry.additions entries <;> simp only [hempty] <;> rfl
  | replaceCondition e =>
    have hn : (f.only .conditions).nodes = f.nodes := rfl
    simp only [edit, part, Edit.replaceCondition, hn, bind, Except.bind]
    cases f.nodes with
    | error e => rfl
    | ok ns =>
      dsimp only
      cases e.replaceFirst? ns with
      | error e => rfl
      | ok o => cases o <;> rfl
  | deleteCondition name =>
    have hn : (f.only .conditions).nodes = f.nodes := rfl
    simp only [edit, part, Edit.deleteCondition, hn, bind, Except.bind]
    cases f.nodes with
    | error e => rfl
    | ok ns =>
      dsimp only
      cases Node.deleteFirst? name ns <;> rfl
  | addRestrictions sortFields sortOrder limit offset =>
    have hr : (f.only .restrictions).restrictions = f.restrictions := rfl
    simp only [edit, part, Edit.addRestrictions, hr, bind, Except.bind]
    cases Positions.parse f.restrictions <;> rfl

variable {w : Write} {p : Filter.Part}

theorem edit_eq_ok_iff :
    w.edit f = .ok g ↔
      ∃ h, w.edit (f.only w.part) = .ok h ∧ f.withPart (h.part w.part) w.part = g := by
  rw [edit_eq]
  cases w.edit (f.only w.part) <;> simp [Except.map]

theorem edit_frame (h : w.edit f = .ok g) (hp : p ≠ w.part) : g.part p = f.part p := by
  obtain ⟨_, _, rfl⟩ := edit_eq_ok_iff.mp h
  exact Filter.part_withPart_of_ne hp f _

/-- No write ends a part early. -/
theorem edit_whole (hw : w.Trusted) (hf : f.Whole) (h : w.edit f = .ok g) : g.Whole := by
  cases w with
  | addFields r names replace =>
    cases h
    exact Edit.whole_addFields hw hf
  | addConditions => exact Edit.whole_addConditions hf h
  | replaceCondition => exact Edit.whole_replaceCondition hf h
  | deleteCondition => exact Edit.whole_deleteCondition hf h
  | addRestrictions =>
    obtain ⟨_, _, h⟩ := bind_eq_ok_iff.mp h
    cases h
    exact hf

theorem onText_eq_ok_iff :
    Edit.onText w.edit s = .ok t ↔
      ∃ f g, Filter.split s = .ok f ∧ w.edit f = .ok g ∧ g.print = t := by
  constructor
  · intro h
    obtain ⟨f, hf, h⟩ := bind_eq_ok_iff.mp h
    obtain ⟨g, hg, h⟩ := bind_eq_ok_iff.mp h
    cases h
    exact ⟨f, g, Filter.split_eq_ok_iff.mpr hf, hg, rfl⟩
  · rintro ⟨f, g, hf, hg, rfl⟩
    exact bind_eq_ok_iff.mpr ⟨f, Filter.split_eq_ok_iff.mp hf, bind_eq_ok_iff.mpr ⟨g, hg, rfl⟩⟩

/-- A write on the blocks, as `apply` takes it on the text. -/
def step (f : Filter) (w : Write) : Filter :=
  match w.edit f with
  | .ok g => g
  | .error _ => f

theorem split_apply (hw : w.Trusted) (hf : Filter.split s = .ok f) :
    Filter.split (apply s w) = .ok (step f w) := by
  obtain ⟨hprint, hwhole⟩ := Filter.split_eq_ok_iff_whole.mp hf
  unfold apply step
  cases hg : w.edit f with
  | ok g =>
    have hout : Edit.onText w.edit s = .ok g.print := onText_eq_ok_iff.mpr ⟨f, g, hf, hg, rfl⟩
    rw [hout]
    exact Filter.split_eq_ok_iff_whole.mpr ⟨rfl, edit_whole hw hwhole hg⟩
  | error e =>
    cases hout : Edit.onText w.edit s with
    | error e => exact hf
    | ok out =>
      obtain ⟨f', g, hf', hg', -⟩ := onText_eq_ok_iff.mp hout
      rw [hf] at hf'
      cases hf'
      rw [hg] at hg'
      cases hg'

theorem split_run {ws : List Write} (hw : ∀ w ∈ ws, w.Trusted) (hf : Filter.split s = .ok f) :
    Filter.split (run ws s) = .ok (ws.foldl step f) := by
  induction ws generalizing s f with
  | nil => exact hf
  | cons w ws ih =>
    obtain ⟨hw, hws⟩ := List.forall_mem_cons.mp hw
    exact ih hws (split_apply hw hf)

theorem step_part_of_ne (hp : p ≠ w.part) : (step f w).part p = f.part p := by
  unfold step
  cases h : w.edit f with
  | ok g => exact edit_frame h hp
  | error e => rfl

/-- What a write makes of its part does not depend on the others. -/
theorem step_part_congr (h : f.part p = g.part p) (hp : w.part = p) :
    (step f w).part p = (step g w).part p := by
  subst hp
  have honly : f.only w.part = g.only w.part := by rw [Filter.only, Filter.only, h]
  unfold step
  rw [edit_eq w f, edit_eq w g, honly]
  cases w.edit (g.only w.part) with
  | ok k => simp only [Except.map, Filter.part_withPart_self]
  | error e => exact h

/-- A part goes through the writes that are about it, and through no others. -/
theorem foldl_step_part (ws : List Write) (h : f.part p = g.part p) :
    (ws.foldl step f).part p = ((ws.filter (·.part = p)).foldl step g).part p := by
  induction ws generalizing f g with
  | nil => exact h
  | cons w ws ih =>
    by_cases hp : w.part = p
    · rw [List.filter_cons_of_pos (by simpa using hp)]
      exact ih (step_part_congr h hp)
    · rw [List.filter_cons_of_neg (by simpa using hp)]
      apply ih
      rw [step_part_of_ne (Ne.symm hp), h]

end Write

/-- A write that succeeds leaves the other two parts as they were, character for character. Over any
sequence of writes, each part ends as if only the writes about it had been made. -/
theorem writes_stay_in_part :
    (∀ (w : Write) (filter out : Text), w.Trusted → Edit.onText w.edit filter = .ok out →
      ∃ f g, Filter.split filter = .ok f ∧ Filter.split out = .ok g ∧
        ∀ p ≠ w.part, g.part p = f.part p) ∧
    ∀ (ws : List Write) (filter : Text) (f : Filter), (∀ w ∈ ws, w.Trusted) →
      Filter.split filter = .ok f →
      ∃ g, Filter.split (Write.run ws filter) = .ok g ∧
        ∀ p, ∃ h, Filter.split (Write.run (ws.filter (·.part = p)) filter) = .ok h ∧
          g.part p = h.part p := by
  refine ⟨?_, ?_⟩
  · intro w filter out hw h
    obtain ⟨f, g, hf, hg, rfl⟩ := Write.onText_eq_ok_iff.mp h
    obtain ⟨-, hwhole⟩ := Filter.split_eq_ok_iff_whole.mp hf
    have hsplit := Filter.split_eq_ok_iff_whole.mpr ⟨rfl, Write.edit_whole hw hwhole hg⟩
    exact ⟨f, g, hf, hsplit, fun p hp => Write.edit_frame hg hp⟩
  · intro ws filter f hws hf
    refine ⟨_, Write.split_run hws hf, fun p => ⟨_, ?_, Write.foldl_step_part ws rfl⟩⟩
    exact Write.split_run (fun w hw => hws w (List.mem_of_mem_filter hw)) hf

/-- Question marks that are written into the last part stay there. -/
theorem writes_stay_in_part_marked :
    ∃ g, Filter.split (Write.run [.addRestrictions "a?b?".toList "desc".toList [] [],
          .addFields ⟨fun name => if name = ['a'] then some ['x'] else none, [], []⟩
            ["a?".toList, ['a']] false,
          .deleteCondition "b".toList] "c?b==1*c==2?".toList) = .ok g ∧
      g.fields = "c,a".toList ∧ g.conditions = "c==2".toList ∧
      g.restrictions = "a?b?,desc,,".toList := by
  have hsplit : Filter.split "c?b==1*c==2?".toList = .ok ⟨['c'], "b==1*c==2".toList, []⟩ := by cbv
  obtain ⟨g, hg, hparts⟩ := writes_stay_in_part.2
    [.addRestrictions "a?b?".toList "desc".toList [] [],
      .addFields ⟨fun name => if name = ['a'] then some ['x'] else none, [], []⟩
        ["a?".toList, ['a']] false,
      .deleteCondition "b".toList] _ _ (by simp [Write.Trusted]) hsplit
  obtain ⟨k, hk, hfields⟩ := hparts .fields
  obtain ⟨l, hl, hconditions⟩ := hparts .conditions
  obtain ⟨m, hm, hrestrictions⟩ := hparts .restrictions
  refine ⟨g, hg, hfields.trans ?_, hconditions.trans ?_, hrestrictions.trans ?_⟩
  · have hrun : Except.ok k = .ok ⟨"c,a".toList, "b==1*c==2".toList, []⟩ := hk.symm.trans (by cbv)
    cases hrun
    rfl
  · have hrun : Except.ok l = .ok ⟨['c'], "c==2".toList, []⟩ := hl.symm.trans (by cbv)
    cases hrun
    rfl
  · have hrun : Except.ok m = .ok ⟨['c'], "b==1*c==2".toList, "a?b?,desc,,".toList⟩ :=
      hm.symm.trans (by cbv)
    cases hrun
    rfl

end FilterLang
