import FilterLang.Value.Binding
import Mathlib.Data.Set.List

/-! Bound arrays as a driver takes them, with the type of their items named beside the items. The
type is chosen for an array as a whole, the items are converted one by one, and still each of them
has that type. -/
namespace FilterLang

namespace Tagged

/-- The type of a value that can be an item. -/
def type? : Tagged → Option ItemType
  | bool _ => some .bool
  | int _ => some .int
  | text _ => some .text
  | array _ _ => none

mutual

/-- All arrays in a value, at any depth. -/
def arrays : Tagged → List (ItemType × List Tagged)
  | array type items => (type, items) :: arraysAll items
  | _ => []

def arraysAll : List Tagged → List (ItemType × List Tagged)
  | [] => []
  | t :: ts => t.arrays ++ arraysAll ts

end

theorem arraysAll_eq_nil {type : ItemType} {ts : List Tagged} (h : ∀ t ∈ ts, t.type? = some type) :
    arraysAll ts = [] := by
  induction ts with
  | nil => rfl
  | cons t ts ih =>
    obtain ⟨ht, hts⟩ := List.forall_mem_cons.mp h
    cases t with
    | array type items => contradiction
    | bool b => exact ih hts
    | int n => exact ih hts
    | text s => exact ih hts

end Tagged

theorem mapM_eq_some_iff_of_inverse {α β : Type} {f : α → Option β} {back : β → α}
    (h : ∀ a b, f a = some b ↔ a = back b) {as : List α} {bs : List β} :
    as.mapM f = some bs ↔ as = bs.map back := by
  induction as generalizing bs with
  | nil => cases bs <;> simp
  | cons a as ih =>
    rw [List.mapM_cons, Option.bind_eq_bind, Option.bind_eq_some_iff]
    constructor
    · rintro ⟨b, hb, htail⟩
      obtain ⟨bs, hbs, he⟩ := Option.bind_eq_some_iff.mp htail
      cases he
      rw [(h a b).mp hb, ih.mp hbs, List.map_cons]
    · intro he
      cases bs with
      | nil => contradiction
      | cons b bs =>
        obtain ⟨ha, has⟩ := List.cons.inj he
        exact ⟨b, (h a b).mpr ha, Option.bind_eq_some_iff.mpr ⟨bs, ih.mpr has, rfl⟩⟩

namespace Value

variable {v : Value} {values : List Value} {α : Type} {kind : α → Value} {f : Value → Option α}

/-- There are values, and all of them are of one kind. -/
def Consists (kind : α → Value) (values : List Value) : Prop :=
  values ≠ [] ∧ ∀ v ∈ values, ∃ a, v = kind a

theorem Consists.not_bool (h : Consists int values) : ¬ Consists bool values := by
  rintro ⟨hne, hbool⟩
  obtain ⟨v, hv⟩ := List.exists_mem_of_ne_nil _ hne
  obtain ⟨n, rfl⟩ := h.2 v hv
  obtain ⟨b, hb⟩ := hbool _ hv
  contradiction

/-- Values of one kind are those that the inverse of the kind takes one by one. -/
theorem consists_iff_mapM (h : ∀ v a, f v = some a ↔ v = kind a) :
    Consists kind values ↔ ∃ a as, values.mapM f = some (a :: as) := by
  constructor
  · rintro ⟨hne, hall⟩
    have hrange : values ∈ Set.range (List.map kind) := by
      rw [Set.range_list_map]
      intro v hv
      obtain ⟨a, rfl⟩ := hall v hv
      exact Set.mem_range_self a
    obtain ⟨as, rfl⟩ := hrange
    cases as with
    | nil => contradiction
    | cons a as => exact ⟨a, as, (mapM_eq_some_iff_of_inverse h).mpr rfl⟩
  · rintro ⟨a, as, hm⟩
    obtain rfl := (mapM_eq_some_iff_of_inverse h).mp hm
    refine ⟨by simp, ?_⟩
    intro v hv
    obtain ⟨b, -, rfl⟩ := List.mem_map.mp hv
    exact ⟨b, rfl⟩

theorem int?_eq_some_iff (v : Value) (n : Int) : v.int? = some n ↔ v = .int n := by
  cases v <;> simp [int?]

theorem bool?_eq_some_iff (v : Value) (b : Bool) : v.bool? = some b ↔ v = .bool b := by
  cases v <;> simp [bool?]

theorem allBy_iff (h : ∀ v a, f v = some a ↔ v = kind a) :
    allBy f values ↔ Consists kind values := by
  simp [allBy, Consists, Option.isSome_iff_exists, h]

theorem itemType_eq_int_iff : itemType values = .int ↔ Consists int values := by
  rw [← allBy_iff int?_eq_some_iff, itemType]
  split
  · simp_all
  · split <;> simp_all

theorem itemType_eq_bool_iff : itemType values = .bool ↔ Consists bool values := by
  constructor
  · intro h
    rw [← allBy_iff bool?_eq_some_iff]
    unfold itemType at h
    split at h
    · contradiction
    · split at h
      · assumption
      · contradiction
  · intro h
    have hint : ¬ allBy int? values := by
      rw [allBy_iff int?_eq_some_iff]
      exact fun hint => hint.not_bool h
    rw [itemType, if_neg hint, if_pos ((allBy_iff bool?_eq_some_iff).mpr h)]

/-- One item of an array that is bound with the given type. -/
def taggedAs (type : ItemType) (v : Value) : Tagged :=
  if type = .text then .text (some v.display) else v.tagged

theorem taggedAll_eq_map (type : ItemType) (vs : List Value) :
    taggedAll type vs = vs.map (taggedAs type) := by
  induction vs with
  | nil => rfl
  | cons v vs ih => rw [taggedAll, ih, List.map_cons, taggedAs]

/-- An array that is handed over for given values. -/
structure HandsOver (values : List Value) (type : ItemType) (items : List Tagged) : Prop where
  /-- Every item has the type that is named. -/
  uniform : ∀ t ∈ items, t.type? = some type
  int_iff : type = .int ↔ Consists int values
  bool_iff : type = .bool ↔ Consists bool values
  /-- The values stay in their order, each as its text unless they are all of one of these kinds. -/
  items_eq : items = values.map (taggedAs type)

/-- Only one kind of value is left where the type is not text, so the items all have it. -/
theorem handsOver_tagged (values : List Value) :
    HandsOver values (itemType values) (taggedAll (itemType values) values) where
  uniform := by
    intro t ht
    rw [taggedAll_eq_map] at ht
    obtain ⟨v, hv, rfl⟩ := List.mem_map.mp ht
    cases htype : itemType values with
    | text => rfl
    | int =>
      obtain ⟨n, rfl⟩ := (itemType_eq_int_iff.mp htype).2 v hv
      rfl
    | bool =>
      obtain ⟨b, rfl⟩ := (itemType_eq_bool_iff.mp htype).2 v hv
      rfl
  int_iff := itemType_eq_int_iff
  bool_iff := itemType_eq_bool_iff
  items_eq := taggedAll_eq_map _ _

/-- Binding an array as a whole is converting it item by item. -/
theorem tagged_bindArray (values : List Value) :
    (bindArray values).tagged =
      .array (itemType values) (taggedAll (itemType values) values) := by
  unfold bindArray
  split
  · next n ns hn =>
    have hint : Consists int values := (consists_iff_mapM int?_eq_some_iff).mpr ⟨n, ns, hn⟩
    obtain rfl := (mapM_eq_some_iff_of_inverse int?_eq_some_iff).mp hn
    rw [itemType_eq_int_iff.mpr hint, taggedAll_eq_map]
    simp [taggedAs, tagged, Binding.tagged]
  · next b bs hb _ =>
    have hbool : Consists bool values := (consists_iff_mapM bool?_eq_some_iff).mpr ⟨b, bs, hb⟩
    obtain rfl := (mapM_eq_some_iff_of_inverse bool?_eq_some_iff).mp hb
    rw [itemType_eq_bool_iff.mpr hbool, taggedAll_eq_map]
    simp [taggedAs, tagged, Binding.tagged]
  · next hn hb =>
    -- Neither list was made, so the array is not all numbers and not all truth values.
    cases htype : itemType values with
    | int =>
      obtain ⟨n, ns, he⟩ := (consists_iff_mapM int?_eq_some_iff).mp (itemType_eq_int_iff.mp htype)
      exact absurd he (hn n ns)
    | bool =>
      obtain ⟨b, bs, he⟩ := (consists_iff_mapM bool?_eq_some_iff).mp (itemType_eq_bool_iff.mp htype)
      exact absurd he (hb b bs)
    | text => simp [taggedAll_eq_map, taggedAs, Binding.tagged, Function.comp_def]

theorem tagged_binding (v : Value) : v.binding.tagged = v.tagged := by
  fun_induction binding v with
  | case1 => rfl
  | case2 b => rfl
  | case3 n => rfl
  | case4 s => rfl
  | case5 items => exact tagged_bindArray items
  | case6 key inner ih => exact ih

/-- The items of an array, also of one behind keys. -/
def items? : Value → Option (List Value)
  | array items => some items
  | path _ inner => inner.items?
  | _ => none

theorem tagged_of_items? (h : v.items? = some values) :
    v.tagged = .array (itemType values) (taggedAll (itemType values) values) := by
  fun_induction items? v with
  | case1 items =>
    cases h
    rfl
  | case2 key inner ih => exact ih h
  | case3 => contradiction

theorem arrays_of_items? (h : v.items? = none) : v.tagged.arrays = [] := by
  fun_induction items? v with
  | case1 items => contradiction
  | case2 key inner ih => exact ih h
  | case3 v harray hpath =>
    cases v with
    | array items => exact absurd rfl (harray items)
    | path key inner => exact absurd rfl (hpath key inner)
    | null => rfl
    | bool b => rfl
    | int n => rfl
    | text s => rfl

end Value

/-- A value that is an array, or has one behind keys, is bound as one array, in which there is
nothing but items of the type that it names; any other value is bound without an array. A key
changes nothing, and arrays are bound as if they were converted item by item. -/
theorem bound_arrays_are_uniform (v : Value) :
    (∀ values, v.items? = some values →
      ∃ type items, v.binding.tagged = .array type items ∧
        v.binding.tagged.arrays = [(type, items)] ∧ Value.HandsOver values type items) ∧
    (v.items? = none → v.binding.tagged.arrays = []) ∧
    (∀ key, (Value.path key v).binding = v.binding) ∧
    v.binding.tagged = v.tagged := by
  rw [v.tagged_binding]
  refine ⟨?_, Value.arrays_of_items?, fun _ => rfl, rfl⟩
  intro values hvalues
  have hhands := Value.handsOver_tagged values
  refine ⟨_, _, Value.tagged_of_items? hvalues, ?_, hhands⟩
  rw [Value.tagged_of_items? hvalues, Tagged.arrays, Tagged.arraysAll_eq_nil hhands.uniform]

/-- A mixed array behind a key, with an array, a null and a keyed value among its items. -/
theorem bound_arrays_are_uniform_mixed :
    ∃ items, (Value.path ['k'] (.array [.int 1, .array [.int 2, .null], .null,
        .path ['a'] (.bool true)])).binding.tagged = .array .text items ∧
      items = ["1", "2,null", "null", "a^^true"].map (fun s => .text (some s.toList)) ∧
      ∀ t ∈ items, t.type? = some .text := by
  obtain ⟨type, items, he, -, hhands⟩ := (bound_arrays_are_uniform (.path ['k'] (.array [.int 1,
    .array [.int 2, .null], .null, .path ['a'] (.bool true)]))).1 _ rfl
  have hbound : (Value.path ['k'] (.array [.int 1, .array [.int 2, .null], .null,
      .path ['a'] (.bool true)])).binding.tagged = .array .text
        (["1", "2,null", "null", "a^^true"].map fun s => .text (some s.toList)) := by cbv
  cases he.symm.trans hbound
  exact ⟨_, hbound, rfl, hhands.uniform⟩

end FilterLang
