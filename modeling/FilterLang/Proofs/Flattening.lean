import FilterLang.Registry
import Mathlib.Data.Char
import Mathlib.Data.List.Induction
import Mathlib.Order.Compare

/-! Field maps as what was written to them. The last write of a name decides, in one map, over any
chain of changes, and in a model that has others embedded in it. The names stay in order throughout.
-/
namespace FilterLang

/-- Where each step overrides what it writes and keeps the rest, the last write stands. -/
theorem foldl_eq_getLast? {σ α β : Type} {step : σ → α → σ} (look : σ → Option β)
    {write : α → Option β} (h : ∀ s a, look (step s a) = (write a).or (look s)) (s : σ)
    (as : List α) : look (as.foldl step s) = (as.filterMap write).getLast?.or (look s) := by
  -- From the end of the list, where the write stands that decides.
  induction as using List.reverseRecOn with
  | nil => rfl
  | append_singleton as a ih =>
    have hlast : [a].filterMap write = (write a).toList := by cases hw : write a <;> simp [hw]
    rw [List.foldl_append, List.foldl_cons, List.foldl_nil, h, ih, List.filterMap_append,
      List.getLast?_append, Option.or_assoc, hlast]
    cases write a <;> rfl

/-- Texts are compared by their characters, and those by their code points. -/
theorem Text.compare_eq_lt_iff {s t : Text} : compare s t = .lt ↔ s < t := by
  change List.compareLex compare s t = .lt ↔ s < t
  induction s generalizing t with
  | nil =>
    cases t with
    | nil => simp [List.compareLex_nil_nil]
    | cons d ds => simp [List.compareLex_nil_cons]
  | cons c cs ih =>
    cases t with
    | nil => simp [List.compareLex_cons_nil]
    | cons d ds =>
      rw [List.compareLex_cons_cons, Ordering.then_eq_lt, List.cons_lt_cons_iff, ih,
        compare_lt_iff_lt, Std.compare_eq_iff_eq]

namespace FieldMap

variable {m other : FieldMap} {name column : Text}

/-- The column that a write gives to a name, if it is the name written to. -/
def columnFor (name : Text) (write : Text × Text) : Option Text :=
  if write.1 = name then some write.2 else none

/-- The column that the last of some writes gives to a name. -/
def lastWrite (writes : List (Text × Text)) (name : Text) : Option Text :=
  (writes.filterMap (columnFor name)).getLast?

theorem lastWrite_append (xs ys : List (Text × Text)) (name : Text) :
    lastWrite (xs ++ ys) name = (lastWrite ys name).or (lastWrite xs name) := by
  simp [lastWrite]

theorem mem_pairs_iff : (name, column) ∈ m.pairs ↔ m.resolve name = some column :=
  Std.TreeMap.mem_toList_iff_getElem?_eq_some

/-- What a map holds is a history with one write for each name. -/
theorem lastWrite_pairs (m : FieldMap) (name : Text) : lastWrite m.pairs name = m.resolve name := by
  -- All writes to the name give the column behind it, so that the last one need not be picked out.
  have hmem : ∀ column, column ∈ m.pairs.filterMap (columnFor name) ↔
      m.resolve name = some column := by
    intro column
    simp [← mem_pairs_iff, columnFor]
  rw [lastWrite]
  cases hl : (m.pairs.filterMap (columnFor name)).getLast? with
  | some column => exact ((hmem column).mp (List.mem_of_getLast? hl)).symm
  | none =>
    rw [List.getLast?_eq_none_iff] at hl
    cases hr : m.resolve name with
    | none => rfl
    | some column => simpa [hl] using (hmem column).mpr hr

theorem resolve_insertAll (m : FieldMap) (writes : List (Text × Text)) (name : Text) :
    (m.insertAll writes).resolve name = (lastWrite writes name).or (m.resolve name) := by
  apply foldl_eq_getLast? fun m : FieldMap => m.resolve name
  intro m w
  rw [resolve_insert, columnFor]
  split <;> rfl

theorem resolve_merge (m other : FieldMap) (name : Text) :
    (m.merge other).resolve name = (other.resolve name).or (m.resolve name) := by
  rw [merge, resolve_insertAll, lastWrite_pairs]

theorem primaryKey_insertAll (m : FieldMap) (writes : List (Text × Text)) :
    (m.insertAll writes).primaryKey = m.primaryKey := by
  unfold insertAll
  induction writes generalizing m with
  | nil => rfl
  | cons w ws ih => exact ih (m.insert w.1 w.2)

/-- The columns stand in the order of their names, and each known name has its place once. -/
def InOrder (m : FieldMap) : Prop :=
  ∃ names : List Text, names.Pairwise (· < ·) ∧ (∀ name, name ∈ names ↔ (m.resolve name).isSome) ∧
    names.map m.resolve = m.columns.map some

theorem inOrder (m : FieldMap) : m.InOrder := by
  refine ⟨m.pairs.map Prod.fst, ?_, ?_, ?_⟩
  · rw [List.pairwise_map]
    have hsorted : m.pairs.Pairwise fun a b => compare a.1 b.1 = .lt :=
      Std.TreeMap.ordered_keys_toList
    exact hsorted.imp Text.compare_eq_lt_iff.mp
  · intro name
    simp [Option.isSome_iff_exists, ← mem_pairs_iff]
  · rw [columns, List.map_map, List.map_map]
    apply List.map_congr_left
    intro pair hpair
    exact mem_pairs_iff.mp hpair

/-- What can be done to a map on the way to its final form. Collecting pairs starts over. -/
inductive Change where
  | insert (name column : Text)
  | merge (other : FieldMap)
  | withPrimaryKey (column : Text)
  | ofPairs (pairs : List (Text × Text))

namespace Change

def apply (m : FieldMap) : Change → FieldMap
  | insert name column => m.insert name column
  | merge other => m.merge other
  | withPrimaryKey column => m.withPrimaryKey column
  | ofPairs pairs => .ofPairs pairs

/-- The writes that a map has seen, after those it had seen before. -/
def record (writes : List (Text × Text)) : Change → List (Text × Text)
  | insert name column => writes ++ [(name, column)]
  | merge other => writes ++ other.pairs
  | withPrimaryKey _ => writes
  | ofPairs pairs => pairs

/-- One change keeps a map in step with what was written to it. -/
theorem resolve_apply {writes : List (Text × Text)} (h : m.resolve name = lastWrite writes name)
    (change : Change) :
    (apply m change).resolve name = lastWrite (record writes change) name := by
  cases change with
  | insert n column =>
    have hone : lastWrite [(n, column)] name = if n = name then some column else none := by
      by_cases hn : n = name <;> simp [lastWrite, columnFor, hn]
    rw [apply, record, resolve_insert, lastWrite_append, hone, h]
    split <;> rfl
  | merge other => rw [apply, record, resolve_merge, lastWrite_append, lastWrite_pairs, h]
  | withPrimaryKey column => exact h
  | ofPairs pairs =>
    rw [apply, record, FieldMap.ofPairs, resolve_insertAll, resolve_empty, Option.or_none]

theorem resolve_foldl_apply {writes : List (Text × Text)} (changes : List Change)
    (h : m.resolve name = lastWrite writes name) :
    (changes.foldl apply m).resolve name = lastWrite (changes.foldl record writes) name := by
  induction changes generalizing m writes with
  | nil => exact h
  | cons change changes ih => exact ih (resolve_apply h change)

end Change

end FieldMap

namespace Model

theorem resolve_fieldMap (m : Model) (name : Text) :
    m.fieldMap.resolve name =
      (m.embedded.filterMap (·.resolve name)).getLast?.or (m.base.resolve name) := by
  apply foldl_eq_getLast? fun m : FieldMap => m.resolve name
  intro base other
  exact base.resolve_merge other name

theorem primaryKey_fieldMap (m : Model) : m.fieldMap.primaryKey = m.base.primaryKey := by
  have hfold : ∀ (embedded : List FieldMap) (base : FieldMap),
      (embedded.foldl FieldMap.merge base).primaryKey = base.primaryKey := by
    intro embedded
    induction embedded with
    | nil => exact fun _ => rfl
    | cons other embedded ih =>
      intro base
      rw [List.foldl_cons, ih, FieldMap.merge, FieldMap.primaryKey_insertAll]
  exact hfold m.embedded m.base

end Model

/-- A flattened model gives a name the column of the last embedded model that has it, or else its
own, lists the columns in the order of the names, each known name once, and keeps its own primary
key. A map keeps that order over all changes, and the last write of a name gives its column. -/
theorem flattening_keeps_last_write :
    (∀ (model : Model) (name : Text),
      model.fieldMap.resolve name =
        (model.embedded.filterMap (·.resolve name)).getLast?.or (model.base.resolve name)) ∧
    (∀ model : Model, model.fieldMap.InOrder) ∧
    (∀ model : Model, model.fieldMap.primaryKey = model.base.primaryKey) ∧
    ∀ (m : FieldMap) (changes : List FieldMap.Change),
      (changes.foldl FieldMap.Change.apply m).InOrder ∧
      ∀ name, (changes.foldl FieldMap.Change.apply m).resolve name =
        FieldMap.lastWrite (changes.foldl FieldMap.Change.record m.pairs) name := by
  refine ⟨Model.resolve_fieldMap, ?_, Model.primaryKey_fieldMap, ?_⟩
  · intro model
    exact model.fieldMap.inOrder
  · intro m changes
    refine ⟨FieldMap.inOrder _, ?_⟩
    intro name
    exact FieldMap.Change.resolve_foldl_apply changes (m.lastWrite_pairs name).symm

-- Both embedded models name `b`, and the second brings a primary key of its own.
example :
    (Model.fieldMap ⟨.ofPairs [(['b'], ['y']), (['a'], ['x'])], [.ofPairs [(['b'], ['u'])],
      (FieldMap.ofPairs [(['b'], ['v'])]).withPrimaryKey ['k']]⟩).resolver.columns =
      [['x'], ['v']] := by decide

end FilterLang
