import FilterLang.Reading
import FilterLang.Sql.Query
import FilterLang.Proofs.Listing

/-! The statement and the single reads. A filter is read for a statement by other code than for a
question about it, and both read the same. -/
namespace FilterLang

variable {r : Resolver} {raw names block filter : Text} {f : Filter}

/-- What follows each step of a list can follow the whole list. -/
theorem mapM_map_except {α β γ ε : Type} (g : α → Except ε β) (k : β → γ) (as : List α) :
    as.mapM (fun a => (g a).map k) = (as.mapM g).map (·.map k) := by
  induction as with
  | nil => rfl
  | cons a as ih =>
    rw [List.mapM_cons, List.mapM_cons, ih]
    cases g a with
    | error e => rfl
    | ok b => cases as.mapM g <;> rfl

theorem ne_nil_of_mapM {α β ε : Type} {g : α → Except ε β} {as : List α} {bs : List β}
    (ha : as ≠ []) (h : as.mapM g = .ok bs) : bs ≠ [] := by
  obtain ⟨a, as, rfl⟩ := List.exists_cons_of_ne_nil ha
  rw [List.mapM_cons] at h
  obtain ⟨b, -, h⟩ := bind_eq_ok_iff.mp h
  obtain ⟨bs, -, h⟩ := bind_eq_ok_iff.mp h
  cases h
  simp

namespace Positions

/-- Positions taken one after the other are those at their places in the list. -/
theorem parse_eq (raw : Text) :
    parse raw =
      if (raw.unblank.splitOn ',').length ≤ Restriction.maxPositions then
        .ok ⟨(raw.unblank.splitOn ',').getD 0 [], (raw.unblank.splitOn ',').getD 1 [],
          (raw.unblank.splitOn ',').getD 2 [], (raw.unblank.splitOn ',').getD 3 []⟩
      else .error (.malformed (.positionCount raw.unblank)) := by
  unfold parse
  by_cases hb : raw.unblank = []
  · simp [hb, Restriction.maxPositions]
  · simp only [List.isEmpty_iff, hb, if_false, Restriction.maxPositions]
    rcases raw.unblank.splitOn ',' with _ | ⟨a, _ | ⟨b, _ | ⟨c, _ | ⟨d, _ | ⟨e, rest⟩⟩⟩⟩⟩ <;>
      simp [next]

end Positions

namespace Restriction

/-- The columns to sort by, from the fields and the order that a filter gives. -/
def sortedBy (r : Resolver) : Option (List Text) → Option SortOrder → List Text
  | some columns, _ => columns
  | none, some _ => [r.primaryColumn]
  | none, none => []

theorem ne_nil_of_readColumns {columns : List Text} (hn : names ≠ [])
    (h : readColumns r names = .ok columns) : columns ≠ [] := by
  simp only [readColumns, List.isEmpty_iff, hn, if_false] at h
  exact ne_nil_of_mapM (List.splitOn_ne_nil '|' names) h

theorem sortColumns?_eq (r : Resolver) (p : Positions) :
    p.sortColumns? r =
      (readColumns r p.sortFields).map fun columns =>
        if p.sortFields.isEmpty then none else some columns := by
  unfold Positions.sortColumns? readColumns
  by_cases hs : p.sortFields = []
  · simp [hs, Except.map]
  · simp [hs]

/-- An order falls back to the primary column exactly where no field was named. -/
theorem columns_eq_sortedBy {columns : List Text} (h : readColumns r names = .ok columns)
    (order : Option SortOrder) :
    (if columns.isEmpty && order.isSome then [r.primaryColumn] else columns) =
      sortedBy r (if names.isEmpty then none else some columns) order := by
  by_cases hn : names = []
  · subst hn
    cases h
    cases order <;> rfl
  · simp [hn, ne_nil_of_readColumns hn h, sortedBy]

/-- The positions of a block are read in turn, whichever way they were found. -/
theorem parse_eq_of_positions (r : Resolver) (raw : Text) :
    parse r raw = do
      let p ← Positions.parse raw
      let columns ← p.sortColumns? r
      let order ← p.order?
      let limit ← p.limit?
      let offset ← p.offset?
      return ⟨sortedBy r columns order, order, limit, offset⟩ := by
  simp only [parse, Positions.parse_eq, List.isEmpty_iff]
  by_cases hb : raw.unblank = []
  · rw [hb]
    rfl
  · by_cases hl : (raw.unblank.splitOn ',').length ≤ maxPositions
    · simp only [hb, if_false, Nat.not_lt.mpr hl, hl, if_true, sortColumns?_eq]
      dsimp only [Positions.order?, Positions.limit?, Positions.offset?, bind, Except.bind]
      cases hc : readColumns r ((raw.unblank.splitOn ',').getD 0 []) with
      | error e => rfl
      | ok columns =>
        simp only [Except.map, ← columns_eq_sortedBy hc]
    · simp only [hb, if_false, Nat.not_le.mp hl, hl, if_true]
      rfl

end Restriction

theorem Sql.selectList_map {columns : List Text} (h : columns ≠ []) :
    selectList (columns.map columnRef) =
      "select ".toList ++ ", ".toList.intercalate (columns.map columnRef) := by
  have hrefs : (columns.map columnRef).isEmpty = false := by
    rwa [List.isEmpty_map, List.isEmpty_eq_false_iff]
  rw [selectList, hrefs]
  rfl

namespace Reading

/-- What the single reads say of the last block, put together, is what a statement takes from it. -/
theorem restriction_eq_reads (r : Resolver) (hf : Filter.parse filter = .ok f) :
    Restriction.parse r f.restrictions = do
      let columns ← sortFields r filter
      let order ← sortOrder filter
      let limit ← limit filter
      let offset ← offset filter
      return ⟨Restriction.sortedBy r columns order, order, limit, offset⟩ := by
  rw [Restriction.parse_eq_of_positions]
  simp only [sortFields, sortOrder, limit, offset, positions, hf]
  dsimp only [bind, Except.bind]
  cases Positions.parse f.restrictions with
  | error e => rfl
  | ok p => rfl

theorem ne_nil_of_fields {columns : List Text} (h : fields r filter = .ok (some columns)) :
    columns ≠ [] := by
  obtain ⟨f, -, h⟩ := bind_eq_ok_iff.mp h
  unfold Selection.columns? at h
  split at h
  · cases h
  · obtain ⟨cs, hcs, hc⟩ := map_eq_ok_iff.mp h
    cases hc
    refine ne_nil_of_mapM ?_ hcs
    simp [Selection.names, List.splitOn_ne_nil]

/-- A statement selects the columns that are read from the first block. -/
theorem select_eq_reads (r : Resolver) (hf : Filter.parse filter = .ok f) :
    Sql.compileSelect r f.fields =
      (fields r filter).map fun columns =>
        Sql.selectList ((columns.getD r.columns).map Sql.columnRef) := by
  simp only [fields, hf, Sql.compileSelect, Selection.columns?, Selection.names]
  by_cases hb : f.fields.trim.isEmpty
  · simp [hb, bind, Except.bind, Except.map, pure, Except.pure]
  · have hrefs : ((f.fields.splitOn ',').mapM fun name =>
        (r.column .select (Text.trim name)).map Sql.columnRef) =
          (((f.fields.splitOn ',').map Text.trim).mapM (r.column .select)).map
            (·.map Sql.columnRef) := by
      rw [List.mapM_map, ← mapM_map_except]
      rfl
    simp only [hb, hrefs, bind, Except.bind]
    cases ((f.fields.splitOn ',').map Text.trim).mapM (r.column .select) with
    | error e => rfl
    | ok columns => rfl

end Reading

/-- A filter is read for a statement as it is read position by position. Restrictions compile
exactly if each of their reads succeeds, to what these give; of several errors the first counts. The
columns selected are those that the first block names, or all of the model. -/
theorem statement_agrees_with_reads (r : Resolver) (filter : Text) (f : Filter)
    (h : Filter.split filter = .ok f) :
    (∀ s, Restriction.parse r f.restrictions = .ok s ↔
      ∃ columns, Reading.sortFields r filter = .ok columns ∧
        Reading.sortOrder filter = .ok s.order ∧ Reading.limit filter = .ok s.limit ∧
        Reading.offset filter = .ok s.offset ∧
        s.sortColumns = Restriction.sortedBy r columns s.order) ∧
    (∀ e, Restriction.parse r f.restrictions = .error e ↔
      Reading.sortFields r filter = .error e ∨
        ∃ columns, Reading.sortFields r filter = .ok columns ∧
          (Reading.sortOrder filter = .error e ∨ ∃ order, Reading.sortOrder filter = .ok order ∧
            (Reading.limit filter = .error e ∨ ∃ limit, Reading.limit filter = .ok limit ∧
              Reading.offset filter = .error e))) ∧
    (∀ e, Sql.compileSelect r f.fields = .error e ↔ Reading.fields r filter = .error e) ∧
    (∀ columns, Reading.fields r filter = .ok (some columns) →
      columns ≠ [] ∧ Sql.compileSelect r f.fields =
        .ok ("select ".toList ++ ", ".toList.intercalate (columns.map Sql.columnRef))) ∧
    (Reading.fields r filter = .ok none →
      Sql.compileSelect r f.fields = .ok (if r.columns = [] then "select q.*".toList
        else "select ".toList ++ ", ".toList.intercalate (r.columns.map Sql.columnRef))) := by
  have hf : Filter.parse filter = .ok f := Filter.split_eq_ok_iff.mp h
  refine ⟨?_, ?_, ?_, ?_, ?_⟩
  · intro s
    rw [Reading.restriction_eq_reads r hf]
    simp only [bind_eq_ok_iff]
    constructor
    · rintro ⟨columns, hc, order, ho, limit, hl, offset, hs, he⟩
      cases he
      exact ⟨columns, hc, ho, hl, hs, rfl⟩
    · rintro ⟨columns, hc, ho, hl, hs, he⟩
      obtain ⟨sorted, order, limit, offset⟩ := s
      exact ⟨columns, hc, order, ho, limit, hl, offset, hs, by rw [← he]; rfl⟩
  · intro e
    rw [Reading.restriction_eq_reads r hf]
    simp only [bind_eq_error_iff, pure, Except.pure, reduceCtorEq, and_false, exists_const,
      or_false]
  · intro e
    rw [Reading.select_eq_reads r hf]
    cases Reading.fields r filter with
    | error e' => simp [Except.map]
    | ok columns => simp [Except.map]
  · intro columns hc
    have hne : columns ≠ [] := Reading.ne_nil_of_fields hc
    refine ⟨hne, ?_⟩
    rw [Reading.select_eq_reads r hf, hc, Except.map, Option.getD_some, Sql.selectList_map hne]
  · intro hc
    rw [Reading.select_eq_reads r hf, hc]
    by_cases hr : r.columns = []
    · simp only [hr, if_true]
      rfl
    · rw [Except.map, Option.getD_none, Sql.selectList_map hr, if_neg hr]

/-- An order without fields, a padded number with a sign, and an offset below zero, which is the
only fault. -/
theorem statement_agrees_with_reads_negative :
    Filter.split " a?? , desc,+07,-1".toList = .ok ⟨" a".toList, [], " , desc,+07,-1".toList⟩ ∧
    Restriction.parse ⟨fun name => if name = ['a'] then some ['x'] else none, [['x']], ['k']⟩
        " , desc,+07,-1".toList = .error (.invalidValue .offset "-1".toList .negative) ∧
    Sql.compileSelect ⟨fun name => if name = ['a'] then some ['x'] else none, [['x']], ['k']⟩
        " a".toList = .ok "select q.x".toList := by
  have hsplit : Filter.split " a?? , desc,+07,-1".toList =
      .ok ⟨" a".toList, [], " , desc,+07,-1".toList⟩ := by cbv
  obtain ⟨-, herror, -, hselect, -⟩ := statement_agrees_with_reads
    ⟨fun name => if name = ['a'] then some ['x'] else none, [['x']], ['k']⟩ _ _ hsplit
  refine ⟨hsplit, (herror _).mpr
    (.inr ⟨none, rfl, .inr ⟨some .desc, rfl, .inr ⟨some 7, rfl, rfl⟩⟩⟩),
    (hselect [['x']] rfl).2⟩

end FilterLang
