import FilterLang.Proofs.Agreement
import FilterLang.Proofs.Sources
import Mathlib.Data.List.GetD

/-! Restrictions written by their positions. Only commas keep these apart, and the sort fields are
written as they come, so that a comma in them moves all that stands behind. -/
namespace FilterLang

variable {s t raw filter sortFields : Text} {p : Positions} {f : Filter}

namespace Text

theorem comma_mem_unblank_iff : ',' ∈ s.unblank ↔ ',' ∈ s := by
  have hcomma : isBlank ',' = false := by decide
  simp [unblank, hcomma]

/-- A part between two commas has none. -/
theorem comma_notMem_of_mem_splitOn (h : t ∈ s.splitOn ',') : ',' ∉ t := by
  induction s generalizing t with
  | nil =>
    obtain rfl : t = [] := by simpa using h
    simp
  | cons c s ih =>
    rw [List.splitOn_cons_eq_if_modifyHead] at h
    by_cases hc : c = ','
    · rcases List.mem_cons.mp (by simpa [hc] using h : t ∈ [] :: s.splitOn ',') with rfl | ht
      · simp
      · exact ih ht
    · obtain ⟨first, rest, hparts⟩ := List.exists_cons_of_ne_nil (List.splitOn_ne_nil ',' s)
      have hmem : t = c :: first ∨ t ∈ rest := by simpa [hc, hparts] using h
      rcases hmem with rfl | ht
      · have hfirst : ',' ∉ first := ih (by simp [hparts])
        simp [Ne.symm hc, hfirst]
      · exact ih (by simp [hparts, ht])

/-- One comma makes two parts. -/
theorem length_splitOn_le_one_iff : (s.splitOn ',').length ≤ 1 ↔ ',' ∉ s := by
  constructor
  · intro h hmem
    obtain ⟨a, b, rfl⟩ := List.append_of_mem hmem
    rw [List.splitOn_append_cons_self, List.length_append] at h
    have ha := List.length_pos_iff.mpr (List.splitOn_ne_nil ',' a)
    have hb := List.length_pos_iff.mpr (List.splitOn_ne_nil ',' b)
    omega
  · intro h
    rw [List.splitOn_eq_singleton h]
    exact le_rfl

end Text

namespace Positions

/-- A position as it is read: the text of one has neither commas nor blanks. -/
def Single (s : Text) : Prop := ',' ∉ s ∧ s.Solid

theorem Single.splitOn_eq (h : Single s) : s.unblank.splitOn ',' = [s] := by
  rw [h.2.unblank_eq]
  exact List.splitOn_eq_singleton h.1

theorem single_getD (raw : Text) (i : Nat) : Single ((raw.unblank.splitOn ',').getD i []) := by
  by_cases hi : i < (raw.unblank.splitOn ',').length
  · have hmem : (raw.unblank.splitOn ',').getD i [] ∈ raw.unblank.splitOn ',' := by
      rw [List.getD_eq_getElem _ _ hi]
      exact List.getElem_mem hi
    refine ⟨Text.comma_notMem_of_mem_splitOn hmem, ?_⟩
    intro c hc
    exact Text.solid_unblank raw c ((Text.infix_of_mem_splitOn hmem).subset hc)
  · rw [List.getD_eq_default _ _ (Nat.le_of_not_lt hi)]
    simp [Single, Text.Solid]

/-- Every position that was read is one by itself. -/
theorem single_of_parse (h : parse raw = .ok p) :
    Single p.sortFields ∧ Single p.sortOrder ∧ Single p.limit ∧ Single p.offset := by
  rw [parse_eq] at h
  split at h
  · cases h
    exact ⟨single_getD raw 0, single_getD raw 1, single_getD raw 2, single_getD raw 3⟩
  · cases h

theorem splitOn_print (ho : Single p.sortOrder) (hl : Single p.limit) (hs : Single p.offset) :
    p.print.unblank.splitOn ',' =
      p.sortFields.unblank.splitOn ',' ++ [p.sortOrder, p.limit, p.offset] := by
  have hprint : p.print.unblank = p.sortFields.unblank ++ ',' :: (p.sortOrder.unblank ++
      ',' :: (p.limit.unblank ++ ',' :: p.offset.unblank)) := by
    have hcomma : Text.isBlank ',' = false := by decide
    simp [print, Text.unblank, hcomma]
  rw [hprint]
  simp only [List.splitOn_append_cons_self, ho.splitOn_eq, hl.splitOn_eq, hs.splitOn_eq,
    List.singleton_append]

/-- Positions that were written are read as such unless there is a comma in the sort fields. -/
theorem parse_print (ho : Single p.sortOrder) (hl : Single p.limit) (hs : Single p.offset) :
    parse p.print =
      if ',' ∈ p.sortFields then .error (.malformed (.positionCount p.print.unblank))
      else .ok { p with sortFields := p.sortFields.unblank } := by
  rw [parse_eq, splitOn_print ho hl hs]
  by_cases hc : ',' ∈ p.sortFields
  · have hlen : ¬ (p.sortFields.unblank.splitOn ',').length ≤ 1 := by
      rw [Text.length_splitOn_le_one_iff, Text.comma_mem_unblank_iff]
      exact not_not.mpr hc
    have hmany : ¬ (p.sortFields.unblank.splitOn ',' ++ [p.sortOrder, p.limit, p.offset]).length ≤
        Restriction.maxPositions := by
      simp only [List.length_append, List.length_cons, List.length_nil, Restriction.maxPositions]
      omega
    rw [if_neg hmany, if_pos hc]
  · have hone : p.sortFields.unblank.splitOn ',' = [p.sortFields.unblank] :=
      List.splitOn_eq_singleton (mt Text.comma_mem_unblank_iff.mp hc)
    simp [hone, hc, Restriction.maxPositions]

/-- Once its positions are found, no order is taken for too many of them. -/
theorem order?_ne_positionCount (p : Positions) (block : Text) :
    p.order? ≠ .error (.malformed (.positionCount block)) := by
  unfold order? SortOrder.read
  split
  · simp
  · split <;> simp

end Positions

theorem Reading.positions_eq (hf : Filter.parse filter = .ok f) :
    positions filter = Positions.parse f.restrictions := by
  simp [positions, hf, bind, Except.bind]

/-- Writing the sort fields alone keeps the text of the other positions. -/
theorem Edit.addRestrictions_sortFields (hf : Filter.parse filter = .ok f)
    (hp : Positions.parse f.restrictions = .ok p) (hs : sortFields ≠ []) :
    onText (addRestrictions sortFields [] [] []) filter =
      .ok ({ f with restrictions := ({ p with sortFields } : Positions).print } : Filter).print := by
  simp [onText, addRestrictions, hf, hp, hs, bind, Except.bind, pure, Except.pure,
    SortOrder.ofText?, SortOrder.text, Text.nat64?, Text.digits?]

/-- Sort fields that are written alone leave the order, the limit and the offset as they are read,
value or error, exactly if there is no comma in them. With one, none of the three can be read. -/
theorem sort_fields_leave_others_iff (filter sortFields : Text) (f : Filter)
    (hf : Filter.split filter = .ok f)
    (hlen : (f.restrictions.unblank.splitOn ',').length ≤ Restriction.maxPositions)
    (hs : sortFields ≠ []) :
    ∃ out, Edit.onText (Edit.addRestrictions sortFields [] [] []) filter = .ok out ∧
      ((Reading.sortOrder out = Reading.sortOrder filter ∧
          Reading.limit out = Reading.limit filter ∧
          Reading.offset out = Reading.offset filter) ↔ ',' ∉ sortFields) ∧
      (',' ∈ sortFields → ∃ block,
        Reading.sortOrder out = .error (.malformed (.positionCount block)) ∧
        Reading.limit out = .error (.malformed (.positionCount block)) ∧
        Reading.offset out = .error (.malformed (.positionCount block))) := by
  have hparse := Filter.split_eq_ok_iff.mp hf
  obtain ⟨p, hp⟩ : ∃ p, Positions.parse f.restrictions = .ok p := by
    rw [Positions.parse_eq, if_pos hlen]
    exact ⟨_, rfl⟩
  obtain ⟨-, hq⟩ := Filter.parse_eq_ok_iff.mp hparse
  have hout : Filter.parse ({ f with restrictions := ({ p with sortFields } : Positions).print } :
      Filter).print = .ok { f with restrictions := ({ p with sortFields } : Positions).print } :=
    Filter.parse_eq_ok_iff.mpr ⟨rfl, hq⟩
  obtain ⟨-, ho, hl, hoff⟩ := Positions.single_of_parse hp
  have hbefore : Reading.positions filter = .ok p := (Reading.positions_eq hparse).trans hp
  have hafter := (Reading.positions_eq hout).trans (Positions.parse_print ho hl hoff)
  refine ⟨_, Edit.addRestrictions_sortFields hparse hp hs, ?_⟩
  simp only [Reading.sortOrder, Reading.limit, Reading.offset, hbefore, hafter, bind, Except.bind]
  by_cases hc : ',' ∈ sortFields
  · simp only [hc, if_true, not_true_eq_false, iff_false, true_implies]
    refine ⟨?_, _, rfl, rfl, rfl⟩
    rintro ⟨horder, -, -⟩
    exact p.order?_ne_positionCount _ horder.symm
  · simp only [hc, if_false, not_false_eq_true, iff_true, false_implies, and_true]
    exact ⟨rfl, rfl, rfl⟩

/-- Bars, blanks and question marks in the sort fields do no harm, and a limit below zero is refused
as before. -/
theorem sort_fields_leave_others_negative :
    Edit.onText (Edit.addRestrictions "b | c?".toList [] [] []) "a?? a , desc,-1".toList =
        .ok "a??b | c?,desc,-1,".toList ∧
      Reading.sortOrder "a??b | c?,desc,-1,".toList = .ok (some .desc) ∧
      Reading.limit "a??b | c?,desc,-1,".toList =
        .error (.invalidValue .limit "-1".toList .negative) ∧
      Reading.offset "a??b | c?,desc,-1,".toList = .ok none := by
  have hsplit : Filter.split "a?? a , desc,-1".toList =
      .ok ⟨"a".toList, [], " a , desc,-1".toList⟩ := by cbv
  have hedit : Edit.onText (Edit.addRestrictions "b | c?".toList [] [] [])
      "a?? a , desc,-1".toList = .ok "a??b | c?,desc,-1,".toList := by cbv
  obtain ⟨out, hout, hreads, -⟩ :=
    sort_fields_leave_others_iff _ "b | c?".toList _ hsplit (by cbv) (by decide)
  obtain rfl := Except.ok.inj (hedit.symm.trans hout)
  obtain ⟨horder, hlimit, hoffset⟩ := hreads.mpr (by decide)
  exact ⟨hedit, horder.trans rfl, hlimit.trans rfl, hoffset.trans rfl⟩

/-- A comma in the sort fields makes a fifth position, and the order, the limit and the offset that
were there can no longer be read. -/
theorem comma_hides_positions :
    Edit.onText (Edit.addRestrictions "ID,count".toList [] [] []) "ID??ID,desc,5,2".toList =
        .ok "ID??ID,count,desc,5,2".toList ∧
      (Reading.sortOrder "ID??ID,desc,5,2".toList = .ok (some .desc) ∧
        Reading.limit "ID??ID,desc,5,2".toList = .ok (some 5) ∧
        Reading.offset "ID??ID,desc,5,2".toList = .ok (some 2)) ∧
      Reading.sortOrder "ID??ID,count,desc,5,2".toList =
        .error (.malformed (.positionCount "ID,count,desc,5,2".toList)) ∧
      Reading.limit "ID??ID,count,desc,5,2".toList =
        .error (.malformed (.positionCount "ID,count,desc,5,2".toList)) ∧
      Reading.offset "ID??ID,count,desc,5,2".toList =
        .error (.malformed (.positionCount "ID,count,desc,5,2".toList)) := by
  exact ⟨by cbv, ⟨rfl, rfl, rfl⟩, rfl, rfl, rfl⟩

end FilterLang
