import FilterLang.Proofs.Overwriting

/-! Limits and offsets that are written. A number of rows is written up to the unsigned 64-bit range
and read up to the signed one, so that the upper half of what can be written cannot be read. -/
namespace FilterLang

variable {s filter : Text} {n : Nat} {subject : Subject} {before : Option Nat} {f : Filter}
  {p : Positions} {r : Resolver}

namespace Text

/-- An unsigned number is a run of digits, with or without a plus sign. -/
theorem nat64?_eq_some_iff :
    nat64? s = some n ↔
      ∃ ds, (s = ds ∨ s = '+' :: ds) ∧ digits? ds = some n ∧ n ≤ 0xFFFFFFFFFFFFFFFF := by
  have hplus : ∀ ds, digits? ('+' :: ds) ≠ some n := by
    intro ds hds
    exact absurd ((digits?_eq_some_iff.mp hds).2.1 '+' List.mem_cons_self) (by decide)
  unfold nat64?
  simp only [Option.filter_eq_some_iff, decide_eq_true_eq]
  split
  · next rest =>
    constructor
    · intro h
      exact ⟨rest, .inr rfl, h⟩
    · rintro ⟨ds, rfl | hds, h⟩
      · exact absurd h.1 (hplus rest)
      · cases hds
        exact h
  · next hne =>
    constructor
    · intro h
      exact ⟨s, .inl rfl, h⟩
    · rintro ⟨ds, rfl | rfl, h⟩
      · exact h
      · exact absurd rfl (hne ds)

/-- Digits are the same number behind a plus sign. -/
theorem integer?_of_digits? (h : digits? s = some n) :
    integer? s = some (n : Int) ∧ integer? ('+' :: s) = some (n : Int) := by
  obtain ⟨hne, hdigits, -⟩ := digits?_eq_some_iff.mp h
  obtain ⟨c, s, rfl⟩ := List.exists_cons_of_ne_nil hne
  have hc : c.isDigit := hdigits c List.mem_cons_self
  refine ⟨?_, by simp [integer?, h]⟩
  unfold integer?
  split
  · next hm =>
    cases hm
    exact absurd hc (by decide)
  · next hm =>
    cases hm
    exact absurd hc (by decide)
  · simp [h]

/-- What is a number without a sign is one with a sign, up to half its range. -/
theorem int64?_of_nat64? (h : nat64? s = some n) :
    int64? s = if n ≤ 0x7FFFFFFFFFFFFFFF then some (n : Int) else none := by
  obtain ⟨ds, hs, hds, -⟩ := nat64?_eq_some_iff.mp h
  have hinteger : integer? s = some (n : Int) := by
    obtain ⟨hplain, hplus⟩ := integer?_of_digits? hds
    rcases hs with rfl | rfl
    · exact hplain
    · exact hplus
  unfold int64?
  rw [hinteger]
  by_cases hn : n ≤ 0x7FFFFFFFFFFFFFFF
  · rw [if_pos hn, Option.filter_some, if_pos]
    simp only [decide_eq_true_eq]
    omega
  · rw [if_neg hn, Option.filter_some, if_neg]
    simp only [decide_eq_true_eq]
    omega

/-- A number that can be written and is beyond what is read. -/
def Unreadable (s : Text) : Prop := ∃ n ∈ nat64? s, 0x7FFFFFFFFFFFFFFF < n

instance : DecidablePred Unreadable := fun _ => inferInstanceAs (Decidable (∃ n ∈ _, _))

end Text

namespace Positions

/-- A number is one position by itself. -/
theorem single_of_nat64? (h : Text.nat64? s = some n) : Single s ∧ s ≠ [] := by
  obtain ⟨ds, hs, hds, -⟩ := Text.nat64?_eq_some_iff.mp h
  obtain ⟨hne, hdigits, -⟩ := Text.digits?_eq_some_iff.mp hds
  have hchar : ∀ c ∈ s, c = '+' ∨ c.isDigit := by
    rcases hs with rfl | rfl
    · intro c hc
      exact .inr (hdigits c hc)
    · intro c hc
      exact (List.mem_cons.mp hc).imp id (hdigits c)
  refine ⟨⟨?_, ?_⟩, ?_⟩
  · intro hcomma
    exact absurd (hchar ',' hcomma) (by decide)
  · intro c hc
    rcases hchar c hc with rfl | hdigit
    · decide
    · simp [Text.isBlank_of_isDigit hdigit]
  · rcases hs with rfl | rfl
    · exact hne
    · simp

end Positions

/-- What is read of a number of rows after `s` was written over one that was read before. -/
def overwritten (subject : Subject) (s : Text) (before : Option Nat) :
    Except Error (Option Nat) :=
  match Text.nat64? s with
  | none => .ok before
  | some n =>
    if n ≤ 0x7FFFFFFFFFFFFFFF then .ok (some n) else .error (.invalidValue subject s .unexpected)

theorem readCount_of_nat64? (h : Text.nat64? s = some n) (before : Option Nat) :
    readCount subject s = overwritten subject s before := by
  have hne : s ≠ [] := (Positions.single_of_nat64? h).2
  simp only [readCount, overwritten, h, List.isEmpty_iff, hne, if_false, Text.int64?_of_nat64? h]
  by_cases hn : n ≤ 0x7FFFFFFFFFFFFFFF
  · simp [hn]
  · simp [hn]

/-- A number that was written is read as written exactly if it is not beyond what is read. -/
theorem overwritten_eq_ok_iff :
    overwritten subject s before = .ok ((Text.nat64? s).or before) ↔ ¬ s.Unreadable := by
  unfold overwritten Text.Unreadable
  cases h : Text.nat64? s with
  | none => simp
  | some n =>
    by_cases hn : n ≤ 0x7FFFFFFFFFFFFFFF
    · simp [hn]
    · simp [hn]

namespace Positions

/-- A position after `t` was written over `s`. What is no number leaves it as it was. -/
def setCount (s t : Text) : Text := if (Text.nat64? t).isSome then t else s

theorem single_setCount (h : Single s) (t : Text) : Single (setCount s t) := by
  unfold setCount
  cases ht : Text.nat64? t with
  | none => simpa using h
  | some n => simpa using (single_of_nat64? ht).1

theorem readCount_setCount (h : readCount subject s = .ok before) (t : Text) :
    readCount subject (setCount s t) = overwritten subject t before := by
  unfold setCount
  cases ht : Text.nat64? t with
  | none => simp [overwritten, ht, h]
  | some n => simp [readCount_of_nat64? ht before]

/-- The positions after a limit and an offset were written. -/
def withCounts (p : Positions) (limit offset : Text) : Positions :=
  { p with limit := setCount p.limit limit, offset := setCount p.offset offset }

/-- Written numbers move none of the positions. -/
theorem parse_print_withCounts (h : parse s = .ok p) (limit offset : Text) :
    parse (p.withCounts limit offset).print = .ok (p.withCounts limit offset) := by
  obtain ⟨hfields, horder, hlimit, hoffset⟩ := single_of_parse h
  have hcomma : ',' ∉ (p.withCounts limit offset).sortFields := hfields.1
  rw [parse_print (p := p.withCounts limit offset) horder (single_setCount hlimit limit)
    (single_setCount hoffset offset), if_neg hcomma]
  simp only [withCounts, hfields.2.unblank_eq]

theorem limit?_withCounts {limit offset : Text} (h : p.limit? = .ok before) :
    (p.withCounts limit offset).limit? = overwritten .limit limit before :=
  readCount_setCount h limit

theorem offset?_withCounts {limit offset : Text} (h : p.offset? = .ok before) :
    (p.withCounts limit offset).offset? = overwritten .offset offset before :=
  readCount_setCount h offset

end Positions

/-- A block compiles exactly if each of its positions is read. -/
theorem Restriction.parse_eq_ok_iff {raw : Text} {s : Restriction} :
    parse r raw = .ok s ↔
      ∃ p columns, Positions.parse raw = .ok p ∧ p.sortColumns? r = .ok columns ∧
        p.order? = .ok s.order ∧ p.limit? = .ok s.limit ∧ p.offset? = .ok s.offset ∧
        s.sortColumns = sortedBy r columns s.order := by
  rw [parse_eq_of_positions]
  simp only [bind_eq_ok_iff]
  constructor
  · rintro ⟨p, hp, columns, hcolumns, order, horder, limit, hlimit, offset, hoffset, he⟩
    cases he
    exact ⟨p, columns, hp, hcolumns, horder, hlimit, hoffset, rfl⟩
  · rintro ⟨p, columns, hp, hcolumns, horder, hlimit, hoffset, hsorted⟩
    exact ⟨p, hp, columns, hcolumns, s.order, horder, s.limit, hlimit, s.offset, hoffset,
      by rw [← hsorted]; rfl⟩

/-- A statement keeps its order when the numbers are written anew, and takes these as they are read. -/
theorem Restriction.parse_withCounts {raw : Text} {s : Restriction}
    (hp : Positions.parse raw = .ok p) (hs : parse r raw = .ok s) (limit offset : Text) :
    parse r (p.withCounts limit offset).print = do
      let l ← overwritten .limit limit s.limit
      let o ← overwritten .offset offset s.offset
      return { s with limit := l, offset := o } := by
  obtain ⟨q, columns, hq, hcolumns, horder, hlimit, hoffset, hsorted⟩ := parse_eq_ok_iff.mp hs
  obtain rfl : p = q := Except.ok.inj (hp.symm.trans hq)
  have hcolumns' : (p.withCounts limit offset).sortColumns? r = .ok columns := hcolumns
  have horder' : (p.withCounts limit offset).order? = .ok s.order := horder
  rw [parse_eq_of_positions, Positions.parse_print_withCounts hp]
  simp only [bind, Except.bind, hcolumns', horder', Positions.limit?_withCounts hlimit,
    Positions.offset?_withCounts hoffset, ← hsorted]

theorem Filter.parse_withRestrictions (hf : Filter.parse filter = .ok f) (block : Text) :
    Filter.parse ({ f with restrictions := block } : Filter).print =
      .ok { f with restrictions := block } :=
  Filter.parse_eq_ok_iff.mpr ⟨rfl, (Filter.parse_eq_ok_iff.mp hf).2⟩

/-- Writing a limit and an offset keeps the text of the sort fields and of the order. -/
theorem Edit.addRestrictions_counts (hf : Filter.parse filter = .ok f)
    (hp : Positions.parse f.restrictions = .ok p) (limit offset : Text) :
    onText (addRestrictions [] [] limit offset) filter =
      .ok ({ f with restrictions := (p.withCounts limit offset).print } : Filter).print := by
  simp [onText, addRestrictions, hf, hp, Positions.withCounts, Positions.setCount, bind, Except.bind,
    pure, Except.pure, SortOrder.ofText?, SortOrder.text]

/-- A limit and an offset that are written over others are read back, and a statement takes them,
exactly if neither is beyond the signed range. Every other text leaves its number as it was, and a
number beyond the range is refused where it is read. -/
theorem written_counts_read_back_iff (r : Resolver) (filter limit offset : Text) (f : Filter)
    (s : Restriction) (hf : Filter.split filter = .ok f)
    (hs : Restriction.parse r f.restrictions = .ok s) :
    Reading.limit filter = .ok s.limit ∧ Reading.offset filter = .ok s.offset ∧
    ∃ out g, Edit.onText (Edit.addRestrictions [] [] limit offset) filter = .ok out ∧
      Filter.split out = .ok g ∧
      Reading.limit out = overwritten .limit limit s.limit ∧
      Reading.offset out = overwritten .offset offset s.offset ∧
      Restriction.parse r g.restrictions = (do
        let l ← overwritten .limit limit s.limit
        let o ← overwritten .offset offset s.offset
        return { s with limit := l, offset := o }) ∧
      ((Reading.limit out = .ok ((Text.nat64? limit).or s.limit) ∧
          Reading.offset out = .ok ((Text.nat64? offset).or s.offset) ∧
          Restriction.parse r g.restrictions = .ok { s with
            limit := (Text.nat64? limit).or s.limit
            offset := (Text.nat64? offset).or s.offset }) ↔
        ¬ limit.Unreadable ∧ ¬ offset.Unreadable) := by
  have hparse := Filter.split_eq_ok_iff.mp hf
  obtain ⟨p, columns, hp, -, -, hl, ho, -⟩ := Restriction.parse_eq_ok_iff.mp hs
  have hsplit := Filter.parse_withRestrictions hparse (p.withCounts limit offset).print
  have hbefore : Reading.positions filter = .ok p := (Reading.positions_eq hparse).trans hp
  have hafter := (Reading.positions_eq hsplit).trans (Positions.parse_print_withCounts hp _ _)
  refine ⟨bind_eq_ok_iff.mpr ⟨p, hbefore, hl⟩, bind_eq_ok_iff.mpr ⟨p, hbefore, ho⟩, _, _,
    Edit.addRestrictions_counts hparse hp limit offset, Filter.split_eq_ok_iff.mpr hsplit, ?_⟩
  simp only [Reading.limit, Reading.offset, hafter, Restriction.parse_withCounts hp hs, bind,
    Except.bind, Positions.limit?_withCounts hl, Positions.offset?_withCounts ho, true_and]
  constructor
  · rintro ⟨h₁, h₂, -⟩
    exact ⟨overwritten_eq_ok_iff.mp h₁, overwritten_eq_ok_iff.mp h₂⟩
  · rintro ⟨h₁, h₂⟩
    rw [overwritten_eq_ok_iff.mpr h₁, overwritten_eq_ok_iff.mpr h₂]
    exact ⟨rfl, rfl, rfl⟩

/-- A limit at the end of the range, with a sign and zeros in front of it, and an offset that is no
number without a sign. -/
theorem written_counts_read_back_signed :
    Edit.onText (Edit.addRestrictions [] [] "+009223372036854775807".toList "-0".toList)
        "a?? b , desc,,7".toList = .ok "a??b,desc,+009223372036854775807,7".toList ∧
      Reading.limit "a??b,desc,+009223372036854775807,7".toList =
        .ok (some 0x7FFFFFFFFFFFFFFF) ∧
      Reading.offset "a??b,desc,+009223372036854775807,7".toList = .ok (some 7) ∧
      Restriction.parse ⟨some, [], []⟩ "b,desc,+009223372036854775807,7".toList =
        .ok ⟨["b".toList], some .desc, some 0x7FFFFFFFFFFFFFFF, some 7⟩ := by
  have hsplit : Filter.split "a?? b , desc,,7".toList =
      .ok ⟨"a".toList, [], " b , desc,,7".toList⟩ := by cbv
  have hedit : Edit.onText (Edit.addRestrictions [] [] "+009223372036854775807".toList "-0".toList)
      "a?? b , desc,,7".toList = .ok "a??b,desc,+009223372036854775807,7".toList := rfl
  have hlimit : Text.nat64? "+009223372036854775807".toList = some 0x7FFFFFFFFFFFFFFF := rfl
  have hoffset : Text.nat64? "-0".toList = none := rfl
  obtain ⟨-, -, out, g, hout, hg, -, -, -, hreads⟩ := written_counts_read_back_iff ⟨some, [], []⟩ _
    "+009223372036854775807".toList "-0".toList _ ⟨["b".toList], some .desc, none, some 7⟩ hsplit
    rfl
  obtain rfl := Except.ok.inj (hedit.symm.trans hout)
  have hwritten : Filter.split "a??b,desc,+009223372036854775807,7".toList =
      .ok ⟨"a".toList, [], "b,desc,+009223372036854775807,7".toList⟩ := by cbv
  obtain rfl := Except.ok.inj (hwritten.symm.trans hg)
  obtain ⟨h₁, h₂, h₃⟩ := hreads.mpr (by decide)
  rw [hlimit, hoffset] at h₃
  exact ⟨hedit, h₁.trans (by rw [hlimit]; rfl), h₂.trans (by rw [hoffset]; rfl), h₃⟩

/-- Numbers of the upper half can be written and not read: the text is accepted as a limit, and then
neither the limit nor the restrictions of a statement can be read any more. -/
theorem upper_half_unreadable :
    (Reading.limit "ID??".toList = .ok none ∧ Reading.offset "ID??".toList = .ok none ∧
        Restriction.parse ⟨some, [], []⟩ [] = .ok ⟨[], none, none, none⟩) ∧
      Text.nat64? "9223372036854775808".toList = some 0x8000000000000000 ∧
      Edit.onText (Edit.addRestrictions [] [] "9223372036854775808".toList []) "ID??".toList =
        .ok "ID??,,9223372036854775808,".toList ∧
      Reading.limit "ID??,,9223372036854775808,".toList =
        .error (.invalidValue .limit "9223372036854775808".toList .unexpected) ∧
      Restriction.parse ⟨some, [], []⟩ ",,9223372036854775808,".toList =
        .error (.invalidValue .limit "9223372036854775808".toList .unexpected) := by
  exact ⟨⟨rfl, rfl, rfl⟩, rfl, rfl, rfl, rfl⟩

end FilterLang
