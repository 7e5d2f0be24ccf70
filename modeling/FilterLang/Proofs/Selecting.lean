import FilterLang.Proofs.Confinement
import FilterLang.Proofs.Overwriting
import Mathlib.Data.List.DropRight

/-! Names that are added to the select block. Each write takes the block apart and puts it together
again, so that whatever a write leaves in the block has to come back whole. -/
namespace FilterLang

variable {s block : Text} {r : Resolver} {names : List Text} {f : Filter}

namespace Text

theorem trim_trim (s : Text) : s.trim.trim = s.trim := by
  have hfront : s.trim.dropWhile isBlank = s.trim := by
    rw [List.dropWhile_eq_self_iff]
    intro hpos
    have hprefix := List.rdropWhile_prefix isBlank (s.dropWhile isBlank)
    have hfirst := List.dropWhile_eq_self_iff.mp (List.dropWhile_idempotent isBlank s)
      (hpos.trans_le hprefix.length_le)
    rwa [← hprefix.getElem hpos] at hfirst
  calc s.trim.trim
    _ = (s.trim.dropWhile isBlank).rdropWhile isBlank := rfl
    _ = s.trim.rdropWhile isBlank := by rw [hfront]
    _ = s.trim := List.rdropWhile_idempotent isBlank _

/-- A text that is trimmed to nothing is blank throughout. -/
theorem isBlank_of_trim_eq_nil (h : s.trim = []) : ∀ c ∈ s, isBlank c := by
  have hrest : ∀ c ∈ s.dropWhile isBlank, isBlank c := List.rdropWhile_eq_nil_iff.mp h
  have hfront : s.dropWhile isBlank = [] := by
    rw [← List.dropWhile_idempotent, List.dropWhile_eq_nil_iff]
    exact hrest
  exact List.dropWhile_eq_nil_iff.mp hfront

end Text

namespace Selection

/-- A name that stands in a select block by itself: not blank, and with neither commas in it nor
blanks around it. -/
structure Plain (name : Text) : Prop where
  ne_nil : name ≠ []
  noComma : ',' ∉ name
  trimmed : name.trim = name

/-- The names of a block, without the empty ones. -/
def chosen (block : Text) : List Text := (Selection.names block).filter (!·.isEmpty)

theorem mem_chosen_iff {name : Text} :
    name ∈ chosen block ↔ name ∈ Selection.names block ∧ name ≠ [] := by
  simp [chosen]

theorem plain_of_mem_chosen {name : Text} (h : name ∈ chosen block) : Plain name := by
  obtain ⟨hname, hne⟩ := mem_chosen_iff.mp h
  obtain ⟨part, hpart, rfl⟩ := List.mem_map.mp hname
  refine ⟨hne, ?_, Text.trim_trim part⟩
  intro hcomma
  exact Text.comma_notMem_of_mem_splitOn hpart ((Text.trim_sublist part).subset hcomma)

/-- Plain names that were put together are found again. -/
theorem names_intercalate (h : ∀ name ∈ names, Plain name) (hne : names ≠ []) :
    Selection.names ([','].intercalate names) = names := by
  rw [Selection.names, List.splitOn_intercalate ',' (fun name hname => (h name hname).noComma) hne]
  calc names.map Text.trim
    _ = names.map id := List.map_congr_left fun name hname => (h name hname).trimmed
    _ = names := List.map_id names

theorem chosen_intercalate (h : ∀ name ∈ names, Plain name) :
    chosen ([','].intercalate names) = names := by
  by_cases hne : names = []
  · subst hne
    decide
  · rw [chosen, names_intercalate h hne, List.filter_eq_self]
    intro name hname
    simpa using (h name hname).ne_nil

theorem chosen_of_blank (h : block.trim = []) : chosen block = [] := by
  have hcomma : ',' ∉ block := by
    intro hmem
    exact absurd (Text.isBlank_of_trim_eq_nil h ',' hmem) (by decide)
  rw [chosen, Selection.names, List.splitOn_eq_singleton hcomma]
  simp [h]

/-- The names that a write adds to a list: those that the model knows and the list has not yet, each
where it is given first. -/
def added (r : Resolver) (current names : List Text) : List Text :=
  (names.filter fun name => (r.resolve name).isSome && !current.contains name).eraseDups

theorem mem_added_iff {current : List Text} {name : Text} :
    name ∈ added r current names ↔
      name ∈ names ∧ (r.resolve name).isSome ∧ name ∉ current := by
  simp [added]

/-- The columns of a block can be read exactly if it is blank or the model knows all its names. -/
theorem exists_columns?_iff :
    (∃ columns, columns? r block = .ok columns) ↔
      block.trim = [] ∨ ∀ name ∈ Selection.names block, (r.resolve name).isSome := by
  have hcolumn : ∀ name, (∃ column, r.column .select name = .ok column) ↔
      (r.resolve name).isSome := by
    intro name
    unfold Resolver.column
    cases r.resolve name <;> simp
  unfold columns?
  by_cases hb : block.trim = []
  · simp [hb]
  · simp only [List.isEmpty_iff, hb, if_false, false_or, ← hcolumn]
    rw [← exists_mapM_eq_ok_iff]
    cases (Selection.names block).mapM (r.column .select) <;> simp [Except.map]

/-- A block whose columns can be read chooses names that the model knows. -/
theorem known_of_mem_chosen {name : Text} (h : ∃ columns, columns? r block = .ok columns)
    (hname : name ∈ chosen block) : (r.resolve name).isSome := by
  rcases exists_columns?_iff.mp h with hblank | hall
  · rw [chosen_of_blank hblank] at hname
    cases hname
  · exact hall name (mem_chosen_iff.mp hname).1

theorem exists_columns?_intercalate (hplain : ∀ name ∈ names, Plain name)
    (hknown : ∀ name ∈ names, (r.resolve name).isSome) :
    ∃ columns, columns? r ([','].intercalate names) = .ok columns := by
  rw [exists_columns?_iff]
  by_cases hne : names = []
  · subst hne
    exact .inl rfl
  · rw [names_intercalate hplain hne]
    exact .inr hknown

end Selection

namespace Edit

open Selection

/-- Names that are appended one by one are those that the list lacks. -/
theorem appendNames_eq (r : Resolver) (current names : List Text) :
    appendNames r current names = current ++ added r current names := by
  induction names generalizing current with
  | nil => simp [appendNames, added]
  | cons name names ih =>
    rw [appendNames, List.foldl_cons, ← appendNames]
    by_cases hnew : (r.resolve name).isSome && !current.contains name
    · have hrest : added r current (name :: names) = name :: added r (current ++ [name]) names := by
        simp only [added, List.filter_cons, hnew, if_true, List.eraseDups_cons, List.filter_filter]
        congr 2
        apply List.filter_congr
        intro other _
        grind
      rw [if_pos hnew, ih, hrest]
      simp
    · have hrest : added r current (name :: names) = added r current names := by
        simp only [added, List.filter_cons, hnew]
        rfl
      rw [if_neg hnew, ih, hrest]

/-- The names in the block before a write adds to them. -/
def kept (replace : Bool) (block : Text) : List Text := if replace then [] else chosen block

theorem fields_addFields (replace : Bool) :
    (addFields r names replace f).fields =
      [','].intercalate (kept replace f.fields ++ added r (kept replace f.fields) names) := by
  rw [← appendNames_eq]
  rfl

variable {replace : Bool}

theorem plain_of_mem_fields (hr : ∀ name, (r.resolve name).isSome → Plain name) {name : Text}
    (h : name ∈ kept replace block ++ added r (kept replace block) names) : Plain name := by
  rcases List.mem_append.mp h with h | h
  · cases replace with
    | true => cases h
    | false => exact plain_of_mem_chosen h
  · exact hr name (mem_added_iff.mp h).2.1

/-- A write finds all that it left in the block. -/
theorem chosen_addFields (hr : ∀ name, (r.resolve name).isSome → Plain name) :
    chosen (addFields r names replace f).fields =
      kept replace f.fields ++ added r (kept replace f.fields) names := by
  rw [fields_addFields]
  exact chosen_intercalate fun name => plain_of_mem_fields hr

/-- What a write added is not added again. -/
theorem added_append_added (r : Resolver) (current names : List Text) :
    added r (current ++ added r current names) names = [] := by
  rw [List.eq_nil_iff_forall_not_mem]
  intro name hname
  obtain ⟨hmem, hknown, hnew⟩ := mem_added_iff.mp hname
  rw [List.mem_append, not_or] at hnew
  exact hnew.2 (mem_added_iff.mpr ⟨hmem, hknown, hnew.1⟩)

theorem addFields_addFields (hr : ∀ name, (r.resolve name).isSome → Plain name) :
    addFields r names replace (addFields r names replace f) = addFields r names replace f := by
  cases replace with
  | true => rfl
  | false =>
    have hfields : (addFields r names false (addFields r names false f)).fields =
        (addFields r names false f).fields := by
      have hkept : kept false (addFields r names false f).fields =
          kept false f.fields ++ added r (kept false f.fields) names := chosen_addFields hr
      rw [fields_addFields, hkept, added_append_added, List.append_nil, fields_addFields]
    exact congrArg (fun fields => ({ f with fields } : Filter)) hfields

/-- Columns that could be read can still be read after a write, as it adds known names only. -/
theorem exists_columns?_addFields (hr : ∀ name, (r.resolve name).isSome → Plain name)
    (h : ∃ columns, columns? r f.fields = .ok columns) :
    ∃ columns, columns? r (addFields r names replace f).fields = .ok columns := by
  rw [fields_addFields]
  refine exists_columns?_intercalate (fun name => plain_of_mem_fields hr) ?_
  intro name hname
  rcases List.mem_append.mp hname with hname | hname
  · cases replace with
    | true => cases hname
    | false => exact known_of_mem_chosen h hname
  · exact (mem_added_iff.mp hname).2.1

end Edit

theorem Reading.fields_eq (hf : Filter.split s = .ok f) :
    Reading.fields r s = Selection.columns? r f.fields := by
  simp [fields, Filter.split_eq_ok_iff.mp hf, bind, Except.bind]

/-- Names that are added to a select block follow those that are there, each one that the model
knows once and where it is given first. Adding them again changes nothing, and columns that could be
read before can be read after. -/
theorem added_names_follow_once (r : Resolver)
    (hr : ∀ name, (r.resolve name).isSome → Selection.Plain name ∧ '?' ∉ name) (filter : Text)
    (f : Filter) (hf : Filter.split filter = .ok f) (names : List Text) (replace : Bool) :
    ∃ out g, Edit.onText (Write.addFields r names replace).edit filter = .ok out ∧
      Filter.split out = .ok g ∧
      Selection.chosen g.fields = Edit.kept replace f.fields ++
        Selection.added r (Edit.kept replace f.fields) names ∧
      Edit.onText (Write.addFields r names replace).edit out = .ok out ∧
      ((∃ columns, Reading.fields r filter = .ok columns) →
        ∃ columns, Reading.fields r out = .ok columns) := by
  have hplain : ∀ name, (r.resolve name).isSome → Selection.Plain name :=
    fun name hname => (hr name hname).1
  obtain ⟨-, hwhole⟩ := Filter.split_eq_ok_iff_whole.mp hf
  have hout : Filter.split (Edit.addFields r names replace f).print =
      .ok (Edit.addFields r names replace f) :=
    Filter.split_eq_ok_iff_whole.mpr
      ⟨rfl, Edit.whole_addFields (fun name hname => (hr name hname).2) hwhole⟩
  refine ⟨_, _, Write.onText_eq_ok_iff.mpr ⟨f, _, hf, rfl, rfl⟩, hout, Edit.chosen_addFields hplain,
    Write.onText_eq_ok_iff.mpr ⟨_, _, hout, rfl, ?_⟩, ?_⟩
  · rw [Edit.addFields_addFields hplain]
  · rw [Reading.fields_eq hf, Reading.fields_eq hout]
    exact Edit.exists_columns?_addFields hplain

/-- A model in which each name stands for itself. -/
def Resolver.ofNames (names : List Text) : Resolver :=
  ⟨fun name => if name ∈ names then some name else none, names, names.headD []⟩

/-- Of four names one is there, one is not known, and one is given twice. -/
theorem added_names_follow_once_repeated :
    Edit.onText (Write.addFields (.ofNames [['a'], ['b'], ['c']]) [['c'], ['a'], ['x'], ['c']]
        false).edit " b ,a?b==1?".toList = .ok "b,a,c?b==1?".toList ∧
      Selection.chosen "b,a,c".toList = [['b'], ['a'], ['c']] ∧
      Edit.onText (Write.addFields (.ofNames [['a'], ['b'], ['c']]) [['c'], ['a'], ['x'], ['c']]
        false).edit "b,a,c?b==1?".toList = .ok "b,a,c?b==1?".toList ∧
      ∃ columns, Reading.fields (.ofNames [['a'], ['b'], ['c']]) "b,a,c?b==1?".toList =
        .ok columns := by
  have hr : ∀ name, ((Resolver.ofNames [['a'], ['b'], ['c']]).resolve name).isSome →
      Selection.Plain name ∧ '?' ∉ name := by
    intro name hname
    have hmem : name = ['a'] ∨ name = ['b'] ∨ name = ['c'] := by
      simpa [Resolver.ofNames] using hname
    rcases hmem with rfl | rfl | rfl <;> exact ⟨⟨by decide, by decide, by decide⟩, by decide⟩
  have hsplit : Filter.split " b ,a?b==1?".toList = .ok ⟨" b ,a".toList, "b==1".toList, []⟩ := by
    cbv
  have hedit : Edit.onText (Write.addFields (.ofNames [['a'], ['b'], ['c']])
      [['c'], ['a'], ['x'], ['c']] false).edit " b ,a?b==1?".toList =
        .ok "b,a,c?b==1?".toList := by
    cbv
  obtain ⟨out, g, hout, hg, hchosen, hagain, hreads⟩ :=
    added_names_follow_once _ hr _ _ hsplit [['c'], ['a'], ['x'], ['c']] false
  obtain rfl := Except.ok.inj (hedit.symm.trans hout)
  have hblock : Except.ok g = .ok ⟨"b,a,c".toList, "b==1".toList, []⟩ := hg.symm.trans (by cbv)
  cases hblock
  exact ⟨hedit, hchosen.trans (by cbv), hagain, hreads ⟨_, by cbv⟩⟩

end FilterLang
