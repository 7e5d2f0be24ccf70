import FilterLang.Proofs.Listing
import FilterLang.Sql.Query

/-! Conditions written again from what was read of them. Only blanks can get lost, and nothing is
ever read from these. -/
namespace FilterLang

open Node

variable {s t : Text} {f g : Filter} {ns : List (Node Condition)}

/-- Two texts with the same fields, the same units and the same restrictions, however their
conditions are spaced. -/
structure Filter.Alike (s t : Text) (f g : Filter) : Prop where
  left : Filter.parse s = .ok f
  right : Filter.parse t = .ok g
  fields : g.fields = f.fields
  nodes : g.nodes = f.nodes
  restrictions : g.restrictions = f.restrictions

namespace Filter.Alike

/-- The clause takes the conditions of a filter from its units. -/
theorem clause (h : Alike s t f g) (quote : Sql.Quoting) (settings : Settings) (r : Resolver)
    (bind : Sql.BindMode) (search : Text) :
    Sql.compileWhere quote settings r bind g.conditions search =
      Sql.compileWhere quote settings r bind f.conditions search := by
  have hn : Block.parse .standard g.conditions = Block.parse .standard f.conditions := h.nodes
  simp only [Sql.compileWhere, hn]

/-- No statement, and no error either, tells the two apart. -/
theorem compile (h : Alike s t f g) (quote : Sql.Quoting) (settings : Settings) (r : Resolver)
    (target search : Text) (withCount withArgs : Bool) :
    Sql.compile quote settings r ⟨target, t, search, withCount, withArgs⟩ =
      Sql.compile quote settings r ⟨target, s, search, withCount, withArgs⟩ := by
  have hs : s ≠ [] := by
    rintro rfl
    cases h.left
  have ht : t ≠ [] := by
    rintro rfl
    cases h.right
  have hsplit : Filter.split s = .ok f := Filter.split_eq_ok_iff.mpr h.left
  have hsplit' : Filter.split t = .ok g := Filter.split_eq_ok_iff.mpr h.right
  simp only [Sql.compile, List.isEmpty_iff, hs, ht, hsplit, hsplit', if_false, bind, Except.bind,
    h.fields, h.restrictions, h.clause]

theorem occurrences (h : Alike s t f g) : Reading.occurrences t = Reading.occurrences s := by
  simp only [Reading.occurrences, h.left, h.right, h.nodes, bind, Except.bind]

theorem occurrence? (h : Alike s t f g) (name : Text) :
    Reading.occurrence? name t = Reading.occurrence? name s := by
  simp only [Reading.occurrence?, h.occurrences]

end Filter.Alike

namespace Edit

theorem normalize_eq_ok (hf : Filter.parse s = .ok f) (hn : f.nodes = .ok ns) :
    onText normalize s = .ok (f.withNodes ns).print := by
  simp [onText, normalize, hf, hn, bind, Except.bind, pure, Except.pure]

theorem alike_normalize (hf : Filter.parse s = .ok f) (hn : f.nodes = .ok ns) :
    Filter.Alike s (f.withNodes ns).print f (f.withNodes ns) := by
  obtain ⟨hw, hseal, hsolid⟩ := Filter.writable_nodes hf hn
  have hq : '?' ∉ f.fields := (Filter.parse_eq_ok_iff.mp hf).2.1
  refine ⟨hf, Filter.parse_withNodes hq hw, rfl, ?_, rfl⟩
  rw [Filter.nodes_withNodes hw hseal hsolid, hn]

end Edit

/-- A filter whose conditions can be read is written again without the blanks in them. No statement,
no error and no listing tells the new text from the old one, and writing it once more changes
nothing. -/
theorem normalized_reads_alike (filter : Text) (f : Filter) (ns : List (Node Condition))
    (hf : Filter.parse filter = .ok f) (hn : f.nodes = .ok ns) :
    ∃ g, Edit.onText Edit.normalize filter = .ok g ∧
      Filter.parse g = .ok { f with conditions := f.conditions.unblank } ∧
      (∀ quote settings r target search withCount withArgs,
        Sql.compile quote settings r ⟨target, g, search, withCount, withArgs⟩ =
          Sql.compile quote settings r ⟨target, filter, search, withCount, withArgs⟩) ∧
      Reading.conditions g = Reading.conditions filter ∧
      (∀ r, Reading.resolvedConditions r g = Reading.resolvedConditions r filter) ∧
      (∀ name, Reading.condition? name g = Reading.condition? name filter) ∧
      (∀ r name, Reading.resolvedCondition? r name g = Reading.resolvedCondition? r name filter) ∧
      Edit.onText Edit.normalize g = .ok g := by
  have halike := Edit.alike_normalize hf hn
  refine ⟨_, Edit.normalize_eq_ok hf hn, ?_, halike.compile, ?_, ?_, ?_, ?_, ?_⟩
  · rw [← Filter.withNodes_eq hn]
    exact halike.right
  · rw [Reading.conditions, halike.occurrences]
    rfl
  · intro r
    rw [Reading.resolvedConditions, halike.occurrences]
    rfl
  · intro name
    rw [Reading.condition?, halike.occurrence?]
    rfl
  · intro r name
    rw [Reading.resolvedCondition?, halike.occurrence?]
    rfl
  · exact Edit.normalize_eq_ok (f := f.withNodes ns) halike.right (halike.nodes.trans hn)

/-- Blanks inside a name, around a connector and in a group go; those in the fields stay, and so do
those in the restrictions. -/
theorem normalized_reads_alike_spaced :
    Edit.onText Edit.normalize " a ?( a b == 1 | | c != 2 ) * a < 3? a , desc".toList =
        .ok " a ?(ab==1||c!=2)*a<3? a , desc".toList ∧
      ∀ quote settings r target search withCount withArgs,
        Sql.compile quote settings r
            ⟨target, " a ?(ab==1||c!=2)*a<3? a , desc".toList, search, withCount, withArgs⟩ =
          Sql.compile quote settings r
            ⟨target, " a ?( a b == 1 | | c != 2 ) * a < 3? a , desc".toList, search, withCount,
              withArgs⟩ := by
  have hnodes : Block.parse .standard "( a b == 1 | | c != 2 ) * a < 3".toList = .ok
      [.group [.leaf ⟨"ab".toList, .eq, "1".toList⟩ (some .or),
          .leaf ⟨"c".toList, .notEq, "2".toList⟩ none] (some .and),
        .leaf ⟨"a".toList, .lt, "3".toList⟩ none] := by cbv
  have hparse : Filter.parse " a ?( a b == 1 | | c != 2 ) * a < 3? a , desc".toList =
      .ok ⟨" a ".toList, "( a b == 1 | | c != 2 ) * a < 3".toList, " a , desc".toList⟩ := by cbv
  have hedit : Edit.onText Edit.normalize " a ?( a b == 1 | | c != 2 ) * a < 3? a , desc".toList =
      .ok " a ?(ab==1||c!=2)*a<3? a , desc".toList := by cbv
  obtain ⟨g, hg, -, hcompile, -⟩ := normalized_reads_alike _ _ _ hparse hnodes
  rw [hedit] at hg
  cases hg
  exact ⟨hedit, hcompile⟩

end FilterLang
