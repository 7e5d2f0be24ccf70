import FilterLang.Sql.Clause

/-! Units compiled in parts. Wherever a sequence is cut, what stands behind the cut is numbered
after the values in front of it, and one space takes the place of the cut. -/
namespace FilterLang.Sql

variable (quote : Quoting) (settings : Settings) (r : Resolver) (mode : Mode) (bind : BindMode)
  (used : UInt64)

theorem compileFrom_eq_foldlM (out : Fragment) (nodes : List (Node Condition)) :
    compileFrom quote settings r mode bind used out nodes =
      nodes.foldlM (compileNext quote settings r mode bind used) out := by
  induction nodes generalizing out with
  | nil => rfl
  | cons n nodes ih =>
    rw [compileFrom, List.foldlM_cons, compileNext]
    cases compileUnit quote settings r mode bind (used + .ofNat out.args.length) n with
    | error e => rfl
    | ok next => exact ih (out.push next)

/-- Units behind others fail after them, and else are pushed onto them. -/
theorem compileNodes_append (xs ys : List (Node Condition)) :
    compileNodes quote settings r mode bind used (xs ++ ys) = do
      let front ← compileNodes quote settings r mode bind used xs
      let back ← compileNodes quote settings r mode bind (used + .ofNat front.args.length) ys
      return front.push back := by
  rw [compileNodes, compileFrom_eq_foldlM, List.foldlM_append, ← compileFrom_eq_foldlM,
    compileNodes]
  refine bind_congr fun front => ?_
  rw [← compileFrom_eq_foldlM, compileFrom_eq]
  rfl

/-- Compilation goes along with putting sequences of units together, at any place and any depth, and
pushing fragments is associative with the empty one as identity. So compiling a sequence is one loop
over its units. -/
theorem compilation_composes (quote : Quoting) (settings : Settings) (r : Resolver) (mode : Mode)
    (bind : BindMode) (used : UInt64) :
    (∀ xs ys, compileNodes quote settings r mode bind used (xs ++ ys) = do
      let front ← compileNodes quote settings r mode bind used xs
      let back ← compileNodes quote settings r mode bind (used + .ofNat front.args.length) ys
      return front.push back) ∧
    (∀ nodes, compileNodes quote settings r mode bind used nodes =
      nodes.foldlM (compileNext quote settings r mode bind used) .empty) ∧
    (∀ f g h : Fragment, (f.push g).push h = f.push (g.push h)) ∧
    ∀ f : Fragment, Fragment.empty.push f = f ∧ f.push .empty = f :=
  ⟨compileNodes_append quote settings r mode bind used,
    compileFrom_eq_foldlM quote settings r mode bind used .empty, Fragment.push_assoc,
    fun f => ⟨f.empty_push, f.push_empty⟩⟩

end FilterLang.Sql
