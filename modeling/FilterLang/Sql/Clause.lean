import FilterLang.Block
import FilterLang.Sql.Predicate

/-! The where clause: conditions compiled in their order, each after the values of those before
it. -/
namespace FilterLang.Sql

/-- The keyword of a where clause. -/
def whereOpening : Fragment := ⟨"where".toList, []⟩

section

variable (quote : Quoting) (settings : Settings) (r : Resolver) (mode : Mode) (bind : BindMode)

/-- Compiles one condition, after `used` placeholders. -/
def compileLeaf (used : UInt64) (k : Option Connector) (c : Condition) : Except Error Fragment := do
  let p ← Predicate.of settings r mode c
  return (p.template.render quote bind used).linked k

mutual

/-- Compiles one unit, after `used` placeholders. -/
def compileUnit (used : UInt64) : Node Condition → Except Error Fragment
  | .leaf c k => compileLeaf quote settings r mode bind used k c
  | .group children k => do
    let inner ← compileFrom used .empty children
    return inner.enclosed.linked k

/-- Compiles units in turn and pushes each of them onto `out`. The next one is numbered after the
values so far. -/
def compileFrom (used : UInt64) (out : Fragment) : List (Node Condition) → Except Error Fragment
  | [] => .ok out
  | n :: ns => do
    let next ← compileUnit (used + .ofNat out.args.length) n
    compileFrom used (out.push next) ns

end

/-- One pass of the loop: the unit is numbered after the values so far, and pushed onto them. -/
def compileNext (used : UInt64) (out : Fragment) (n : Node Condition) : Except Error Fragment :=
  (compileUnit quote settings r mode bind (used + .ofNat out.args.length) n).map out.push

/-- Compiles a sequence of units, after `used` placeholders. -/
def compileNodes (used : UInt64) (nodes : List (Node Condition)) : Except Error Fragment :=
  compileFrom quote settings r mode bind used .empty nodes

@[simp] theorem compileNodes_nil (used : UInt64) :
    compileNodes quote settings r mode bind used [] = .ok .empty := rfl

theorem compileUnit_group (used : UInt64) (children : List (Node Condition))
    (k : Option Connector) :
    compileUnit quote settings r mode bind used (.group children k) =
      (compileNodes quote settings r mode bind used children).map (·.enclosed.linked k) := by
  rw [compileUnit, compileNodes]
  cases compileFrom quote settings r mode bind used .empty children <;> rfl

/-- The loop pushes what is left onto the fragment that it was entered with. -/
theorem compileFrom_eq (used : UInt64) (out : Fragment) (nodes : List (Node Condition)) :
    compileFrom quote settings r mode bind used out nodes =
      (compileNodes quote settings r mode bind (used + .ofNat out.args.length) nodes).map
        out.push := by
  induction nodes generalizing used out with
  | nil => simp [compileFrom, Except.map]
  | cons n ns ih =>
    have hzero : ∀ m : UInt64, m + .ofNat Fragment.empty.args.length = m := fun m => by
      simp [Fragment.empty]
    rw [compileNodes, compileFrom, compileFrom, hzero]
    cases compileUnit quote settings r mode bind (used + .ofNat out.args.length) n with
    | error e => rfl
    | ok next =>
      have hargs : used + .ofNat (out.push next).args.length =
          used + .ofNat out.args.length + .ofNat next.args.length := by
        simp [Fragment.push, UInt64.ofNat_add, UInt64.add_assoc]
      dsimp only [Bind.bind, Except.bind]
      rw [ih, ih, hargs, Fragment.empty_push]
      cases compileNodes quote settings r mode bind
        (used + .ofNat out.args.length + .ofNat next.args.length) ns with
      | error e => rfl
      | ok rest => exact congrArg Except.ok (Fragment.push_assoc out next rest)

/-- The units behind the first are numbered after its values and pushed onto it. -/
theorem compileNodes_cons (used : UInt64) (n : Node Condition) (ns : List (Node Condition)) :
    compileNodes quote settings r mode bind used (n :: ns) = do
      let front ← compileUnit quote settings r mode bind used n
      let rest ← compileNodes quote settings r mode bind (used + .ofNat front.args.length) ns
      return front.push rest := by
  have hzero : used + .ofNat Fragment.empty.args.length = used := by simp [Fragment.empty]
  rw [compileNodes, compileFrom, hzero]
  simp only [compileFrom_eq, Fragment.empty_push]
  rfl

/-- The keyword of a clause and, if there is a search, that as one group. Conditions follow it unless
it stands `alone`. -/
def compileSearch (alone : Bool) (nodes : List (Node Condition)) : Except Error Fragment :=
  if nodes.isEmpty then .ok whereOpening
  else do
    let found ← compileNodes quote settings r .search bind 0 nodes
    return whereOpening.push (found.enclosed.linked (if alone then none else some .and))

/-- Compiles the where clause of a request. Both blocks are read before either is compiled. -/
def compileWhere (conditions search : Text) : Except Error Fragment := do
  let searchNodes ← Block.parse .search search
  let conditionNodes ← Block.parse .standard conditions
  if searchNodes.isEmpty && conditionNodes.isEmpty then return .empty
  else
    let clause ← compileSearch quote settings r bind conditionNodes.isEmpty searchNodes
    if conditionNodes.isEmpty then return clause
    else
      let used : UInt64 := .ofNat clause.args.length
      return clause.push (← compileNodes quote settings r .standard bind used conditionNodes)

end

end FilterLang.Sql
