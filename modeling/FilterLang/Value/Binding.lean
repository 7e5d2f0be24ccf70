import FilterLang.Value.Basic

/-! Values as a database driver binds them. The items of a bound array have one type. -/
namespace FilterLang

inductive Binding where
  | bool (b : Bool)
  | int (n : Int)
  /-- Without a text it is the null value. -/
  | text (s : Option Text)
  | bools (items : List Bool)
  | ints (items : List Int)
  | texts (items : List Text)

/-- The types that the items of an array are bound with. -/
inductive ItemType where
  | bool
  | int
  | text
  deriving DecidableEq

/-- A bound value as it is handed over. Nothing in its form keeps the items of an array to the type
that the array names. -/
inductive Tagged where
  | bool (b : Bool)
  | int (n : Int)
  | text (s : Option Text)
  | array (type : ItemType) (items : List Tagged)

/-- A binding as it is handed over. -/
def Binding.tagged : Binding → Tagged
  | bool b => .bool b
  | int n => .int n
  | text s => .text s
  | bools items => .array .bool (items.map .bool)
  | ints items => .array .int (items.map .int)
  | texts items => .array .text (items.map fun s => .text (some s))

namespace Value

def bool? : Value → Option Bool
  | bool b => some b
  | _ => none

def int? : Value → Option Int
  | int n => some n
  | _ => none

/-- Binds an array. One that is empty or mixed is bound as the texts of its items. -/
def bindArray (items : List Value) : Binding :=
  match items.mapM int?, items.mapM bool? with
  | some (n :: ns), _ => .ints (n :: ns)
  | _, some (b :: bs) => .bools (b :: bs)
  | _, _ => .texts (items.map display)

/-- A value behind a key is bound as it is; the key belongs to the statement. -/
def binding : Value → Binding
  | null => .text none
  | bool b => .bool b
  | int n => .int n
  | text s => .text (some s)
  | array items => bindArray items
  | path _ inner => inner.binding

/-- Whether `f` takes all of the values, of which there has to be one. -/
def allBy {α : Type} (f : Value → Option α) (values : List Value) : Bool :=
  !values.isEmpty && values.all fun v => (f v).isSome

/-- The type that an array is bound with. It is text unless there are items, and all of them are
numbers or all are truth values. -/
def itemType (values : List Value) : ItemType :=
  if allBy int? values then .int
  else if allBy bool? values then .bool
  else .text

mutual

/-- A value as it is handed over if arrays are converted item by item. -/
def tagged : Value → Tagged
  | null => .text none
  | bool b => .bool b
  | int n => .int n
  | text s => .text (some s)
  | array items => .array (itemType items) (taggedAll (itemType items) items)
  | path _ inner => inner.tagged

/-- Items each on its own, by the type that was chosen for all of them. -/
def taggedAll (type : ItemType) : List Value → List Tagged
  | [] => []
  | v :: vs => (if type = .text then .text (some v.display) else v.tagged) :: taggedAll type vs

end

end Value

end FilterLang
