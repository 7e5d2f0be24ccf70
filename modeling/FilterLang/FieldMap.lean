import FilterLang.Resolver
import Std.Data.TreeMap

/-! Field names with their columns. Names are unique and kept in the order of their characters. -/
namespace FilterLang

structure FieldMap where
  columnOf : Std.TreeMap Text Text
  primaryKey : Text

namespace FieldMap

def defaultPrimaryKey : Text := ['i', 'd']

def empty : FieldMap := ⟨∅, defaultPrimaryKey⟩

/-- Adds a name, or gives a known one another column. -/
def insert (m : FieldMap) (name column : Text) : FieldMap :=
  { m with columnOf := m.columnOf.insert name column }

def withPrimaryKey (m : FieldMap) (column : Text) : FieldMap := { m with primaryKey := column }

/-- Adds names in turn, so that the last column given to a name stands. -/
def insertAll (m : FieldMap) (pairs : List (Text × Text)) : FieldMap :=
  pairs.foldl (fun m (name, column) => m.insert name column) m

def ofPairs (pairs : List (Text × Text)) : FieldMap := empty.insertAll pairs

/-- The names with their columns, in the order of the names. -/
def pairs (m : FieldMap) : List (Text × Text) := m.columnOf.toList

/-- Takes over all fields of `other`, but not its primary key. -/
def merge (m other : FieldMap) : FieldMap := m.insertAll other.pairs

def resolve (m : FieldMap) (name : Text) : Option Text := m.columnOf[name]?

def columns (m : FieldMap) : List Text := m.pairs.map Prod.snd

@[simp] theorem resolve_empty (name : Text) : empty.resolve name = none := by
  simp [resolve, empty]

theorem resolve_insert (m : FieldMap) (name column n : Text) :
    (m.insert name column).resolve n = if name = n then some column else m.resolve n := by
  simp [resolve, insert, Std.TreeMap.getElem?_insert]

def resolver (m : FieldMap) : Resolver := ⟨m.resolve, m.columns, m.primaryKey⟩

end FieldMap

end FilterLang
