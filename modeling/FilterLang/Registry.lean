import FilterLang.FieldMap

/-! Data models, and the registry that names them. -/
namespace FilterLang

/-- A model's own fields, with the models that are embedded in it. -/
structure Model where
  base : FieldMap
  embedded : List FieldMap

/-- All fields of a model. Where names collide the last embedded model wins. -/
def Model.fieldMap (m : Model) : FieldMap := m.embedded.foldl FieldMap.merge m.base

structure Registry where
  models : Std.TreeMap Text Model

namespace Registry

/-- Why a registry could not be loaded, or not be asked. -/
inductive Error where
  | notFound (path : Text)
  | unreadable (path : Text)
  | invalid
  | unknownTarget (name : Text)
  | noTargets

def Error.message : Error → Text
  | notFound path => "config file not found: ".toList ++ path
  | unreadable path => "cannot read config file ".toList ++ path
  | invalid => "cannot parse model registry".toList
  | unknownTarget name => "unknown request target - ".toList ++ name
  | noTargets => "model registry has no targets".toList

def empty : Registry := ⟨∅⟩

def insert (r : Registry) (target : Text) (model : Model) : Registry :=
  ⟨r.models.insert target model⟩

def model? (r : Registry) (target : Text) : Option Model := r.models[target]?

/-- The fields of the model behind a request target. -/
def fieldMap (r : Registry) (target : Text) : Except Registry.Error FieldMap :=
  match r.model? target with
  | some model => .ok model.fieldMap
  | none => .error (.unknownTarget target)

/-- The names of all models, in the order of their characters. -/
def targets (r : Registry) : List Text := r.models.keys

def size (r : Registry) : Nat := r.models.size

/-- The fields of the model that stands in when there is no registry. -/
def demoFields : FieldMap :=
  .ofPairs [("ID".toList, "id".toList), ("content".toList, "content".toList),
    ("count".toList, "count".toList), ("isBool".toList, "is_bool".toList)]

def demo : Registry := empty.insert "v_test".toList ⟨demoFields, []⟩

end Registry

end FilterLang
