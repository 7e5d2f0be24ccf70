import FilterLang.Json.Reader
import FilterLang.Registry

/-! Registries from JSON: an object that gives each target a model. -/
namespace FilterLang.Registry

/-- The value of a member that may be left out but must not be given twice. -/
def atMostOne? (name : Text) (members : List (Text × Json)) : Option (Option Json) :=
  match members.filter (·.1 = name) with
  | [] => some none
  | [(_, value)] => some (some value)
  | _ => none

/-- Names with their columns. A name given twice has the column given last. -/
def pairs? (json : Json) : Option (List (Text × Text)) := do
  (← json.members?).mapM fun (name, column) => (Json.text? column).map (name, ·)

def fieldMapOf? (fields primaryKey : Option Json) : Option FieldMap := do
  let pairs ← (fields.map pairs?).getD (some [])
  let key ← (primaryKey.map Json.text?).getD (some FieldMap.defaultPrimaryKey)
  return (FieldMap.ofPairs pairs).withPrimaryKey key

def fieldsName : Text := "fields".toList

def primaryKeyName : Text := "primary_key".toList

def embeddedName : Text := "embedded".toList

def fieldMapOfMembers? (members : List (Text × Json)) : Option FieldMap := do
  fieldMapOf? (← atMostOne? fieldsName members) (← atMostOne? primaryKeyName members)

/-- An embedded model: an object, or a list of its fields and its primary key. Other members of the
object are skipped unseen. -/
def embeddedOf? (json : Json) : Option FieldMap :=
  match json with
  | .array [] => fieldMapOf? none none
  | .array [fields] => fieldMapOf? (some fields) none
  | .array [fields, primaryKey] => fieldMapOf? (some fields) (some primaryKey)
  | _ => do fieldMapOfMembers? (← json.members?)

/-- How deep values may nest in a document. -/
def maxDepth : Nat := 127

/-- A model: an object, two levels inside the document. Its other members are ignored, but they have
to make sense. -/
def modelOf? (json : Json) : Option Model := do
  let members ← json.members?
  let base ← fieldMapOfMembers? members
  let embedded ← match ← atMostOne? embeddedName members with
    | none => some []
    | some value => do (← value.items?).mapM embeddedOf?
  let others := members.filter fun (name, _) =>
    name ≠ fieldsName && name ≠ primaryKeyName && name ≠ embeddedName
  if others.all fun (_, value) => value.isSound (maxDepth - 2) then some ⟨base, embedded⟩ else none

/-- A registry. A target given twice has the model given last. -/
def ofJson? (json : Json) : Option Registry := do
  let models ← (← json.members?).mapM fun (target, model) => (modelOf? model).map (target, ·)
  return models.foldl (fun r (target, model) => r.insert target model) empty

def parse (content : Text) : Except Registry.Error Registry :=
  match Json.parse content >>= ofJson? with
  | some registry => .ok registry
  | none => .error .invalid

/-- What stands at a path. -/
inductive Source where
  | missing
  | unreadable
  | file (content : Text)

/-- Loads a registry from what stands at `path`. -/
def load (path : Text) : Source → Except Registry.Error Registry
  | .missing => .error (.notFound path)
  | .unreadable => .error (.unreadable path)
  | .file content => parse content

end FilterLang.Registry
