import FilterLang.Connector
import FilterLang.Operator

/-! Everything that can be wrong with a request, and the text that reports it. -/
namespace FilterLang

/-- What the caller left empty. -/
inductive Input where
  | parameters
  | target
  | queryString
  | searchString
  | fieldName

/-- Where a field name was met that no column stands behind. -/
inductive Place where
  | select
  | condition
  | search
  | sort

/-- The values that have to meet a condition of their own. -/
inductive Subject where
  | literal
  | sortOrder
  | limit
  | offset

inductive Reason where
  | unexpected
  | negative
  | tooLong

/-- Wrong structure: blocks, groups, connectors. Each cause keeps the text that shows it. -/
inductive Fault where
  | blockCount (filter : Text)
  | unbalanced (rest : Text)
  | nestedGroup (group : Text)
  | innerGroup
  | emptyGroup
  | emptyCondition (rest : Text)
  | strayParenthesis (atom : Text)
  | missingConnector (rest : Text)
  | danglingConnector (connector : Connector)
  | positionCount (block : Text)
  | notReadBack (condition : Text)

inductive Error where
  | missing (input : Input)
  | unknownField (place : Place) (name : Text)
  | unsupportedOperator (condition : Text)
  | operatorOnNull (operator : Operator)
  | operatorOnArray (operator : Operator)
  | invalidValue (subject : Subject) (value : Text) (reason : Reason)
  | malformed (fault : Fault)

def Input.name : Input → Text
  | parameters => "request parameters".toList
  | target => "request target".toList
  | queryString => "query string".toList
  | searchString => "search string".toList
  | fieldName => "condition field name".toList

def Place.name : Place → Text
  | select => "select".toList
  | condition => "condition".toList
  | search => "search condition".toList
  | sort => "selection order".toList

def Subject.name : Subject → Text
  | literal => "string value in condition".toList
  | sortOrder => "selection order".toList
  | limit => "selection limit".toList
  | offset => "selection offset".toList

def Reason.name : Reason → Text
  | unexpected => "unexpected".toList
  | negative => "invalid negative".toList
  | tooLong => "too long".toList

def Fault.message : Fault → Text
  | blockCount filter => "expected 3 blocks separated by '?' in - ".toList ++ filter
  | unbalanced rest => "unbalanced parenthesis in - ".toList ++ rest
  | nestedGroup group => "nested groups are not supported - ".toList ++ group
  | innerGroup => "nested groups are not supported".toList
  | emptyGroup => "empty group".toList
  | emptyCondition rest => "empty condition before - ".toList ++ rest
  | strayParenthesis atom => "unexpected parenthesis in - ".toList ++ atom
  | missingConnector rest => "missing logical operator before - ".toList ++ rest
  | danglingConnector connector => "dangling logical operator ".toList ++ connector.token
  | positionCount block => "restrictions block takes 4 positions - ".toList ++ block
  | notReadBack condition => "condition does not read back as written - ".toList ++ condition

/-- The text of an error. Only a null set against overlaps is told in words of its own. -/
def Error.message : Error → Text
  | missing input => input.name ++ " not passed".toList
  | unknownField place name =>
    "unexpected field name in ".toList ++ place.name ++ " - ".toList ++ name
  | unsupportedOperator condition => "unsupported operator in condition - ".toList ++ condition
  | operatorOnNull .overlaps => "unexpected OVERLAPS operator in NULL condition".toList
  | operatorOnNull operator =>
    "unexpected operator ".toList ++ operator.token ++ " in NULL condition".toList
  | operatorOnArray operator =>
    "unexpected operator ".toList ++ operator.token ++ " in ARRAY condition".toList
  | invalidValue subject value reason =>
    reason.name ++ ' ' :: subject.name ++ " - ".toList ++ value
  | malformed fault => "malformed query: ".toList ++ fault.message

end FilterLang
