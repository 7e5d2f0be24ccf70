import FilterLang.Command
import FilterLang.Reading
import FilterLang.Registry.Reader
import FilterLang.Report

/-! A session: what is kept from one line to the next, and what each line prints. -/
namespace FilterLang

structure Session where
  registry : Registry
  target : Text
  /-- The fields of the current target. -/
  fields : FieldMap
  withCount : Bool
  withArgs : Bool
  json : Bool
  search : Text

/-- What a line leads to. -/
structure Reply where
  session : Session
  output : Text
  continues : Bool

namespace Session

/-- Starts at the first target, with everything switched off. -/
def start (registry : Registry) : Except Registry.Error Session :=
  match registry.targets.head? with
  | none => .error .noTargets
  | some target => do
    return ⟨registry, target, ← registry.fieldMap target, false, false, false, []⟩

def loadedLine (path : Text) (registry : Registry) : Text :=
  line ("✅ loaded ".toList ++ Text.ofNat registry.size ++ " model(s) from ".toList ++ path)

/-- The registry to work with, and a line that says where it is from. The demo model stands in for
one that cannot be loaded. -/
def openRegistry (path : Text) (source : Registry.Source) : Registry × Text :=
  match Registry.load path source with
  | .ok registry => (registry, loadedLine path registry)
  | .error e =>
    (.demo, line ("⚠️ ".toList ++ e.message ++ " (".toList ++ path
      ++ "), using the demo model".toList))

def prompt (s : Session) : Text := s.target ++ "> ".toList

def helpLines : List Text := [
  "Type a filter such as `ID,content?ID==1*content>>a,b?ID,desc,10,0` to compile it.".toList,
  "Commands:".toList,
  "  :target <name>    switch the request target".toList,
  "  :targets          list known targets".toList,
  "  :count            toggle the row-count query".toList,
  "  :args             toggle placeholders ($N) and bound arguments".toList,
  "  :search [text]    set the search block (`field~~text`), or clear it".toList,
  "  :json             toggle JSON output".toList,
  "  :conditions <f>   list the conditions of a filter".toList,
  "  :help             show this help".toList,
  "  :quit             exit".toList]

def failure (message : Text) : Text := line ("✗ ".toList ++ message)

def switched (name : String) (on : Bool) : Text :=
  line (name.toList ++ ": ".toList ++ if on then "on".toList else "off".toList)

def entryLine (e : Entry) : Text :=
  "  ".toList ++ [' '].intercalate [e.field, e.operator, e.value]
    ++ if e.inGroup then " (grouped)".toList else []

def request (s : Session) (filter : Text) : Sql.Request :=
  ⟨s.target, filter, s.search, s.withCount, s.withArgs⟩

/-- The output for a filter. -/
def compile (quote : Sql.Quoting) (s : Session) (filter : Text) : Text :=
  match Sql.compile quote .standard s.fields.resolver (s.request filter) with
  | .ok query => query.report s.json
  | .error e => failure e.message

/-- Carries out a command. One that fails changes nothing. -/
def run (quote : Sql.Quoting) (s : Session) : Command → Reply
  | .quit => ⟨s, [], false⟩
  | .help => ⟨s, lines helpLines, true⟩
  | .targets => ⟨s, lines (s.registry.targets.map ("  ".toList ++ ·)), true⟩
  | .target name =>
    match s.registry.fieldMap name with
    | .ok fields =>
      ⟨{ s with target := name, fields }, line ("✓ target: ".toList ++ name), true⟩
    | .error e => ⟨s, failure e.message, true⟩
  | .count =>
    let s := { s with withCount := !s.withCount }
    ⟨s, switched "count query" s.withCount, true⟩
  | .args =>
    let s := { s with withArgs := !s.withArgs }
    ⟨s, switched "placeholders" s.withArgs, true⟩
  | .json =>
    let s := { s with json := !s.json }
    ⟨s, switched "json output" s.json, true⟩
  | .search text =>
    let output := if text.isEmpty then "search cleared".toList else "search: ".toList ++ text
    ⟨{ s with search := text }, line output, true⟩
  | .conditions filter =>
    match Reading.conditions filter with
    | .ok entries => ⟨s, lines (entries.map entryLine), true⟩
    | .error e => ⟨s, failure e.message, true⟩
  | .unknown word =>
    ⟨s, line ("unknown command ".toList ++ word ++ ", try :help".toList), true⟩
  | .filter filter => ⟨s, s.compile quote filter, true⟩

/-- Takes one line. -/
def handle (quote : Sql.Quoting) (s : Session) (input : Text) : Reply :=
  s.run quote (Command.parse input)

end Session

end FilterLang
