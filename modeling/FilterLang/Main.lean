import FilterLang.Session

/-! The command line: a session on standard input and output. -/
namespace FilterLang

def defaultPath : String := "models.json"

/-- Looks what stands at a path. -/
def sourceAt (path : String) : IO Registry.Source := do
  try
    return .file (← IO.FS.readFile path).toList
  catch
    | .noFileOrDirectory .. => return .missing
    | _ => return .unreadable

def put (s : Text) : IO Unit := IO.print (String.ofList s)

/-- Takes lines up to the end of the input or a command to quit. Blank lines are passed over. -/
partial def loop (input : IO.FS.Stream) (s : Session) : IO Unit := do
  put s.prompt
  (← IO.getStdout).flush
  let entered ← input.getLine
  if entered.isEmpty then return
  let entered := Text.trim entered.toList
  if entered.isEmpty then loop input s
  else
    let reply := s.handle .postgres entered
    put reply.output
    if reply.continues then loop input reply.session

/-- Starts a session with a registry. -/
def serve (registry : Registry) : IO UInt32 := do
  match Session.start registry with
  | .error e =>
    IO.eprintln (String.ofList ("Error: ".toList ++ e.message))
    return 1
  | .ok s =>
    put (lines Session.helpLines)
    loop (← IO.getStdin) s
    return 0

/-- The registry at a path that was asked for has to load. -/
def serveFrom (path : String) : IO UInt32 := do
  match Registry.load path.toList (← sourceAt path) with
  | .error e =>
    IO.eprintln (String.ofList
      ("Error: failed to load model registry ".toList ++ path.toList ++ ": ".toList ++ e.message))
    return 1
  | .ok registry =>
    put (Session.loadedLine path.toList registry)
    serve registry

end FilterLang

open FilterLang in
/-- Takes the path of a registry, or else the default one, for which the demo model may stand in. -/
def main (args : List String) : IO UInt32 := do
  put (line "--- filter to SQL compiler ---".toList)
  match args with
  | path :: _ => serveFrom path
  | [] =>
    let (registry, report) := Session.openRegistry defaultPath.toList (← sourceAt defaultPath)
    put report
    serve registry
