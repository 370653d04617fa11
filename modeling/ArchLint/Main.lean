import ArchLint.Command

/-!
# The command line

    archcheck check [PATH] [--format FORMAT] [--rules NAMES] [--exclude PATTERN]... [--config FILE]
    archcheck list-rules
    archcheck init [--force]

A check that fails ends with exit code 1, a call that is not understood with 2.
-/

namespace ArchLint.CommandLine

inductive Invocation where
  | check (request : CheckRequest) (config : Option Path)
  | listRules
  | init (force : Bool)

def readCheck (request : CheckRequest) (config : Option Path) : List String → Option Invocation
  | [] => some (.check request config)
  | "--format" :: name :: rest | "-f" :: name :: rest => do
    readCheck { request with format := ← ReportFormat.ofName? name } config rest
  | "--rules" :: names :: rest => readCheck { request with filter := some names } config rest
  | "--exclude" :: pattern :: rest | "-e" :: pattern :: rest =>
    readCheck { request with exclude := request.exclude ++ [pattern] } config rest
  | "--config" :: path :: rest | "-c" :: path :: rest => readCheck request (some ⟨path⟩) rest
  | path :: rest =>
    if path.startsWith "-" then none else readCheck { request with path := ⟨path⟩ } config rest

def read : List String → Option Invocation
  | "check" :: rest => readCheck {} none rest
  | ["list-rules"] => some .listRules
  | ["init"] => some (.init false)
  | ["init", "--force"] => some (.init true)
  | _ => none

def namesOf (p : Path) : List String :=
  p.components.foldl
    (fun names c => match c with
      | .root => []
      | .current => names
      | .parent => names.dropLast
      | .normal name => names ++ [name]) []

def put (v : Volume) (p : Path) (new : Volume) : Volume :=
  (Volume.insert new (namesOf p) v).getD v

/-- The volume with a file of the machine in it, if that file can be read. -/
def loadFile (v : Volume) (p : Path) : IO Volume := do
  try
    return put v p (.file (← IO.FS.readBinFile p.text))
  catch _ => return v

partial def loadTree (v : Volume) (p : Path) : IO Volume := do
  let place := (← IO.currentDir) / p.text
  if ← place.isDir then
    let entries ← place.readDir
    entries.foldlM (fun v entry => loadTree v (p.join ⟨entry.fileName⟩)) (put v p .empty)
  else loadFile v p

def ancestors (p : Path) : List Path :=
  let names := namesOf p
  (List.range names.length).map fun n => ⟨"/" ++ "/".intercalate (names.take n)⟩

def globalDirectory : IO (Option Path) := do
  match ← IO.getEnv "ARCHCHECK_CONFIG_DIR" with
  | some directory => return some ⟨directory⟩
  | none => return (← IO.getEnv "HOME").map fun home => Path.join ⟨home⟩ ⟨".archcheck"⟩

/-- What a command on `target` may have to look at. -/
def environment (target : Path) (config : Option Path) : IO Environment := do
  let workingDirectory : Path := ⟨(← IO.currentDir).toString⟩
  let globalDirectory ← globalDirectory
  let root := workingDirectory.join target
  let single := config.toList ++ (globalDirectory.map fun d => d.join ⟨ConfigSource.globalName⟩).toList
  let around := (ancestors root).flatMap fun d => [d.join ⟨".gitignore"⟩, d.join ⟨".ignore"⟩]
  let volume ← (single ++ around).foldlM (fun v p => loadFile v (workingDirectory.join p)) .empty
  return { volume := ← loadTree volume root, workingDirectory, globalDirectory }

def run : Invocation → IO UInt32
  | .listRules => do
    IO.print Command.listRules
    return 0
  | .init force => do
    let e ← environment Command.initPath none
    match Command.init e force with
    | .error cause =>
      IO.eprintln ("Error: " ++ cause.message)
      return 1
    | .ok _ =>
      IO.FS.writeFile Command.initPath.text configTemplate
      IO.print Command.initNote
      return 0
  | .check request config => do
    let e ← environment request.path config
    match Command.check e { request with source := ConfigSource.find e request.path config } with
    | .error cause =>
      IO.eprintln ("Error: " ++ cause.message)
      return 1
    | .ok outcome =>
      IO.print outcome.output
      return if outcome.passed then 0 else 1

end ArchLint.CommandLine

def main (args : List String) : IO UInt32 :=
  match ArchLint.CommandLine.read args with
  | some invocation => ArchLint.CommandLine.run invocation
  | none => do
    IO.eprintln "usage: archcheck check [PATH] | archcheck list-rules | archcheck init [--force]"
    return 2
