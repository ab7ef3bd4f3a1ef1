import SchemaLedger.Reconciliation

/-!
# The command line

Arguments are read from left to right. The first thing that ends the reading decides: a request
for help or for the version, or an argument that does not fit. Options that concern all commands
stand in front of the command, the others behind it.

An option takes its value from the rest of its argument or from the next one; the next one may not
look like an option itself. No option may be given twice.
-/

namespace SchemaLedger.CommandLine

/-! ## What can be asked for -/

/-- What a synchronization reads and how it runs. -/
structure SyncJob where
  schema : String
  entities : String
  ddl : Option String := none
  bootstrap : Bool := false
  dryRun : Bool := false
  deriving DecidableEq, Repr

/-- A command with the files that it reads. -/
inductive Job where
  | transform (input : String)
  | parseSchema (input : String)
  | sync (job : SyncJob)
  deriving DecidableEq, Repr

/-- The files that a command reads. -/
def Job.files : Job → List String
  | transform input => [input]
  | parseSchema input => [input]
  | sync job => [job.schema, job.entities] ++ job.ddl.toList

/-- A command and the options that concern all commands. -/
structure Invocation where
  sideTable : String
  verbose : Bool
  job : Job
  deriving DecidableEq, Repr

/-- A page of help. -/
inductive Page where
  | program
  | transform
  | parseSchema
  | sync
  | help
  deriving DecidableEq, Repr

/-- What ends the reading of arguments before there is an invocation. -/
inductive Stop where
  | help (page : Page)
  | version
  | usage
  deriving DecidableEq, Repr

/-! ## Options -/

/-- What an option does with a value; a path may not be empty. -/
inductive Role where
  | flag
  | text
  | path
  | stop (stop : Stop)
  deriving DecidableEq, Repr

/-- An option by its names. -/
structure Switch where
  long : String
  short : Option Char := none
  role : Role
  deriving DecidableEq, Repr

/-- The options that have been given, with their values. -/
abbrev Given := List (String × String)

namespace Given

/-- The value of an option. -/
def value? (g : Given) (long : String) : Option String := (g.find? (·.1 == long)).map (·.2)

/-- The value of an option that has to be given. -/
def value (g : Given) (long : String) : Except Stop String :=
  match g.value? long with
  | some v => .ok v
  | none => .error .usage

/-- The option has been given. -/
def has (g : Given) (long : String) : Bool := (g.value? long).isSome

/-- Takes in an option with its value. -/
def add (g : Given) (s : Switch) (value : String) : Except Stop Given :=
  match s.role with
  | .stop stop => .error stop
  | .path => if value.isEmpty || g.has s.long then .error .usage else .ok ((s.long, value) :: g)
  | _ => if g.has s.long then .error .usage else .ok ((s.long, value) :: g)

end Given

/-- The option takes a value. -/
def Switch.takesValue (s : Switch) : Bool := s.role == .text || s.role == .path

/-- The form of an argument. -/
inductive Form where
  | separator
  | long (name : String) (value : Option String)
  | short (letters : List Char)
  | plain
  deriving DecidableEq, Repr

/-- A lone dash is a plain argument. -/
def formOf (arg : String) : Form :=
  match arg.toList with
  | ['-', '-'] => .separator
  | '-' :: '-' :: body =>
    let name := String.ofList (body.takeWhile (· != '='))
    match body.dropWhile (· != '=') with
    | _ :: value => .long name (some (String.ofList value))
    | [] => .long name none
  | '-' :: c :: cs => .short (c :: cs)
  | _ => .plain

/-- Reads the letters of one argument; an option that still needs a value is returned with what
has been given. -/
def readLetters (switches : List Switch) (g : Given) : List Char →
    Except Stop (Given × Option Switch)
  | [] => .ok (g, none)
  | c :: cs =>
    match switches.find? (·.short == some c) with
    | none => .error .usage
    | some s =>
      if s.takesValue then
        match cs with
        | [] => .ok (g, some s)
        | '=' :: value => (·, none) <$> g.add s (String.ofList value)
        | value => (·, none) <$> g.add s (String.ofList value)
      else do readLetters switches (← g.add s "") cs

/-- Reads one option; as `readLetters`. -/
def readLong (switches : List Switch) (g : Given) (name : String) (value : Option String) :
    Except Stop (Given × Option Switch) :=
  match switches.find? (·.long == name), value with
  | none, _ => .error .usage
  | some s, some v => if s.takesValue then (·, none) <$> g.add s v else .error .usage
  | some s, none => if s.takesValue then .ok (g, some s) else (·, none) <$> g.add s ""

/-- Reads options up to the first plain argument; returns it and all behind it. -/
def readSwitches (switches : List Switch) (g : Given) : List String →
    Except Stop (Given × List String)
  | [] => .ok (g, [])
  | arg :: rest => do
    match formOf arg with
    | .separator => if rest.isEmpty then return (g, []) else throw .usage
    | .plain => return (g, arg :: rest)
    | .long name value => continueWith (← readLong switches g name value) rest
    | .short letters => continueWith (← readLetters switches g letters) rest
where
  /-- Goes on behind an option, which may need the next argument as its value. -/
  continueWith (done : Given × Option Switch) (rest : List String) :
      Except Stop (Given × List String) :=
    match done, rest with
    | (g, none), rest => readSwitches switches g rest
    | (_, some _), [] => .error .usage
    | (g, some s), value :: rest =>
      if formOf value = .plain then do readSwitches switches (← g.add s value) rest
      else .error .usage

/-! ## Commands -/

/-- The option that asks for a page of help. -/
def helpSwitch (page : Page) : Switch := ⟨"help", some 'h', .stop (.help page)⟩

/-- The options in front of a command. -/
def programSwitches : List Switch :=
  [⟨"schema-table", none, .text⟩, ⟨"verbose", some 'v', .flag⟩, helpSwitch .program,
    ⟨"version", some 'V', .stop .version⟩]

/-- The only option of a command that reads one file. -/
def inputSwitch : Switch := ⟨"input", some 'i', .path⟩

/-- The options of a synchronization. -/
def syncSwitches : List Switch :=
  [⟨"schema", some 's', .path⟩, ⟨"entities", some 'e', .path⟩, ⟨"ddl", none, .path⟩,
    ⟨"bootstrap", none, .flag⟩, ⟨"dry-run", none, .flag⟩, helpSwitch .sync]

/-- Reads options with nothing behind them. -/
def readAll (switches : List Switch) (args : List String) : Except Stop Given := do
  match ← readSwitches switches [] args with
  | (g, []) => return g
  | (_, _ :: _) => throw .usage

/-- The page about a command. -/
def pageOf? : String → Option Page
  | "transform" => some .transform
  | "parse-schema" => some .parseSchema
  | "sync" => some .sync
  | "help" => some .help
  | _ => none

/-- What ends the reading behind the command `help`. -/
def readHelp : List String → Stop
  | [] => .help .program
  | [command] => ((pageOf? command).map Stop.help).getD .usage
  | _ => .usage

/-- Reads a command and its options. -/
def readJob : List String → Except Stop Job
  | "transform" :: args => do
    return .transform (← (← readAll [inputSwitch, helpSwitch .transform] args).value "input")
  | "parse-schema" :: args => do
    return .parseSchema (← (← readAll [inputSwitch, helpSwitch .parseSchema] args).value "input")
  | "sync" :: args => do
    let g ← readAll syncSwitches args
    return .sync
      { schema := ← g.value "schema"
        entities := ← g.value "entities"
        ddl := g.value? "ddl"
        bootstrap := g.has "bootstrap"
        dryRun := g.has "dry-run" }
  | "help" :: args => .error (readHelp args)
  | _ => .error .usage

/-- The variable of the environment that names the side table where no option does. -/
def sideTableVariable : String := "OXIDE_SPANNER_SCHEMA_TABLE"

/-- Reads all arguments; `setting` is the value of `sideTableVariable`. -/
def Invocation.ofArgs (args : List String) (setting : Option String) :
    Except Stop Invocation := do
  let (g, rest) ← readSwitches programSwitches [] args
  let job ← readJob rest
  let sideTable := ((g.value? "schema-table").or setting).getD ({} : PassOptions).sideTable
  return ⟨sideTable, g.has "verbose", job⟩

end SchemaLedger.CommandLine
