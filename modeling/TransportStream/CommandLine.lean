import TransportStream.Log.Directives
import TransportStream.Tool

/-!
# The command line

The first argument names a tool; flags and places follow in any order, and
everything behind `--` is a place.  Log records and errors go to the standard
error stream.
-/

namespace TransportStream

inductive Command where
  | split (input output : Option String)
  | delay (debug : Bool) (input : Option String)
  | tables (json : Bool) (input : Option String)
  | help
  | version
  deriving DecidableEq, Repr

namespace Command

structure Arguments where
  flagged : Bool
  paths : List String
  deriving DecidableEq, Repr

/-- The flag that a tool has, and how many places it takes at most. -/
structure Grammar where
  flag : Option String
  places : Nat
  deriving DecidableEq, Repr

inductive Reading where
  | arguments (a : Arguments)
  | help
  deriving DecidableEq, Repr

def addPath (g : Grammar) (a : Arguments) (path : String) : Option Arguments :=
  if path.isEmpty || g.places ≤ a.paths.length then none
  else some ⟨a.flagged, a.paths ++ [path]⟩

def readPaths (g : Grammar) (a : Arguments) : List String -> Option Reading
  | [] => some (.arguments a)
  | path :: rest =>
      match addPath g a path with
      | none => none
      | some a => readPaths g a rest

/-- Whether an argument asks for help: as a word, or as the first of a group of
letters. -/
def asksForHelp (arg : String) : Bool :=
  arg == "--help" || arg.startsWith "-h"

def readArguments (g : Grammar) (a : Arguments) : List String -> Option Reading
  | [] => some (.arguments a)
  | arg :: rest =>
      if arg == "--" then readPaths g a rest
      else if asksForHelp arg then some .help
      else if arg.startsWith "-" && arg != "-" then
        if some arg == g.flag && !a.flagged then
          readArguments g ⟨true, a.paths⟩ rest
        else none
      else
        match addPath g a arg with
        | none => none
        | some a => readArguments g a rest

def readTool (g : Grammar) (build : Arguments -> Command) (args : List String) :
    Option Command :=
  match readArguments g ⟨false, []⟩ args with
  | none => none
  | some .help => some .help
  | some (.arguments a) => some (build a)

def tools : List String :=
  ["split", "delay", "tables", "help"]

def parse : List String -> Option Command
  | [] => none
  | name :: args =>
      if name == "split" then
        readTool ⟨none, 2⟩ (fun a => .split a.paths[0]? a.paths[1]?) args
      else if name == "delay" then
        readTool ⟨some "--debug", 1⟩
          (fun a => .delay a.flagged a.paths[0]?) args
      else if name == "tables" then
        readTool ⟨some "--json", 1⟩
          (fun a => .tables a.flagged a.paths[0]?) args
      else if name == "help" then
        match args with
        | [] => some .help
        | [tool] => if tools.contains tool then some .help else none
        | _ => none
      else if asksForHelp name then some .help
      else if name == "--version" || name.startsWith "-V" then some .version
      else none

end Command

namespace CommandLine

def usage : List String :=
  ["Usage: tstool split [INPUT] [OUTPUT]",
    "       tstool delay [--debug] [INPUT]",
    "       tstool tables [--json] [INPUT]"]

structure Outcome where
  exitCode : Nat
  errorLines : List String
  deriving DecidableEq, Repr

def label : Option String -> String
  | none => "stdin"
  | some path => if path == "-" then "stdin" else path

def causeLines (causes : List String) : List String :=
  match causes with
  | [cause] => ["    " ++ cause]
  | _ => causes.mapIdx fun i cause => s!"    {i}: {cause}"

def errorLines (tool : String) (input : Option String) (e : Error) :
    List String :=
  [s!"Error: {tool} failed on {label input}", "", "Caused by:"] ++
    causeLines e.causes

/-- The directives in force: those given, or else everything up to warnings; and
debugging, if asked for, on top of them. -/
def directives (given : Option String) (debug : Bool) :
    Log.Directives × List String :=
  let (base, complaints) :=
    match given with
    | none => (Log.Directives.empty.set ⟨none, Level.warn.rank⟩, [])
    | some text => Log.Directives.parse text
  (if debug then base.set ⟨some "mpegts_tools", Level.debug.rank⟩ else base,
    complaints)

def conclude {α : Type} (selection : Log.Directives × List String)
    (tool : String) (input : Option String) (result : Logged (Except Error α)) :
    Outcome :=
  let complaints := selection.2.map fun text => s!"warning: {text}, ignoring it"
  let records := (result.log.toList.filter selection.1.shows).map Log.bracketed
  match result.value with
  | .ok _ => ⟨0, complaints ++ records⟩
  | .error e => ⟨1, complaints ++ records ++ errorLines tool input e⟩

variable {m : Type -> Type} [Monad m] [Host m]

def runCommand (given : Option String) : Command -> m Outcome
  | .split input output => do
      let result ← Tool.split (.ofArgument input) (.ofArgument output)
      pure (conclude (directives given false) "split" input result)
  | .delay debug input => do
      let result ← Tool.delay (.ofArgument input)
      match result.value with
      | .ok d => Host.output .standard (d.secondsText ++ "\n").toUTF8.toList
      | .error _ => pure ()
      pure (conclude (directives given debug) "delay" input result)
  | .tables json input => do
      let result ← Tool.tables (.ofArgument input) json
      pure (conclude (directives given false) "tables" input result)
  | .help => do
      Host.output .standard (unlines usage).toUTF8.toList
      pure ⟨0, []⟩
  | .version => do
      Host.output .standard "tstool 0.1.0\n".toUTF8.toList
      pure ⟨0, []⟩

def run (given : Option String) (args : List String) : m Outcome :=
  match Command.parse args with
  | none => pure ⟨2, usage⟩
  | some command => runCommand given command

end CommandLine
end TransportStream
