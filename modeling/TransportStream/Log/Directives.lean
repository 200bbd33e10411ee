import TransportStream.Log
import TransportStream.Pattern
import TransportStream.Text.Blank

/-!
# Selecting log records

Directives separated by commas say which records are shown: `level` alone for
everything, `name` for all records of topics whose path starts so, `name=level`
for those up to a level.  The longest name that fits a topic decides.  Behind a
slash may stand a pattern that must match some part of every record shown; one
that is rejected is left out.
-/

namespace TransportStream
namespace Log

/-- The gravest levels up to which records are shown; zero shows none. -/
abbrev Limit := Nat

def Limit.all : Limit := Level.trace.rank

def Limit.ofName? (word : String) : Option Limit :=
  let names := ["OFF", "ERROR", "WARN", "INFO", "DEBUG", "TRACE"]
  names.findIdx? (· == String.ofList (word.toList.map Char.toUpper))

structure Directive where
  /-- The beginning of the paths it is about; without one it is about every
  path. -/
  name : Option String
  limit : Limit
  deriving DecidableEq, Repr

namespace Directive

def fits (d : Directive) (path : String) : Bool :=
  match d.name with
  | none => true
  | some name => name.isPrefixOf path

def weight (d : Directive) : Nat :=
  match d.name with
  | none => 0
  | some name => name.utf8ByteSize

def parse (s : String) : Except String Directive :=
  match s.splitOn "=" with
  | [word] =>
      match Limit.ofName? word with
      | some limit => .ok ⟨none, limit⟩
      | none => .ok ⟨some word, Limit.all⟩
  | [name, word] =>
      let word := Text.trim word
      if word.isEmpty then .ok ⟨some name, Limit.all⟩
      else
        match Limit.ofName? word with
        | some limit => .ok ⟨some name, limit⟩
        | none => .error word
  | _ => .error s

end Directive

/-- A set of directives, at most one for each name. -/
structure Directives where
  items : List Directive
  wanted : Option Pattern

namespace Directives

def empty : Directives :=
  ⟨[], none⟩

def setItem (d : Directive) : List Directive -> List Directive
  | [] => [d]
  | e :: rest => if e.name = d.name then d :: rest else e :: setItem d rest

def set (ds : Directives) (d : Directive) : Directives :=
  ⟨setItem d ds.items, ds.wanted⟩

def complaint (text : String) : String :=
  s!"invalid logging spec '{text}'"

def parseItems (ds : Directives) (texts : List String) :
    Directives × List String :=
  match texts with
  | [] => (ds, [])
  | text :: rest =>
      let text := Text.trim text
      if text.isEmpty then parseItems ds rest
      else
        match Directive.parse text with
        | .ok d => parseItems (ds.set d) rest
        | .error invalid =>
            let (result, complaints) := parseItems ds rest
            (result, complaint invalid :: complaints)

def parsePattern (text : String) : Option Pattern × List String :=
  match Pattern.compile text with
  | .ok p => (some p, [])
  | .error r => (none, ["invalid regex filter - " ++ r.message text])

def parse (s : String) : Directives × List String :=
  match s.splitOn "/" with
  | [items] => parseItems empty (items.splitOn ",")
  | [items, text] =>
      let (wanted, rejected) := parsePattern text
      let (result, complaints) := parseItems ⟨[], wanted⟩ (items.splitOn ",")
      (result, complaints ++ rejected)
  | _ => (empty, [complaint s ++ " (too many '/'s)"])

def insertByWeight (d : Directive) : List Directive -> List Directive
  | [] => [d]
  | e :: rest =>
      if e.weight ≤ d.weight then e :: insertByWeight d rest else d :: e :: rest

/-- The directives from the lightest to the heaviest; of equal ones the earlier
comes first. -/
def byWeight (items : List Directive) : List Directive :=
  items.foldl (fun sorted d => insertByWeight d sorted) []

def limit (ds : Directives) (path : String) : Limit :=
  if ds.items.isEmpty then Level.error.rank
  else
    match (byWeight ds.items).reverse.find? (·.fits path) with
    | none => 0
    | some d => d.limit

def shows (ds : Directives) (r : Record) : Bool :=
  r.level.rank ≤ ds.limit r.topic.path &&
    match ds.wanted with
    | none => true
    | some pattern => pattern.occursIn r.text

end Directives

def bracketed (r : Record) : String :=
  let name := r.level.name
  let blanks := String.ofList (List.replicate (5 - name.length) ' ')
  s!"[{name}{blanks} {r.topic.path}] {r.text}"

end Log
end TransportStream
