import TransportStream.Source.Feed

/-!
# Where streams come from and go to

A tool reads from and writes to places: the standard streams or named files.  A
host is whatever opens and serves them, be it a real system or a folder held in
memory.
-/

namespace TransportStream

inductive Place where
  | standard
  | file (path : String)
  deriving DecidableEq, Repr

def isDash (path : String) : Bool :=
  match path.splitOn "/" with
  | "-" :: rest => rest.all fun part => part == "" || part == "."
  | _ => false

/-- The place that an argument names; no argument means a standard stream. -/
def Place.ofArgument : Option String -> Place
  | none => .standard
  | some path => if isDash path then .standard else .file path

class Host (m : Type -> Type) where
  openInput : Place -> m (Except IoFailure Unit)
  createOutput : Place -> m (Except IoFailure Unit)
  input : Place -> m Feed
  output : Place -> Bytes -> m Unit

end TransportStream
