import TransportStream.Host

/-!
# Folders held in memory

A folder has files under paths of any depth; whatever lies on the way to a file
is a directory.  Its home is the directory from which relative paths start.
Paths are followed part by part, and every part but the last must be a
directory.
-/

namespace TransportStream

abbrev Parts := List String

structure Folder where
  files : List (Parts × Bytes)
  home : Parts
  standardInput : Bytes
  standardOutput : Bytes

namespace Folder

inductive Node where
  | file (contents : Bytes)
  | directory

def maxPartSize : Nat := 255

def pathLimit : Nat := 4096

def hasBelow (f : Folder) (parts : Parts) : Bool :=
  parts.isPrefixOf f.home || f.files.any fun file => parts.isPrefixOf file.1

def node? (f : Folder) (parts : Parts) : Option Node :=
  match f.files.find? (·.1 == parts) with
  | some (_, contents) => some (.file contents)
  | none => if f.hasBelow parts then some .directory else none

def enter (f : Folder) (here : Parts) : Except IoFailure Unit :=
  match f.node? here with
  | none => .error .notFound
  | some (.file _) => .error .notDirectory
  | some .directory => .ok ()

def goTo (here : Parts) (part : String) : Except IoFailure Parts :=
  if part == "" || part == "." then .ok here
  else if part == ".." then .ok here.dropLast
  else if maxPartSize < part.utf8ByteSize then .error .nameTooLong
  else .ok (here ++ [part])

/-- Follow the parts of a path.  Only what the last part leads to need not
exist. -/
def walk (f : Folder) (here : Parts) : List String -> Except IoFailure Parts
  | [] => .ok here
  | part :: rest => do
      f.enter here
      walk f (← goTo here part) rest

def split (f : Folder) (path : String) :
    Except IoFailure (Parts × List String) :=
  if path.contains '\x00' then .error .nulInName
  else if path.isEmpty then .error .notFound
  else if pathLimit ≤ path.utf8ByteSize then .error .nameTooLong
  else .ok (if path.startsWith "/" then [] else f.home, path.splitOn "/")

def resolve (f : Folder) (path : String) : Except IoFailure Parts := do
  let (here, parts) ← f.split path
  f.walk here parts

def find (f : Folder) (path : String) : Except IoFailure Node := do
  match f.node? (← f.resolve path) with
  | none => .error .notFound
  | some node => .ok node

def contents? (f : Folder) (path : String) : Option Bytes :=
  match f.find path with
  | .ok (.file contents) => some contents
  | _ => none

def store (f : Folder) (parts : Parts) (contents : Bytes) : Folder :=
  ⟨(parts, contents) :: f.files.filter (·.1 != parts), f.home, f.standardInput,
    f.standardOutput⟩

def ofFiles (home : Parts) (files : List (String × Bytes))
    (standardInput : Bytes) : Folder :=
  ⟨files.map fun (path, contents) =>
      (home ++ (path.splitOn "/").filter fun part =>
        part != "" && part != ".", contents),
    home, standardInput, []⟩

def beforeSlashed? (parts : List String) : Option (List String) :=
  match parts.reverse with
  | "" :: rest =>
      match rest.dropWhile (· == "") with
      | [] => none
      | name :: before =>
          if name == "." || name == ".." then none else some before.reverse
  | _ => none

def openInput (f : Folder) : Place -> Except IoFailure Unit
  | .standard => .ok ()
  | .file path => do
      let _ ← f.find path
      pure ()

/-- Create the file at a path.  A slash behind the last name asks for a
directory, which cannot be created so. -/
def createFile (f : Folder) (path : String) : Except IoFailure Folder := do
  let (here, parts) ← f.split path
  match beforeSlashed? parts with
  | some before => do
      f.enter (← f.walk here before)
      .error .isDirectory
  | none => do
      let target ← f.walk here parts
      match f.node? target with
      | some .directory => .error .isDirectory
      | _ => .ok (f.store target [])

def createOutput (f : Folder) : Place -> Except IoFailure Folder
  | .standard => .ok f
  | .file path => f.createFile path

def input (f : Folder) : Place -> Feed
  | .standard => .ofBytes f.standardInput
  | .file path =>
      match f.find path with
      | .ok (.file contents) => .ofBytes contents
      | .ok .directory => .broken .isDirectory
      | .error failure => .broken failure

def output (f : Folder) (place : Place) (bytes : Bytes) : Folder :=
  match place with
  | .standard => ⟨f.files, f.home, f.standardInput, f.standardOutput ++ bytes⟩
  | .file path =>
      match f.resolve path with
      | .ok parts => f.store parts ((f.contents? path).getD [] ++ bytes)
      | .error _ => f

end Folder

instance : Host (StateM Folder) where
  openInput place := do
    pure ((← get).openInput place)
  createOutput place := do
    match (← get).createOutput place with
    | .ok folder => do
        set folder
        pure (.ok ())
    | .error failure => pure (.error failure)
  input place := do
    pure ((← get).input place)
  output place bytes := modify (·.output place bytes)

end TransportStream
