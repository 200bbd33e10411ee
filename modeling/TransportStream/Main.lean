import TransportStream.CommandLine

/-!
# The program

Serves the command line from the real system: its standard streams, its files,
and the log directives in the environment.
-/

namespace TransportStream

namespace SystemHost

def systemText (details : String) (code : UInt32) : String :=
  s!"{details} (os error {code.toNat})"

def failureOf : IO.Error -> IoFailure
  | .noFileOrDirectory .. => .notFound
  | .interrupted .. => .interrupted
  | .timeExpired .. => .timedOut
  | .inappropriateType _ code details =>
      if code == 20 then .notDirectory
      else if code == 21 then .isDirectory
      else .other (systemText details code)
  | .alreadyExists _ code details
  | .invalidArgument _ code details
  | .permissionDenied _ code details
  | .resourceExhausted _ code details
  | .noSuchThing _ code details
  | .resourceBusy code details
  | .otherError code details => .other (systemText details code)
  | e => .other (toString e)

def attempt {α : Type} (action : IO α) : IO (Except IoFailure α) := do
  try
    return .ok (← action)
  catch e =>
    return .error (failureOf e)

def openInput : Place -> IO Unit
  | .standard => pure ()
  | .file path => do
      let _ ← IO.FS.Handle.mk path .read

def createOutput : Place -> IO Unit
  | .standard => pure ()
  | .file path => do
      let _ ← IO.FS.Handle.mk path .write

def readStandard : IO ByteArray := do
  (← IO.getStdin).readBinToEnd

def readAll : Place -> IO ByteArray
  | .standard => readStandard
  | .file path => IO.FS.readBinFile path

def append (place : Place) (bytes : Bytes) : IO Unit := do
  let data := ByteArray.mk bytes.toArray
  match place with
  | .standard => do
      let out ← IO.getStdout
      out.write data
      out.flush
  | .file path => do
      let file ← IO.FS.Handle.mk path .append
      file.write data

instance : Host IO where
  openInput place := attempt (openInput place)
  createOutput place := attempt (createOutput place)
  input place := do
    match ← attempt (readAll place) with
    | .ok data => pure (.ofBytes data.toList)
    | .error failure => pure (.broken failure)
  output := append

end SystemHost
end TransportStream

open TransportStream in
def main (args : List String) : IO UInt32 := do
  let outcome : CommandLine.Outcome ←
    CommandLine.run (← IO.getEnv "RUST_LOG") args
  for line in outcome.errorLines do
    IO.eprintln line
  return UInt32.ofNat outcome.exitCode
