import TransportStream.Delay
import TransportStream.Host
import TransportStream.Sink.Tray
import TransportStream.Split
import TransportStream.TableReport.Text

/-!
# Tools

The three tools work between places.  Input is opened before output is created,
and both before anything is read.  What was written before an error stays
written.
-/

namespace TransportStream
namespace Tool

variable {m : Type -> Type} [Monad m] [Host m]

def unopened {α : Type} (failure : IoFailure) : Logged (Except Error α) :=
  pure (.error (.io failure))

def withInput {α : Type} (input : Place) (work : m (Logged (Except Error α))) :
    m (Logged (Except Error α)) := do
  match ← Host.openInput input with
  | .error failure => pure (unopened failure)
  | .ok () => work

def split (input output : Place) : m (Logged (Except Error Filter.Stats)) :=
  withInput input do
    match ← Host.createOutput output with
    | .error failure => pure (unopened failure)
    | .ok () => do
        let result := TransportStream.split (← Host.input input) Tray.unlimited
        Host.output output result.value.2.contents
        pure (Prod.fst <$> result)

def delay (input : Place) : m (Logged (Except Error Delay)) :=
  withInput input do
    pure (Delay.measure (← Host.input input))

def reportText (json : Bool) (report : TableReport) : String :=
  if json then report.jsonText ++ "\n" else report.text

def tables (input : Place) (json : Bool) :
    m (Logged (Except Error TableReport)) :=
  withInput input do
    let result := TableReport.collect (← Host.input input)
    match result.value with
    | .ok report => Host.output .standard (reportText json report).toUTF8.toList
    | .error _ => pure ()
    pure result

end Tool
end TransportStream
