import TransportStream.Error

/-!
# Byte sinks

A sink is offered bytes and takes some of them from the front, or fails.  It may
ask for patience only finitely often in a row.  Writing a byte string out goes
on until all of it is taken.
-/

namespace TransportStream

/-- The answer of a sink to an offer. -/
inductive Acceptance where
  | taken (size : Nat)
  | failed (failure : IoFailure)
  deriving DecidableEq, Repr

class Sink (κ : Type) where
  write : κ -> Bytes -> Acceptance × κ
  flush : κ -> Option IoFailure × κ
  contents : κ -> Bytes
  /-- A bound on the interruptions to come before something else happens. -/
  patience : κ -> Nat
  size_le_of_write : ∀ {k k' : κ} {offer : Bytes} {size : Nat},
    write k offer = (.taken size, k') -> size ≤ offer.length
  contents_of_taken : ∀ {k k' : κ} {offer : Bytes} {size : Nat},
    write k offer = (.taken size, k') ->
      contents k' = contents k ++ offer.take size
  contents_of_failed : ∀ {k k' : κ} {offer : Bytes} {failure : IoFailure},
    write k offer = (.failed failure, k') -> contents k' = contents k
  contents_of_flush : ∀ k : κ, contents (flush k).2 = contents k
  patience_lt_of_interrupted : ∀ {k k' : κ} {offer : Bytes},
    write k offer = (.failed .interrupted, k') -> patience k' < patience k

namespace Sink

variable {κ : Type} [Sink κ]

/-- Offer a byte string until all of it is taken.  An interruption is not a
failure, but a sink that takes nothing is. -/
def writeAll (k : κ) (data : Bytes) : Option IoFailure × κ :=
  match data with
  | [] => (none, k)
  | b :: rest =>
      match hwrite : Sink.write k (b :: rest) with
      | (.taken 0, k') => (some .nothingWritten, k')
      | (.taken (size + 1), k') => writeAll k' ((b :: rest).drop (size + 1))
      | (.failed .interrupted, k') =>
          have := patience_lt_of_interrupted hwrite
          writeAll k' (b :: rest)
      | (.failed failure, k') => (some failure, k')
termination_by (data.length, Sink.patience k)
decreasing_by
  · apply Prod.Lex.left
    simp only [List.drop_succ_cons, List.length_drop, List.length_cons]
    omega
  · exact Prod.Lex.right _ this

end Sink
end TransportStream
