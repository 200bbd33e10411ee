import TransportStream.Error

/-!
# Byte sources

A source is asked for up to a number of bytes and answers with some of them or
with a failure.  No bytes at all mean the end of the input, at least for the
moment.  Nothing is said of how long a source may go on; a reader that asks
until it has what it needs wants a source that ends some time.
-/

namespace TransportStream

inductive Delivery where
  | bytes (data : Bytes)
  | failed (failure : IoFailure)
  deriving DecidableEq, Repr

class Source (ρ : Type) where
  read : ρ -> Nat -> Delivery × ρ
  length_le_of_read : ∀ {r r' : ρ} {n : Nat} {data : Bytes},
    read r n = (.bytes data, r') -> data.length ≤ n

/-- A bound on the deliveries and interruptions still to come, each of which
uses up some of it. -/
structure Source.IsBound {ρ : Type} [Source ρ] (remaining : ρ -> Nat) :
    Prop where
  lt_of_bytes : ∀ {r r' : ρ} {n : Nat} {b : UInt8} {data : Bytes},
    read r n = (.bytes (b :: data), r') -> remaining r' < remaining r
  lt_of_interrupted : ∀ {r r' : ρ} {n : Nat},
    read r n = (.failed .interrupted, r') -> remaining r' < remaining r

/-- A source that can go on delivering bytes or asking for patience only
finitely often. -/
class FiniteSource (ρ : Type) extends Source ρ where
  remaining : ρ -> Nat
  isBound : Source.IsBound remaining

end TransportStream
