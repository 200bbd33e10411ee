import TransportStream.Source

/-!
# Sources fixed in advance

A feed holds all the bytes it will ever deliver, together with the greatest
portion it delivers at once and the faults that it meets on the way.
-/

namespace TransportStream

structure Fault where
  position : Nat
  /-- The failure that is reported; without one the source pretends to have
  ended. -/
  failure : Option IoFailure
  deriving DecidableEq, Repr

structure Feed where
  bytes : Bytes
  position : Nat
  /-- The greatest portion delivered at once; zero for no limit. -/
  portion : Nat
  /-- The faults still to come.  Only the first of them is armed. -/
  faults : List Fault
  deriving DecidableEq, Repr

namespace Feed

def ofBytes (bytes : Bytes) : Feed :=
  ⟨bytes, 0, 0, []⟩

def broken (failure : IoFailure) : Feed :=
  ⟨[], 0, 0, [⟨0, some failure⟩]⟩

def deliver (f : Feed) (limit : Nat) : Delivery × Feed :=
  let size := if f.portion = 0 then limit else min limit f.portion
  let data := f.bytes.take size
  (.bytes data,
    ⟨f.bytes.drop size, f.position + data.length, f.portion, f.faults⟩)

/-- A fault acts once its position is reached and is then gone; before that no
delivery goes past its position. -/
def read (f : Feed) (n : Nat) : Delivery × Feed :=
  match f.faults with
  | [] => f.deliver n
  | fault :: later =>
      if fault.position ≤ f.position then
        let calm := ⟨f.bytes, f.position, f.portion, later⟩
        match fault.failure with
        | none => (.bytes [], calm)
        | some failure => (.failed failure, calm)
      else
        f.deliver (min n (fault.position - f.position))

def remaining (f : Feed) : Nat :=
  f.bytes.length + f.faults.length

theorem length_le_of_deliver {f f' : Feed} {n : Nat} {data : Bytes}
    (h : f.deliver n = (.bytes data, f')) : data.length ≤ n := by
  unfold deliver at h
  cases h
  rw [List.length_take]
  split <;> omega

theorem remaining_lt_of_deliver {f f' : Feed} {n : Nat} {b : UInt8}
    {data : Bytes} (h : f.deliver n = (.bytes (b :: data), f')) :
    remaining f' < remaining f := by
  unfold deliver at h
  obtain ⟨hdata, hrest⟩ := Prod.mk.inj h
  have htake := Delivery.bytes.inj hdata
  have hlength := congrArg List.length htake
  subst hrest
  simp only [remaining, List.length_drop, List.length_take, List.length_cons]
    at hlength ⊢
  omega

theorem length_le_of_read {f f' : Feed} {n : Nat} {data : Bytes}
    (h : f.read n = (.bytes data, f')) : data.length ≤ n := by
  unfold read at h
  split at h
  · exact length_le_of_deliver h
  · split at h
    · split at h
      · cases h
        exact Nat.zero_le n
      · cases h
    · exact Nat.le_trans (length_le_of_deliver h) (Nat.min_le_left _ _)

theorem remaining_lt_of_bytes {f f' : Feed} {n : Nat} {b : UInt8} {data : Bytes}
    (h : f.read n = (.bytes (b :: data), f')) : remaining f' < remaining f := by
  unfold read at h
  split at h
  · exact remaining_lt_of_deliver h
  · split at h
    · split at h <;> cases h
    · exact remaining_lt_of_deliver h

theorem remaining_lt_of_interrupted {f f' : Feed} {n : Nat}
    (h : f.read n = (.failed .interrupted, f')) :
    remaining f' < remaining f := by
  unfold read at h
  split at h
  · cases h
  · rename_i fault later hfaults
    split at h
    · split at h
      · cases h
      · cases h
        simp [remaining, hfaults]
    · cases h

end Feed

instance : Source Feed where
  read := Feed.read
  length_le_of_read := Feed.length_le_of_read

theorem Feed.isBound_remaining : Source.IsBound Feed.remaining :=
  ⟨Feed.remaining_lt_of_bytes, Feed.remaining_lt_of_interrupted⟩

instance : FiniteSource Feed where
  remaining := Feed.remaining
  isBound := Feed.isBound_remaining

end TransportStream
