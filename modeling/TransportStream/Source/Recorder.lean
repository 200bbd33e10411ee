import TransportStream.Source

/-!
# Recording and replay

A recorder passes requests on to a source and keeps what was delivered.  A
replay delivers the recording first and goes on with the live source from where
it was left: it is a reader over a byte buffer, chained to the live source.

Such a reader, as the bytes package documents it, copies the smaller of what is
asked for and what is left, and never fails.  The chain asks its first part
until that answers a request for at least one byte with none, and from then on
only the second; a request for nothing does not end the first part.
-/

namespace TransportStream

structure Recorder (ρ : Type) where
  source : ρ
  portions : List Bytes

/-- The recording, and the source behind it.  The recording is gone once a
request for at least one byte found it empty. -/
structure Replay (ρ : Type) where
  recording : Option Bytes
  live : ρ

variable {ρ : Type}

namespace Recorder

def ofSource (r : ρ) : Recorder ρ :=
  ⟨r, []⟩

def recorded (r : Recorder ρ) : Bytes :=
  r.portions.reverse.flatten

def recordedLength (r : Recorder ρ) : Nat :=
  r.recorded.length

def replay (r : Recorder ρ) : Replay ρ :=
  ⟨some r.recorded, r.source⟩

def read [Source ρ] (r : Recorder ρ) (n : Nat) : Delivery × Recorder ρ :=
  match Source.read r.source n with
  | (.bytes data, source) => (.bytes data, ⟨source, data :: r.portions⟩)
  | (.failed failure, source) => (.failed failure, ⟨source, r.portions⟩)

theorem source_read [Source ρ] (r : Recorder ρ) (n : Nat) :
    Source.read r.source n = ((r.read n).1, (r.read n).2.source) := by
  unfold read
  split <;> rename_i heq <;> exact heq

theorem source_of_read [Source ρ] {r r' : Recorder ρ} {n : Nat} {d : Delivery}
    (h : r.read n = (d, r')) : Source.read r.source n = (d, r'.source) := by
  rw [source_read, h]

end Recorder

instance [Source ρ] : Source (Recorder ρ) where
  read := Recorder.read
  length_le_of_read h := Source.length_le_of_read (Recorder.source_of_read h)

instance [FiniteSource ρ] : FiniteSource (Recorder ρ) where
  remaining r := FiniteSource.remaining r.source
  isBound :=
    { lt_of_bytes := fun h =>
        FiniteSource.isBound.lt_of_bytes (Recorder.source_of_read h)
      lt_of_interrupted := fun h =>
        FiniteSource.isBound.lt_of_interrupted (Recorder.source_of_read h) }

namespace Replay

def readLive [Source ρ] (live : ρ) (n : Nat) : Delivery × Replay ρ :=
  ((Source.read live n).1, ⟨none, (Source.read live n).2⟩)

def read [Source ρ] (r : Replay ρ) (n : Nat) : Delivery × Replay ρ :=
  match r.recording with
  | none => readLive r.live n
  | some [] => if n = 0 then (.bytes [], r) else readLive r.live n
  | some recording =>
      (.bytes (recording.take n), ⟨some (recording.drop n), r.live⟩)

/-- A bound for the live source bounds the replay, which has at most as many
answers out of its recording as bytes in it. -/
def bound (remaining : ρ -> Nat) (r : Replay ρ) : Nat :=
  (r.recording.getD []).length + remaining r.live

theorem source_of_readLive [Source ρ] {live : ρ} {r' : Replay ρ} {n : Nat}
    {d : Delivery} (h : readLive live n = (d, r')) :
    Source.read live n = (d, r'.live) ∧ r'.recording = none := by
  unfold readLive at h
  cases h
  exact ⟨rfl, rfl⟩

theorem length_le_of_read [Source ρ] {r r' : Replay ρ} {n : Nat} {data : Bytes}
    (h : r.read n = (.bytes data, r')) : data.length ≤ n := by
  unfold read at h
  split at h
  · exact Source.length_le_of_read (source_of_readLive h).1
  · split at h
    · cases h
      exact Nat.zero_le n
    · exact Source.length_le_of_read (source_of_readLive h).1
  · cases h
    rw [List.length_take]
    omega

end Replay

instance [Source ρ] : Source (Replay ρ) where
  read := Replay.read
  length_le_of_read := Replay.length_le_of_read

namespace Replay

variable [Source ρ] {remaining : ρ -> Nat}

theorem bound_lt_of_bytes (hlive : Source.IsBound remaining) {r r' : Replay ρ}
    {n : Nat} {b : UInt8} {data : Bytes}
    (h : r.read n = (.bytes (b :: data), r')) :
    r'.bound remaining < r.bound remaining := by
  unfold read at h
  split at h
  · rename_i hnone
    obtain ⟨hread, hrecording⟩ := source_of_readLive h
    simpa [bound, hnone, hrecording] using hlive.lt_of_bytes hread
  · rename_i hempty
    split at h
    · cases h
    · obtain ⟨hread, hrecording⟩ := source_of_readLive h
      simpa [bound, hempty, hrecording] using hlive.lt_of_bytes hread
  · rename_i recording _ hsome
    obtain ⟨hdata, hrest⟩ := Prod.mk.inj h
    have hlength := congrArg List.length (Delivery.bytes.inj hdata)
    subst hrest
    simp only [List.length_take, List.length_cons] at hlength
    simp only [bound, hsome, Option.getD_some, List.length_drop]
    omega

theorem bound_lt_of_interrupted (hlive : Source.IsBound remaining)
    {r r' : Replay ρ} {n : Nat} (h : r.read n = (.failed .interrupted, r')) :
    r'.bound remaining < r.bound remaining := by
  unfold read at h
  split at h
  · rename_i hnone
    obtain ⟨hread, hrecording⟩ := source_of_readLive h
    simpa [bound, hnone, hrecording] using hlive.lt_of_interrupted hread
  · rename_i hempty
    split at h
    · cases h
    · obtain ⟨hread, hrecording⟩ := source_of_readLive h
      simpa [bound, hempty, hrecording] using hlive.lt_of_interrupted hread
  · cases h

theorem isBound_bound (hlive : Source.IsBound remaining) :
    Source.IsBound (Replay.bound remaining) :=
  ⟨bound_lt_of_bytes hlive, bound_lt_of_interrupted hlive⟩

end Replay

instance [FiniteSource ρ] : FiniteSource (Replay ρ) where
  remaining := Replay.bound FiniteSource.remaining
  isBound := Replay.isBound_bound FiniteSource.isBound

end TransportStream
