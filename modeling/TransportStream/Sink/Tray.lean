import TransportStream.Sink

/-!
# Collecting sinks

A tray keeps everything it takes.  It may take only small portions at a time,
have room for so many bytes only, and fail when it is flushed.  Once it is full
it takes nothing, fails, or interrupts once and has room without limit from then
on.
-/

namespace TransportStream

inductive WhenFull where
  | refuse
  | makeRoom
  | fail (text : String)
  deriving DecidableEq, Repr

structure Tray where
  portions : List Bytes
  /-- The number of bytes it still has room for; without a number it has no
  limit. -/
  room : Option Nat
  /-- The greatest number of bytes taken at once; zero for no limit. -/
  portion : Nat
  whenFull : WhenFull
  flushFailure : Option IoFailure
  deriving DecidableEq, Repr

namespace Tray

def unlimited : Tray :=
  ⟨[], none, 0, .refuse, none⟩

def contents (t : Tray) : Bytes :=
  t.portions.reverse.flatten

def share (t : Tray) (length : Nat) : Nat :=
  let wanted := if t.portion = 0 then length else min length t.portion
  match t.room with
  | none => wanted
  | some room => min wanted room

def take (t : Tray) (offer : Bytes) : Acceptance × Tray :=
  let size := t.share offer.length
  (.taken size,
    ⟨offer.take size :: t.portions, t.room.map (· - size), t.portion,
      t.whenFull, t.flushFailure⟩)

def write (t : Tray) (offer : Bytes) : Acceptance × Tray :=
  match t.room with
  | some 0 =>
      match t.whenFull with
      | .refuse => (.taken 0, t)
      | .makeRoom =>
          (.failed .interrupted,
            ⟨t.portions, none, t.portion, .makeRoom, t.flushFailure⟩)
      | .fail text => (.failed (.other text), t)
  | _ => t.take offer

theorem share_le (t : Tray) (length : Nat) : t.share length ≤ length := by
  simp only [share]
  split <;> split <;> omega

theorem contents_of_take {t t' : Tray} {offer : Bytes} {size : Nat}
    (h : t.take offer = (.taken size, t')) :
    size ≤ offer.length ∧ t'.contents = t.contents ++ offer.take size := by
  unfold take at h
  cases h
  exact ⟨share_le t _, by simp [contents]⟩

theorem contents_of_taken {t t' : Tray} {offer : Bytes} {size : Nat}
    (h : t.write offer = (.taken size, t')) :
    size ≤ offer.length ∧ t'.contents = t.contents ++ offer.take size := by
  unfold write at h
  split at h
  · split at h <;> cases h
    simp
  · exact contents_of_take h

theorem contents_of_failed {t t' : Tray} {offer : Bytes} {failure : IoFailure}
    (h : t.write offer = (.failed failure, t')) : t'.contents = t.contents := by
  unfold write at h
  split at h
  · split at h <;> cases h <;> rfl
  · cases h

/-- A tray interrupts only while it has a limit, and then lifts it. -/
def patience (t : Tray) : Nat :=
  t.room.isSome.toNat

theorem patience_lt_of_interrupted {t t' : Tray} {offer : Bytes}
    (h : t.write offer = (.failed .interrupted, t')) :
    t'.patience < t.patience := by
  unfold write at h
  split at h
  · rename_i hroom
    split at h <;> cases h
    simp [patience, hroom]
  · cases h

end Tray

instance : Sink Tray where
  write := Tray.write
  flush t := (t.flushFailure, t)
  contents := Tray.contents
  patience := Tray.patience
  size_le_of_write h := (Tray.contents_of_taken h).1
  contents_of_taken h := (Tray.contents_of_taken h).2
  contents_of_failed := Tray.contents_of_failed
  contents_of_flush _ := rfl
  patience_lt_of_interrupted := Tray.patience_lt_of_interrupted
end TransportStream
