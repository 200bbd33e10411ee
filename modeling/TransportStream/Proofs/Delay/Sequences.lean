import TransportStream.Proofs.Bounds
import TransportStream.Proofs.Delay.Timestamps

/-!
# Units that open with a sequence

The data of a unit comes in pieces, and a start code may be cut anywhere.  What
a video watch finds is told here from whole units: a header, and all the data up
to the next one.  After every event the watch is what the unit seen so far makes
it, whatever the pieces were.
-/

namespace TransportStream

namespace Pes

structure DataUnit where
  header : Header
  data : Bytes
  deriving DecidableEq, Repr

def dataAhead : List Event -> Bytes
  | .data bytes :: events => bytes ++ dataAhead events
  | _ => []

/-- The units of some events; data ahead of the first header belongs to none of
them. -/
def dataUnits : List Event -> List DataUnit
  | [] => []
  | .header header :: events => ⟨header, dataAhead events⟩ :: dataUnits events
  | .data _ :: events => dataUnits events

namespace DataUnit

def sequencePts? (u : DataUnit) : Option Timestamp :=
  if u.header.aligned = true ∧ sequenceStartCode <+: u.data then u.header.pts
  else none

def start (u : DataUnit) : Header × Bytes :=
  (u.header, u.data.take sequenceStartCode.length)

def startPts? (s : Header × Bytes) : Option Timestamp :=
  if s.1.aligned = true ∧ s.2 = sequenceStartCode then s.1.pts else none

theorem startPts?_start (u : DataUnit) :
    startPts? u.start = u.sequencePts? := by
  have hprefix : sequenceStartCode <+: u.data ↔ u.start.2 = sequenceStartCode :=
    List.prefix_iff_eq_take.trans eq_comm
  simp only [sequencePts?, hprefix]
  rfl

theorem sequencePts?_of_start {u u' : DataUnit} (h : u.start = u'.start) :
    u.sequencePts? = u'.sequencePts? := by
  rw [← startPts?_start, h, startPts?_start]

theorem sequencePts?_of_no_data (header : Header) :
    sequencePts? ⟨header, []⟩ = none :=
  if_neg (fun h => by cases List.prefix_nil.mp h.right)

def add (u : DataUnit) (bytes : Bytes) : DataUnit :=
  ⟨u.header, u.data ++ bytes⟩

theorem add_add (u : DataUnit) (bytes more : Bytes) :
    (u.add bytes).add more = u.add (bytes ++ more) := by
  rw [add, add, add, List.append_assoc]

theorem start_add_of_le {u : DataUnit}
    (h : sequenceStartCode.length ≤ u.data.length) (bytes : Bytes) :
    (u.add bytes).start = u.start := by
  rw [start, start, add, List.take_append_of_le_length h]

theorem sequencePts?_add_of_some {u : DataUnit} {pts : Timestamp}
    (h : u.sequencePts? = some pts) (bytes : Bytes) :
    (u.add bytes).sequencePts? = some pts := by
  unfold sequencePts? at h
  split at h
  · rename_i hstart
    rw [sequencePts?_of_start (start_add_of_le hstart.right.length_le bytes),
      sequencePts?, if_pos hstart, h]
  · cases h

theorem findSome?_dataUnits_header (header : Header) (events : List Event) :
    (dataUnits (.header header :: events)).findSome? sequencePts? =
      (add ⟨header, []⟩ (dataAhead events)).sequencePts?.or
        ((dataUnits events).findSome? sequencePts?) := by
  show (add ⟨header, []⟩ (dataAhead events) :: dataUnits events).findSome?
    sequencePts? = _
  rw [List.findSome?_cons]
  cases (add ⟨header, []⟩ (dataAhead events)).sequencePts? with
  | none => rfl
  | some pts => rfl

end DataUnit
end Pes

namespace VideoWatch

open Pes DataUnit

def watching (u : DataUnit) : VideoWatch :=
  ⟨none, some u.header, if u.header.aligned = true then u.start.2 else []⟩

theorem watching_of_fresh_header (header : Header) :
    watching ⟨header, []⟩ = ⟨none, some header, []⟩ := by
  unfold watching
  split
  · rfl
  · rfl

theorem opening_watching {u : DataUnit} (h : u.header.aligned = true) :
    (watching u).opening = u.data.take sequenceStartCode.length :=
  if_pos h

theorem see_data_of_settled {u : DataUnit}
    (h : u.header.aligned = false ∨ sequenceStartCode.length ≤ u.data.length)
    (bytes : Bytes) :
    ((watching u).see (.data bytes)).value = watching u ∧
    watching (u.add bytes) = watching u ∧
      (u.add bytes).sequencePts? = u.sequencePts? := by
  show (seeData (watching u) u.header bytes).value = watching u ∧ _
  cases haligned : u.header.aligned with
  | false =>
      have hadd : (u.add bytes).header.aligned = false := haligned
      refine ⟨?_, ?_, ?_⟩
      · rw [seeData, haligned]
        rfl
      · simp only [watching, haligned, hadd, Bool.false_eq_true, if_false]
        rfl
      · simp only [sequencePts?, haligned, hadd, Bool.false_eq_true, false_and,
          if_false]
  | true =>
      have hlong : sequenceStartCode.length ≤ u.data.length := by
        rcases h with hunaligned | hlong
        · cases haligned.symm.trans hunaligned
        · exact hlong
      have hopening := start_add_of_le hlong bytes
      refine ⟨?_, ?_, sequencePts?_of_start hopening⟩
      · have hfull :
            (watching u).opening.length = sequenceStartCode.length := by
          rw [opening_watching haligned, List.length_take_of_le hlong]
        rw [seeData, haligned, decide_eq_true (Nat.le_of_eq hfull.symm)]
        rfl
      · rw [watching, hopening]
        rfl

theorem see_data_of_needed {u : DataUnit} (haligned : u.header.aligned = true)
    (hshort : u.data.length < sequenceStartCode.length) (bytes : Bytes) :
    ((watching u).see (.data bytes)).value =
      ⟨(u.add bytes).sequencePts?, some u.header, (u.add bytes).start.2⟩ := by
  have hopening : (watching u).opening = u.data := by
    rw [opening_watching haligned, List.take_of_length_le (Nat.le_of_lt hshort)]
  have hneeded : ¬ (!u.header.aligned ||
      decide (sequenceStartCode.length ≤ (watching u).opening.length)) =
        true := by
    simp [haligned, hopening, hshort]
  have hadd : (u.add bytes).start =
      (u.header, (u.data ++ bytes).take sequenceStartCode.length) := rfl
  show (seeData (watching u) u.header bytes).value = _
  rw [seeData, if_neg hneeded, hopening, ← startPts?_start, hadd]
  generalize (u.data ++ bytes).take sequenceStartCode.length = front
  dsimp only [startPts?]
  by_cases hcode : front = sequenceStartCode
  · have hbeq : (front == sequenceStartCode) = true := beq_iff_eq.mpr hcode
    rw [hbeq, if_pos ⟨haligned, hcode⟩]
    cases u.header.pts with
    | none => rfl
    | some pts => rfl
  · have hbeq : (front == sequenceStartCode) = false :=
      beq_eq_false_iff_ne.mpr hcode
    rw [hbeq, if_neg (fun hall => hcode hall.right)]
    rfl

theorem see_data_watching {u : DataUnit} (hnone : u.sequencePts? = none)
    (bytes : Bytes) :
    ((watching u).see (.data bytes)).value.pts = (u.add bytes).sequencePts? ∧
      ((u.add bytes).sequencePts? = none ->
        ((watching u).see (.data bytes)).value = watching (u.add bytes)) := by
  by_cases hneeded : u.header.aligned = true ∧
  u.data.length < sequenceStartCode.length
  · rw [see_data_of_needed hneeded.left hneeded.right]
    refine ⟨rfl, ?_⟩
    intro hadd
    rw [hadd, watching,
      if_pos (show (u.add bytes).header.aligned = true from hneeded.left)]
    rfl
  · have hsettled : u.header.aligned = false ∨
        sequenceStartCode.length ≤ u.data.length := by
      rw [Decidable.not_and_iff_or_not, Bool.not_eq_true, Nat.not_lt] at hneeded
      exact hneeded
    rcases see_data_of_settled hsettled bytes with ⟨hsee, hwatching, hpts⟩
    rw [hsee, hwatching, hpts, hnone]
    exact ⟨rfl, fun _ => rfl⟩

/-- What the events behind a unit that shows nothing so far add to it decides
first, and then the units that follow. -/
theorem pts_foldl_see_watching {u : DataUnit} (hnone : u.sequencePts? = none)
    (events : List Event) :
    (events.foldl (fun w e => (see w e).value) (watching u)).pts =
      (u.add (dataAhead events)).sequencePts?.or
        ((dataUnits events).findSome? sequencePts?) := by
  have hsame (u : DataUnit) : u.add [] = u := by
    rw [add, List.append_nil]
  -- As long as nothing is found the watch is that of a unit, with the data seen
  -- so far or with a new header; what is found at last is kept whatever
  -- follows.
  induction events generalizing u with
  | nil =>
      show none = (u.add []).sequencePts?.or none
      rw [hsame, hnone]
      rfl
  | cons e events ih =>
      cases e with
      | header header =>
          have hsee : ((watching u).see (.header header)).value =
              watching ⟨header, []⟩ :=
            (watching_of_fresh_header header).symm
          have hahead : dataAhead (.header header :: events) = [] := rfl
          rw [List.foldl_cons, hsee, ih (sequencePts?_of_no_data header),
            hahead, hsame, hnone, Option.none_or, findSome?_dataUnits_header]
      | data bytes =>
          rcases see_data_watching hnone bytes with ⟨hpts, hsame⟩
          rw [List.foldl_cons, dataAhead, dataUnits, ← add_add]
          cases hfound : (u.add bytes).sequencePts? with
          | none => rw [hsame hfound, ih hfound]
          | some pts =>
              rw [hfound] at hpts
              have hknown : ((watching u).see (.data bytes)).value.pts ≠ none :=
                by simp [hpts]
              rw [foldl_see_of_known (fun w e h => see_of_known h e) hknown,
                hpts, sequencePts?_add_of_some hfound, Option.some_or]

theorem firstPts?_eq_findSome? (events : List Event) :
    firstPts? events = (dataUnits events).findSome? sequencePts? := by
  unfold firstPts?
  induction events with
  | nil => rfl
  | cons e events ih =>
      cases e with
      | data bytes => exact ih
      | header header =>
          have hsee : (fresh.see (.header header)).value =
              watching ⟨header, []⟩ :=
            (watching_of_fresh_header header).symm
          rw [List.foldl_cons, hsee,
            pts_foldl_see_watching (sequencePts?_of_no_data header),
            findSome?_dataUnits_header]

theorem firstPts?_append_of_some {events : List Event} {pts : Timestamp}
    (h : firstPts? events = some pts) (more : List Event) :
    firstPts? (events ++ more) = some pts := by
  unfold firstPts? at h ⊢
  rw [List.foldl_append,
    foldl_see_of_known (fun w e h => see_of_known h e) (by simp [h]), h]

theorem exists_foldlM_see_eq_ok (events : List Event) :
    exists w, events.foldlM VideoCount.see .fresh = .ok w ∧
      w.pts = firstPts? events ∧
      w.remaining ≤ sequenceStartCode.length := by
  refine ⟨_, foldlM_see_counted fresh events, ?_, ?_⟩
  · rw [pts_counted, Logged.value_foldlM]
    rfl
  · unfold counted
    dsimp only
    split
    · exact Nat.sub_le _ _
    · exact Nat.zero_le _

/-- A video watch finds the timestamp of the first aligned unit that has one and
whose data, put together, begins with the start code of a sequence.  Neither how
the data is cut nor what comes behind the first four bytes of a unit changes
that, nor do units behind the one that is found; and the bytes that are still
needed are never counted down below zero. -/
theorem firstPts?_reads_whole_units (events : List Event) :
    firstPts? events = (dataUnits events).findSome? sequencePts? ∧
      (exists w, events.foldlM VideoCount.see .fresh = .ok w ∧
        w.pts = firstPts? events ∧
        w.remaining ≤ sequenceStartCode.length) ∧
      (forall events', (dataUnits events').map start =
        (dataUnits events).map start ->
        firstPts? events' = firstPts? events) ∧
      forall pts more, firstPts? events = some pts ->
        firstPts? (events ++ more) = some pts := by
  refine ⟨firstPts?_eq_findSome? events, exists_foldlM_see_eq_ok events, ?_, ?_⟩
  · intro events' h
    have hopening : sequencePts? = startPts? ∘ start := by
      funext u
      exact (startPts?_start u).symm
    rw [firstPts?_eq_findSome?, firstPts?_eq_findSome?, hopening,
      ← List.findSome?_map, ← List.findSome?_map, h]
  · intro pts more h
    exact firstPts?_append_of_some h more

def videoHeader (aligned : Bool) (pts : Timestamp) : Header :=
  ⟨0xE0, 0, aligned, 2, 5, some pts⟩

def lateSequence : List Event :=
  [.data [0x00, 0x00, 0x01, 0xB3], .header (videoHeader false 1),
    .data [0x00, 0x00, 0x01, 0xB3], .header (videoHeader true 2),
    .data [0x00, 0x00, 0x01, 0x00], .data [0x00, 0x00, 0x01, 0xB3],
    .header (videoHeader true 3), .data [0x00], .data [0x00, 0x01],
    .data [0xB3, 0x14]]

def lateSequenceRecut : List Event :=
  [.header (videoHeader false 1), .data [0x00, 0x00], .data [0x01, 0xB3],
    .header (videoHeader true 2), .data [0x00, 0x00, 0x01, 0x00, 0x00, 0x00],
    .data [0x01, 0xB3],
    .header (videoHeader true 3), .data [0x00, 0x00, 0x01, 0xB3, 0x14]]

theorem firstPts?_reads_late_sequence :
    firstPts? lateSequence = some 3 ∧
      (dataUnits lateSequenceRecut).map start =
        (dataUnits lateSequence).map start ∧
      firstPts? lateSequenceRecut = some 3 ∧
      firstPts? (lateSequence ++ lateSequence) = some 3 := by
  have hunits : (dataUnits lateSequence).findSome? sequencePts? = some 3 := by
    decide
  have hsame : (dataUnits lateSequenceRecut).map start =
      (dataUnits lateSequence).map start := by
    decide
  rcases firstPts?_reads_whole_units lateSequence with ⟨hreads, _, hcut, hstays⟩
  have hfound := hreads.trans hunits
  exact ⟨hfound, hsame, (hcut _ hsame).trans hfound,
    hstays 3 lateSequence hfound⟩

end VideoWatch
end TransportStream
