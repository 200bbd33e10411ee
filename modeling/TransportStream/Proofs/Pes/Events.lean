import TransportStream.Proofs.Pes.Units

/-!
# The events of an assembler

An assembler stands in the middle of a unit.  What it hands out over the packets
to come completes the reading of this unit, and reads the units behind it.
-/

namespace TransportStream
namespace Pes

namespace Assembler

def feed (a : Assembler) : List Packet -> Assembler × List Event
  | [] => (a, [])
  | p :: packets =>
      let (a', events) := (a.submit p).value
      let (a'', later) := feed a' packets
      (a'', events ++ later)

theorem feed_cons (a : Assembler) (p : Packet) (packets : List Packet) :
    a.feed (p :: packets) =
      (((a.submit p).value.1.feed packets).1,
        (a.submit p).value.2 ++ ((a.submit p).value.1.feed packets).2) := rfl

end Assembler

def unitContents (packets : List Packet) : List Bytes :=
  (units Packet.unitStart packets).map unitBytes

def remainder (last : Nat) (packets : List Packet) : Bytes :=
  continuation last (packets.takeWhile (!Packet.unitStart ·))

theorem unitContents_cons_of_start {p : Packet} (h : p.unitStart = true)
    (packets : List Packet) :
    unitContents (p :: packets) =
      (p.payload ++ remainder p.counter packets) :: unitContents packets := by
  unfold unitContents
  rw [units_cons_of_opens h]
  rfl

theorem unitContents_cons_of_later {p : Packet} (h : p.unitStart = false)
    (packets : List Packet) :
    unitContents (p :: packets) = unitContents packets := by
  unfold unitContents
  rw [units_cons_of_not_opens h]

theorem remainder_nil (last : Nat) : remainder last [] = [] := rfl

theorem remainder_cons_of_start {p : Packet} (h : p.unitStart = true)
    (last : Nat) (packets : List Packet) :
    remainder last (p :: packets) = [] := by
  rw [remainder, List.takeWhile_cons_of_neg (by simp [h]), continuation]

theorem remainder_cons_of_later {p : Packet} (h : p.unitStart = false)
    (last : Nat) (packets : List Packet) :
    remainder last (p :: packets) =
      if p.counter = last then remainder last packets
      else if p.counter = (last + 1) % 16 then
        p.payload ++ remainder p.counter packets
      else [] := by
  rw [remainder, List.takeWhile_cons_of_pos (by simp [h]), continuation]
  rfl

def Streams (data : Bytes) (contents : List Bytes) (events : List Event) :
    Prop :=
  exists (pieces : List Bytes) (later : List Event),
    events = pieces.map Event.data ++ later ∧
    (forall piece, piece ∈ pieces -> piece ≠ []) ∧
      pieces.flatten = data ∧ ReadsAll contents later

theorem streams_nil {contents : List Bytes} {events : List Event}
    (h : ReadsAll contents events) :
    Streams [] contents events :=
  ⟨[], events, rfl, fun _ hpiece => absurd hpiece List.not_mem_nil, rfl, h⟩

theorem streams_append {more : Bytes} {contents : List Bytes}
    {events : List Event} (h : Streams more contents events) (bytes : Bytes) :
    Streams (bytes ++ more) contents (dataEvents bytes ++ events) := by
  cases bytes with
  | nil => exact h
  | cons b rest =>
      rcases h with ⟨pieces, later, rfl, hpieces, rfl, hlater⟩
      refine ⟨(b :: rest) :: pieces, later, rfl, ?_, rfl, hlater⟩
      intro piece hpiece
      rcases List.mem_cons.mp hpiece with rfl | hmem
      · exact List.cons_ne_nil b rest
      · exact hpieces piece hmem

theorem readsAll_of_streams {bytes more : Bytes} {contents : List Bytes}
    {size : Nat} {header : Header} {events : List Event}
    (hsize : headerSize? bytes = some size)
    (hheader : Header.parse (bytes.take size) = .ok header)
    (h : Streams (bytes.drop size ++ more) contents events) :
    ReadsAll ((bytes ++ more) :: contents) (.header header :: events) := by
  rcases headerSize?_append hsize more with ⟨hle, hsize'⟩
  rcases h with ⟨pieces, later, rfl, hpieces, hflatten, hlater⟩
  have hreads :
      Reads (bytes ++ more) (.header header :: pieces.map Event.data) := by
    unfold Reads
    rw [hsize']
    refine ⟨header, pieces, ?_, rfl, hpieces, ?_⟩
    · rw [List.take_append_of_le_length hle]
      exact hheader
    · rw [List.drop_append_of_le_length hle]
      exact hflatten
  exact readsAll_cons hreads hlater

/-- The events due over some packets, by the state of the assembler before
them. -/
def Due : Assembler -> List Packet -> List Event -> Prop
  | .idle, packets, events => ReadsAll (unitContents packets) events
  | .collecting last pending, packets, events =>
      ReadsAll ((pending ++ remainder last packets) ::
        unitContents packets) events
  | .streaming last, packets, events =>
      Streams (remainder last packets) (unitContents packets) events

theorem readsAll_of_tryHeader {pid last : Nat} {bytes : Bytes}
    {packets : List Packet} {later : List Event}
    (h : Due (Assembler.tryHeader pid last bytes).value.1 packets later) :
    ReadsAll ((bytes ++ remainder last packets) :: unitContents packets)
      ((Assembler.tryHeader pid last bytes).value.2 ++ later) := by
  rcases tryHeader_cases pid last bytes with
    ⟨_, hvalue⟩ | ⟨hlacks, hvalue⟩ | ⟨size, header, hsize, hheader, hvalue⟩
  · rw [hvalue] at h ⊢
    exact h
  · rw [hvalue] at h ⊢
    exact readsAll_cons
      (reads_of_none (headerSize?_append_of_lacksStartCode hlacks _)) h
  · rw [hvalue] at h ⊢
    exact readsAll_of_streams hsize hheader (streams_append h (bytes.drop size))

/-!
## What one packet does to an assembler
-/

namespace Assembler

theorem submit_of_error (a : Assembler) {p : Packet}
    (h : p.transportError = true) :
    (a.submit p).value = (a, []) := by
  unfold submit
  rw [if_pos h]
  rfl

theorem submit_of_start (a : Assembler) {p : Packet}
    (herror : p.transportError = false) (hstart : p.unitStart = true) :
    a.submit p = tryHeader p.pid p.counter p.payload := by
  unfold submit
  rw [if_neg (by simp [herror]), if_pos hstart]

theorem value_resume (a : Assembler) (last : Nat) (p : Packet)
    (accept : Logged (Assembler × List Event)) :
    (resume a last p accept).value =
      if p.counter = last then (a, [])
      else if p.counter = (last + 1) % 16 then accept.value
      else (.idle, []) := by
  unfold resume Packet.continuityAfter
  by_cases hsame : p.counter = last
  · rw [if_pos hsame, if_pos hsame]
    rfl
  · rw [if_neg hsame, if_neg hsame]
    by_cases hnext : p.counter = (last + 1) % 16
    · rw [if_pos hnext, if_pos hnext]
    · rw [if_neg hnext, if_neg hnext]
      rfl

theorem submit_idle_of_later {p : Packet} (herror : p.transportError = false)
    (hstart : p.unitStart = false) : (idle.submit p).value = (idle, []) := by
  unfold submit
  rw [if_neg (by simp [herror]), if_neg (by simp [hstart])]
  rfl

theorem submit_collecting_of_later (last : Nat) (pending : Bytes) {p : Packet}
    (herror : p.transportError = false) (hstart : p.unitStart = false) :
    ((collecting last pending).submit p).value =
      if p.counter = last then (collecting last pending, [])
      else if p.counter = (last + 1) % 16 then
        (tryHeader p.pid p.counter (pending ++ p.payload)).value
      else (idle, []) := by
  unfold submit
  rw [if_neg (by simp [herror]), if_neg (by simp [hstart])]
  exact value_resume _ _ _ _

theorem submit_streaming_of_later (last : Nat) {p : Packet}
    (herror : p.transportError = false) (hstart : p.unitStart = false) :
    ((streaming last).submit p).value =
      if p.counter = last then (streaming last, [])
      else if p.counter = (last + 1) % 16 then
        (streaming p.counter, dataEvents p.payload)
      else (idle, []) := by
  unfold submit
  rw [if_neg (by simp [herror]), if_neg (by simp [hstart])]
  exact value_resume _ _ _ _

/-- A header that was looked for in vain is waited for. -/
def IsWaiting : Assembler -> Prop
  | .collecting _ pending => AwaitsHeader pending
  | _ => True

theorem isWaiting_tryHeader (pid last : Nat) (bytes : Bytes) :
    (tryHeader pid last bytes).value.1.IsWaiting := by
  rcases tryHeader_cases pid last bytes with
    ⟨hawaits, hvalue⟩ | ⟨_, hvalue⟩ | ⟨_, _, _, _, hvalue⟩
  · rw [hvalue]
    exact hawaits
  · rw [hvalue]
    trivial
  · rw [hvalue]
    trivial

theorem isWaiting_submit {a : Assembler} (h : a.IsWaiting) (p : Packet) :
    (a.submit p).value.1.IsWaiting := by
  cases herror : p.transportError with
  | true =>
      rw [submit_of_error a herror]
      exact h
  | false =>
      cases hstart : p.unitStart with
      | true =>
          rw [submit_of_start a herror hstart]
          exact isWaiting_tryHeader p.pid p.counter p.payload
      | false =>
          cases a with
          | idle =>
              rw [submit_idle_of_later herror hstart]
              trivial
          | collecting last pending =>
              rw [submit_collecting_of_later last pending herror hstart]
              split
              · exact h
              · split
                · exact isWaiting_tryHeader p.pid p.counter
                    (pending ++ p.payload)
                · trivial
          | streaming last =>
              rw [submit_streaming_of_later last herror hstart]
              split
              · trivial
              · split
                · trivial
                · trivial

theorem due_of_start {a : Assembler} (ha : a.IsWaiting) {p : Packet}
    (hstart : p.unitStart = true) {packets : List Packet} {events : List Event}
    (h : ReadsAll (unitContents (p :: packets)) events) :
    Due a (p :: packets) events := by
  cases a with
  | idle => exact h
  | collecting last pending =>
      show ReadsAll ((pending ++ remainder last (p :: packets)) ::
        unitContents (p :: packets)) ([] ++ events)
      rw [remainder_cons_of_start hstart, List.append_nil]
      exact readsAll_cons (reads_of_none (headerSize?_of_awaitsHeader ha)) h
  | streaming last =>
      show Streams (remainder last (p :: packets))
        (unitContents (p :: packets)) events
      rw [remainder_cons_of_start hstart]
      exact streams_nil h

/-- What a packet hands out comes ahead of what is due behind it. -/
theorem due_submit {a : Assembler} (ha : a.IsWaiting) {p : Packet}
    (herror : p.transportError = false) {packets : List Packet}
    {later : List Event} (h : Due (a.submit p).value.1 packets later) :
    Due a (p :: packets) ((a.submit p).value.2 ++ later) := by
  cases hstart : p.unitStart with
  | true =>
      rw [submit_of_start a herror hstart] at h ⊢
      apply due_of_start ha hstart
      rw [unitContents_cons_of_start hstart]
      exact readsAll_of_tryHeader h
  | false =>
      cases a with
      | idle =>
          rw [submit_idle_of_later herror hstart] at h ⊢
          show ReadsAll (unitContents (p :: packets)) later
          rw [unitContents_cons_of_later hstart]
          exact h
      | collecting last pending =>
          rw [submit_collecting_of_later last pending herror hstart] at h ⊢
          show ReadsAll ((pending ++ remainder last (p :: packets)) ::
            unitContents (p :: packets)) _
          rw [unitContents_cons_of_later hstart, remainder_cons_of_later hstart]
          by_cases hsame : p.counter = last
          · rw [if_pos hsame] at h ⊢
            rw [if_pos hsame]
            exact h
          · rw [if_neg hsame] at h ⊢
            rw [if_neg hsame]
            by_cases hnext : p.counter = (last + 1) % 16
            · rw [if_pos hnext] at h ⊢
              rw [if_pos hnext, ← List.append_assoc]
              exact readsAll_of_tryHeader h
            · rw [if_neg hnext] at h ⊢
              rw [if_neg hnext, List.append_nil]
              exact readsAll_cons
                (reads_of_none (headerSize?_of_awaitsHeader ha)) h
      | streaming last =>
          rw [submit_streaming_of_later last herror hstart] at h ⊢
          show Streams (remainder last (p :: packets))
            (unitContents (p :: packets)) _
          rw [unitContents_cons_of_later hstart, remainder_cons_of_later hstart]
          by_cases hsame : p.counter = last
          · rw [if_pos hsame] at h ⊢
            rw [if_pos hsame]
            exact h
          · rw [if_neg hsame] at h ⊢
            rw [if_neg hsame]
            by_cases hnext : p.counter = (last + 1) % 16
            · rw [if_pos hnext] at h ⊢
              rw [if_pos hnext]
              exact streams_append h p.payload
            · rw [if_neg hnext] at h ⊢
              rw [if_neg hnext]
              exact streams_nil h

theorem due_nil {a : Assembler} (ha : a.IsWaiting) : Due a [] [] := by
  cases a with
  | idle => exact readsAll_nil
  | collecting last pending =>
      have hreads : Reads (pending ++ remainder last []) [] := by
        rw [remainder_nil, List.append_nil]
        exact reads_of_none (headerSize?_of_awaitsHeader ha)
      exact readsAll_cons hreads readsAll_nil
  | streaming last => exact streams_nil readsAll_nil

/-- Over packets without transport error, an assembler hands out exactly what is
due. -/
theorem due_feed {a : Assembler} (ha : a.IsWaiting) {packets : List Packet}
    (herror : forall p, p ∈ packets -> p.transportError = false) :
    Due a packets (a.feed packets).2 := by
  induction packets generalizing a with
  | nil => exact due_nil ha
  | cons p packets ih =>
      rw [feed_cons]
      apply due_submit ha (herror p List.mem_cons_self)
      exact ih (isWaiting_submit ha p)
        (fun q hq => herror q (List.mem_cons_of_mem p hq))

theorem feed_filter_transportError (a : Assembler) (packets : List Packet) :
    a.feed (packets.filter (!Packet.transportError ·)) = a.feed packets := by
  induction packets generalizing a with
  | nil => rfl
  | cons p packets ih =>
      cases herror : p.transportError with
      | true =>
          rw [List.filter_cons_of_neg (by simp [herror]), ih, feed_cons,
            submit_of_error a herror]
          rfl
      | false =>
          rw [List.filter_cons_of_pos (by simp [herror]), feed_cons, feed_cons,
            ih]

/-- Whatever packets are fed to a fresh assembler, what it hands out is the
reading of the units, one after the other: packets with a transport error are
dropped, every start packet opens a unit, and a unit with a whole header yields
this header and then all of its data. -/
theorem events_feed_idle (packets : List Packet) :
    exists calls : List (List Event),
      (idle.feed packets).2 = calls.flatten ∧
        List.Forall₂ Reads
          ((units Packet.unitStart
            (packets.filter (!Packet.transportError ·))).map unitBytes)
          calls := by
  rw [← feed_filter_transportError]
  apply due_feed (a := idle) trivial
  intro p hp
  have hkept := (List.mem_filter.mp hp).right
  rw [Bool.not_eq_true'] at hkept
  exact hkept

end Assembler
end Pes
end TransportStream
