import Mathlib.Data.List.Forall2
import TransportStream.Proofs.Filter.PatPackets
import TransportStream.Proofs.Pat.Runs

/-!
# The filter neither loses nor invents packets

What is held back and what is written make up, packet by packet, what was read
of the association table.  Nothing but payloads is changed on the way, and the
packets of other identifiers pass untouched if they are kept.
-/

namespace TransportStream

open Packet

namespace Filter

theorem forall₂_refl (packets : List Packet) :
    List.Forall₂ SameOutsidePayload packets packets :=
  List.forall₂_same.mpr (fun p _ => sameOutsidePayload_refl p)

theorem forall₂_letGo (pmtPids : PidSet) (held : List Packet) :
    List.Forall₂ SameOutsidePayload held (letGo pmtPids held) := by
  cases held with
  | nil => exact List.Forall₂.nil
  | cons first later =>
      cases hstart : first.unitStart with
      | false =>
          rw [letGo_of_later hstart]
          exact forall₂_refl (first :: later)
      | true =>
          cases hspan : Pat.spanOf (first :: later) with
          | complete start stop =>
              rw [letGo_of_complete hstart hspan]
              exact Pat.forall₂_layOver (first :: later) _
          | unfinished =>
              rw [letGo_of_not_complete (by rw [hspan]; intro _ _ h; cases h)]
              exact forall₂_refl (first :: later)
          | invalid =>
              rw [letGo_of_not_complete (by rw [hspan]; intro _ _ h; cases h)]
              exact forall₂_refl (first :: later)

theorem forall₂_stepPat (pmtPids : PidSet) (held : List Packet) (p : Packet) :
    List.Forall₂ SameOutsidePayload (held ++ [p])
      (written (stepPat pmtPids held p).2.2 ++ (stepPat pmtPids held p).1) := by
  rw [stepPat]
  by_cases haccepts : accepts held p = true
  · rw [if_pos haccepts, settle]
    cases hspan : Pat.spanOf (held ++ [p]) with
    | unfinished => exact forall₂_refl (held ++ [p])
    | complete start stop =>
        rw [List.append_nil, written_emitReduced]
        exact forall₂_letGo pmtPids (held ++ [p])
    | invalid =>
        rw [List.append_nil, written_release]
        exact forall₂_refl (held ++ [p])
  · rw [if_neg haccepts, startAfresh]
    by_cases hopens : opensRun p = true
    · rw [if_pos hopens]
      simp only [List.append_nil, written_release]
      exact forall₂_refl (held ++ [p])
    · rw [if_neg hopens]
      simp only [List.append_nil, written_append, written_release,
        written_emitReduced]
      exact List.rel_append (forall₂_refl held) (forall₂_letGo pmtPids [p])

theorem forall₂_trans {packets later last : List Packet}
    (h : List.Forall₂ SameOutsidePayload packets later)
    (h' : List.Forall₂ SameOutsidePayload later last) :
    List.Forall₂ SameOutsidePayload packets last := by
  induction h generalizing last with
  | nil => exact h'
  | cons hp _ ih =>
      cases h' with
      | cons hq hlast =>
          exact List.Forall₂.cons (sameOutsidePayload_trans hp hq) (ih hlast)

/-- No packet of the association table is lost, written twice, moved, or changed
outside its payload. -/
theorem forall₂_patOutput (pmtPids : PidSet) (held packets : List Packet) :
    List.Forall₂ SameOutsidePayload (held ++ packets)
      (patOutput pmtPids held packets) := by
  induction packets generalizing held with
  | nil =>
      rw [List.append_nil]
      exact forall₂_refl held
  | cons p packets ih =>
      have hstep : List.Forall₂ SameOutsidePayload ((held ++ [p]) ++ packets)
          ((written (stepPat pmtPids held p).2.2 ++
            (stepPat pmtPids held p).1) ++ packets) :=
        List.rel_append (forall₂_stepPat pmtPids held p) (forall₂_refl packets)
      rw [List.append_assoc, List.append_assoc, List.singleton_append] at hstep
      apply forall₂_trans hstep
      exact List.rel_append
        (forall₂_refl (written (stepPat pmtPids held p).2.2))
        (ih (stepPat pmtPids held p).1)

/-!
## Association packets and the others

While only association packets are held, the association packets written depend
on the association packets read, and the others on the others.
-/

theorem forall_pid_of_forall₂ {packets later : List Packet}
    (h : List.Forall₂ SameOutsidePayload packets later)
    (hpid : forall p, p ∈ packets -> p.pid = patPid) :
    forall q, q ∈ later -> q.pid = patPid := by
  induction h with
  | nil => exact hpid
  | cons hp _ ih =>
      intro q hq
      rcases List.mem_cons.mp hq with rfl | hmem
      · rw [pid_of_sameOutsidePayload hp]
        exact hpid _ List.mem_cons_self
      · exact ih (fun p hp => hpid p (List.mem_cons_of_mem _ hp)) q hmem

theorem forall_pid_stepPat {held : List Packet} {p : Packet}
    (hheld : forall q, q ∈ held -> q.pid = patPid) (hp : p.pid = patPid)
    (pmtPids : PidSet) :
    forall q, q ∈ written (stepPat pmtPids held p).2.2 ++
      (stepPat pmtPids held p).1 ->
      q.pid = patPid := by
  apply forall_pid_of_forall₂ (forall₂_stepPat pmtPids held p)
  intro q hq
  rcases List.mem_append.mp hq with hmem | hmem
  · exact hheld q hmem
  · rw [List.mem_singleton.mp hmem]
    exact hp

theorem patPackets_outputFrom {d : Discovery} {s : State}
    (packets : List Packet) (hheld : forall q, q ∈ s.held -> q.pid = patPid) :
    patPackets (outputFrom d s packets) =
      patOutput d.pmtPids s.held (patPackets packets) := by
  induction packets generalizing s with
  | nil =>
      rw [outputFrom_nil, patPackets_of_forall hheld]
      rfl
  | cons p packets ih =>
      by_cases hp : p.pid = patPid
      · have hstep := forall_pid_stepPat hheld hp d.pmtPids
        rw [outputFrom_cons, patPackets_append, patPackets_cons_of_pat hp,
          patOutput, step_of_pat hp, ih, patPackets_of_forall]
        · intro q hq
          exact hstep q (List.mem_append_left _ hq)
        · intro q hq
          exact hstep q (List.mem_append_right _ hq)
      · rw [outputFrom_cons_of_other hp, patPackets_append,
          patPackets_cons_of_other hp,
          ih (s := ⟨s.held, s.packetsRead + 1, s.patsReduced⟩) hheld]
        by_cases hkeep : d.keep.contains p.pid = true
        · rw [if_pos hkeep, patPackets_cons_of_other hp]
          rfl
        · rw [if_neg hkeep]
          rfl

theorem patPackets_output (d : Discovery) (packets : List Packet) :
    patPackets (output d packets) =
      patOutput d.pmtPids [] (patPackets packets) :=
  patPackets_outputFrom packets (fun _ hq => absurd hq List.not_mem_nil)

theorem otherPackets_outputFrom {d : Discovery} {s : State}
    (packets : List Packet) (hheld : forall q, q ∈ s.held -> q.pid = patPid) :
    (outputFrom d s packets).filter (·.pid ≠ patPid) =
      packets.filter (fun p => p.pid ≠ patPid ∧
        d.keep.contains p.pid = true) := by
  have hnone : forall later : List Packet,
      (forall q, q ∈ later -> q.pid = patPid) ->
      later.filter (·.pid ≠ patPid) = [] := by
    intro later hlater
    rw [List.filter_eq_nil_iff]
    intro q hq
    simp [hlater q hq]
  induction packets generalizing s with
  | nil =>
      rw [outputFrom_nil, hnone s.held hheld]
      rfl
  | cons p packets ih =>
      by_cases hp : p.pid = patPid
      · have hstep := forall_pid_stepPat hheld hp d.pmtPids
        rw [outputFrom_cons, List.filter_append,
          List.filter_cons_of_neg (by simp [hp]), step_of_pat hp, ih]
        · rw [hnone _ (fun q hq => hstep q (List.mem_append_left _ hq)),
            List.nil_append]
        · intro q hq
          exact hstep q (List.mem_append_right _ hq)
      · rw [outputFrom_cons_of_other hp, List.filter_append,
          ih (s := ⟨s.held, s.packetsRead + 1, s.patsReduced⟩) hheld]
        by_cases hkeep : d.keep.contains p.pid = true
        · rw [if_pos hkeep, List.filter_cons_of_pos (by simp [hp]),
            List.filter_nil, List.filter_cons_of_pos (by simp [hp, hkeep])]
          rfl
        · rw [if_neg hkeep, List.filter_cons_of_neg (by simp [hkeep])]
          rfl

theorem otherPackets_output (d : Discovery) (packets : List Packet) :
    (output d packets).filter (·.pid ≠ patPid) =
      (packets.filter (·.pid ≠ patPid)).filter
        (fun p => d.keep.contains p.pid) := by
  rw [output,
    otherPackets_outputFrom packets (fun _ hq => absurd hq List.not_mem_nil),
    List.filter_filter]
  apply List.filter_congr
  intro p _
  rw [Bool.decide_and, Bool.decide_eq_true, Bool.and_comm]

end Filter

open TransportStream.Filter

variable {ρ κ : Type} [FiniteSource ρ] [Sink κ]

/-- The filter succeeds on every sequence of packets.  The packets written of
other identifiers are those that are kept, as they were; those of the
association table are all there, in order, and agree with what was read outside
their payloads; and the statistics count both sides. -/
theorem filter_conserves_packets {r : ρ} {k : κ} {packets : List Packet}
    {tail : Bytes} (hr : Delivers r (packetBytes packets ++ tail))
    (htail : tail.length < frameSize) (hk : Sink.AcceptsAll k) (d : Discovery) :
    exists (stats : Stats) (k' : κ) (out : List Packet),
      (filter d r k).value = (.ok stats, k') ∧
        Sink.contents k' = Sink.contents k ++ packetBytes out ∧
        out.filter (·.pid ≠ patPid) =
          packets.filter (fun p => p.pid ≠ patPid ∧
            d.keep.contains p.pid = true) ∧
        List.Forall₂ SameOutsidePayload (patPackets packets) (patPackets out) ∧
        stats.packetsRead = packets.length ∧
          stats.packetsWritten = out.length := by
  rcases filter_of_delivers hr htail hk d with ⟨k', hfilter, hcontents⟩
  have hheld : forall q, q ∈ State.initial.held -> q.pid = patPid := by
    intro q hq
    cases hq
  refine ⟨_, k', output d packets, hfilter, hcontents,
    otherPackets_outputFrom packets hheld, ?_, rfl, rfl⟩
  rw [patPackets_output]
  exact forall₂_patOutput d.pmtPids [] (patPackets packets)

/-!
## A run that breaks

A program map is followed, and the network and the program map are kept.
-/

def mapDiscovery : Discovery :=
  ⟨.ofList [0x01F0], ∅, .ofList [0x0010, 0x01F0]⟩

def brokenStream : List Packet :=
  [mixedStart, .padded 0x01 0xF0 0x10 [], flaggedPacket,
    .padded 0x01 0x00 0x10 [], mixedRest]

def interruptedFeed : Feed :=
  ⟨packetBytes brokenStream ++ [syncByte], 0, 5, [⟨100, some .interrupted⟩]⟩

theorem filter_conserves_broken_stream :
    Delivers interruptedFeed (packetBytes brokenStream ++ [syncByte]) ∧
      [syncByte].length < frameSize ∧ Sink.AcceptsAll Tray.unlimited ∧
      exists (stats : Stats) (k' : Tray) (out : List Packet),
        (filter mapDiscovery interruptedFeed Tray.unlimited).value =
          (.ok stats, k') ∧
          Sink.contents k' = Sink.contents Tray.unlimited ++ packetBytes out ∧
          out.filter (·.pid ≠ patPid) = brokenStream.filter
            (fun p => p.pid ≠ patPid ∧
              mapDiscovery.keep.contains p.pid = true) ∧
          List.Forall₂ SameOutsidePayload (patPackets brokenStream)
            (patPackets out) ∧
          stats.packetsRead = brokenStream.length ∧
            stats.packetsWritten = out.length := by
  have hr :
      Delivers interruptedFeed (packetBytes brokenStream ++ [syncByte]) := by
    apply Feed.delivers
    intro fault hfault
    rw [List.mem_singleton.mp hfault]
  have htail : [syncByte].length < frameSize := by decide
  have hk : Sink.AcceptsAll Tray.unlimited := Tray.acceptsAll rfl rfl
  exact ⟨hr, htail, hk, filter_conserves_packets hr htail hk mapDiscovery⟩

end TransportStream
