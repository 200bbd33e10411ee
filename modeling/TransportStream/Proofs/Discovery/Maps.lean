import TransportStream.Pmt
import TransportStream.Proofs.Pat.Announced

/-!
# The map that decides for a program

A program map is followed from the packet on behind which it is announced; that
packet counts if it has the map's own identifier.  The first table that is then
decoded says what belongs to the program.
-/

namespace TransportStream

/-!
## The identifiers of a program
-/

namespace Pmt

def pids (pid : Nat) (t : Pmt) : List Nat :=
  pid :: t.clockPid :: t.streams.map (·.pid)

theorem mask_clockField (bytes : Bytes) :
    PidSet.mask (clockField bytes) = clockField bytes := by
  unfold clockField
  split
  · exact PidSet.mask_pidField _ _
  · rfl

theorem mask_pid_of_scan {bytes : Bytes} {s : ElementaryStream}
    (h : s ∈ (ElementaryStream.scan bytes).1) : PidSet.mask s.pid = s.pid := by
  fun_induction ElementaryStream.scan bytes with
  | case1 code pidHigh pidLow lengthHigh lengthLow rest hshort => cases h
  | case2 code pidHigh pidLow lengthHigh lengthLow rest hlong size later ih =>
      cases List.mem_cons.mp h with
      | inl heq =>
          rw [heq]
          exact PidSet.mask_pidField pidHigh pidLow
      | inr hlater => exact ih hlater
  | case3 bytes hshort => cases h

theorem mask_of_decode {bytes : Bytes} {t : Pmt} (h : decode bytes = .ok t)
    {n : Nat} (hn : n ∈ t.clockPid :: t.streams.map (·.pid)) :
    PidSet.mask n = n := by
  unfold decode at h
  split at h
  · cases h
  · split at h
    · cases h
    · cases hheader : SectionHeader.parse bytes with
      | error e =>
          rw [hheader] at h
          cases h
      | ok header =>
          rw [hheader] at h
          dsimp only [bind, Except.bind] at h
          split at h
          · cases h
          · cases h
            cases List.mem_cons.mp hn with
            | inl hclock =>
                rw [hclock]
                exact mask_clockField bytes
            | inr hstream =>
                rcases List.mem_map.mp hstream with ⟨s, hs, rfl⟩
                exact mask_pid_of_scan hs

end Pmt

/-!
## From its announcement on
-/

namespace Discovery

open Pat

/-- The packets from the one on behind which a program map is announced. -/
def since (pid : Nat) (before : List Packet) : List Packet -> List Packet
  | [] => []
  | p :: packets =>
      if pid ∈ mapPids (announced (patPackets (before ++ [p]))) then
        p :: packets
      else since pid (before ++ [p]) packets

def mapPackets (pid : Nat) (packets : List Packet) : List Packet :=
  (since pid [] packets).filter (·.pid = pid)

/-- The first table decoded on the identifier of a program map since it is
announced. -/
def firstMap? (pid : Nat) (packets : List Packet) : Option Pmt :=
  ((TableDecoder.fresh : TableDecoder Pmt).tables
    (mapPackets pid packets)).head?

theorem mem_mapPids_append {pid : Nat} {packets : List Packet}
    (h : pid ∈ mapPids (announced (patPackets packets))) (later : List Packet) :
    pid ∈ mapPids (announced (patPackets (packets ++ later))) := by
  rw [patPackets_append, announced_append, mapPids_append]
  exact List.mem_append_left _ h

theorem since_of_not_announced {pid : Nat} {before packets : List Packet}
    (h : pid ∉ mapPids (announced (patPackets (before ++ packets)))) :
    since pid before packets = [] := by
  induction packets generalizing before with
  | nil => rfl
  | cons p packets ih =>
      rw [List.append_cons] at h
      rw [since, if_neg, ih h]
      intro hannounced
      exact h (mem_mapPids_append hannounced packets)

theorem since_append (pid : Nat) (before packets : List Packet) (p : Packet) :
    since pid before (packets ++ [p]) =
      since pid before packets ++
        (if pid ∈ mapPids (announced (patPackets (before ++ packets ++ [p])))
          then [p] else []) := by
  induction packets generalizing before with
  | nil =>
      rw [List.append_nil]
      rfl
  | cons q packets ih =>
      have hassoc : before ++ q :: packets ++ [p] =
          before ++ [q] ++ (packets ++ [p]) := by
        simp
      rw [List.cons_append, since, since, hassoc]
      by_cases hq : pid ∈ mapPids (announced (patPackets (before ++ [q])))
      · rw [if_pos hq, if_pos hq,
          if_pos (mem_mapPids_append hq (packets ++ [p]))]
        rfl
      · rw [if_neg hq, if_neg hq, ih, List.append_assoc (before ++ [q])]

theorem mapPackets_append (pid : Nat) (packets : List Packet) (p : Packet) :
    mapPackets pid (packets ++ [p]) =
      mapPackets pid packets ++
        (if pid ∈ mapPids (announced (patPackets (packets ++ [p]))) ∧
          p.pid = pid
          then [p] else []) := by
  rw [mapPackets, since_append, List.filter_append, List.nil_append]
  congr 1
  by_cases hannounced : pid ∈ mapPids (announced (patPackets (packets ++ [p])))
  · by_cases hpid : p.pid = pid
    · rw [if_pos hannounced, if_pos ⟨hannounced, hpid⟩]
      simp [hpid]
    · rw [if_pos hannounced, if_neg (fun h => hpid h.right)]
      simp [hpid]
  · rw [if_neg hannounced, if_neg (fun h => hannounced h.left)]
    rfl

theorem mapPackets_append_of_map {packets : List Packet} {p : Packet}
    (h : p.pid ∈ mapPids (announced (patPackets (packets ++ [p])))) :
    mapPackets p.pid (packets ++ [p]) = mapPackets p.pid packets ++ [p] := by
  rw [mapPackets_append, if_pos ⟨h, rfl⟩]

theorem mapPackets_append_of_other {pid : Nat} {packets : List Packet}
    {p : Packet}
    (h : pid = p.pid ->
      p.pid ∉ mapPids (announced (patPackets (packets ++ [p])))) :
    mapPackets pid (packets ++ [p]) = mapPackets pid packets := by
  rw [mapPackets_append, if_neg, List.append_nil]
  rintro ⟨hannounced, rfl⟩
  exact h rfl hannounced

theorem announced_of_mapPackets {pid : Nat} {packets : List Packet}
    (h : mapPackets pid packets ≠ []) :
    pid ∈ mapPids (announced (patPackets packets)) := by
  apply not_not.mp
  intro hnot
  rw [mapPackets, since_of_not_announced hnot] at h
  exact h rfl

theorem firstMap?_append_of_map {packets : List Packet} {p : Packet}
    (h : p.pid ∈ mapPids (announced (patPackets (packets ++ [p])))) :
    firstMap? p.pid (packets ++ [p]) =
      (firstMap? p.pid packets).or
        (((TableDecoder.fresh : TableDecoder Pmt).after
          (mapPackets p.pid packets)).tables [p]).head? := by
  rw [firstMap?, mapPackets_append_of_map h, TableDecoder.tables_append,
    List.head?_append]
  rfl

theorem firstMap?_append_of_other {pid : Nat} {packets : List Packet}
    {p : Packet}
    (h : pid = p.pid ->
      p.pid ∉ mapPids (announced (patPackets (packets ++ [p])))) :
    firstMap? pid (packets ++ [p]) = firstMap? pid packets := by
  rw [firstMap?, mapPackets_append_of_other h]
  rfl

theorem announced_of_firstMap {pid : Nat} {packets : List Packet}
    (h : (firstMap? pid packets).isSome) :
    pid ∈ mapPids (announced (patPackets packets)) := by
  apply announced_of_mapPackets
  intro hnone
  rw [firstMap?, hnone] at h
  cases h

end Discovery
end TransportStream
