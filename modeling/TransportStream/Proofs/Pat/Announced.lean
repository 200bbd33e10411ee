import TransportStream.Pat
import TransportStream.Proofs.PidSet
import TransportStream.Proofs.Table.Decoding

/-!
# What association packets announce

A fresh decoder reads the associations that the packets of the association table
announce.  Some of them name the network, most of them the program map of a
program, and those of the one-segment program are never followed.
-/

namespace TransportStream

def patPackets (packets : List Packet) : List Packet :=
  packets.filter (·.pid = patPid)

theorem patPackets_append (packets later : List Packet) :
    patPackets (packets ++ later) = patPackets packets ++ patPackets later :=
  List.filter_append packets later

theorem patPackets_cons_of_pat {p : Packet} (hp : p.pid = patPid)
    (packets : List Packet) :
    patPackets (p :: packets) = p :: patPackets packets :=
  List.filter_cons_of_pos (decide_eq_true hp)

theorem patPackets_cons_of_other {p : Packet} (hp : p.pid ≠ patPid)
    (packets : List Packet) :
    patPackets (p :: packets) = patPackets packets :=
  List.filter_cons_of_neg (fun h => hp (of_decide_eq_true h))

theorem patPackets_append_of_pat (packets : List Packet) {p : Packet}
    (hp : p.pid = patPid) :
    patPackets (packets ++ [p]) = patPackets packets ++ [p] := by
  rw [patPackets_append, patPackets_cons_of_pat hp]
  rfl

theorem patPackets_append_of_other (packets : List Packet) {p : Packet}
    (hp : p.pid ≠ patPid) :
    patPackets (packets ++ [p]) = patPackets packets := by
  rw [patPackets_append, patPackets_cons_of_other hp]
  exact List.append_nil _

theorem patPackets_of_forall {packets : List Packet}
    (h : forall p, p ∈ packets -> p.pid = patPid) :
    patPackets packets = packets := by
  rw [patPackets, List.filter_eq_self]
  intro p hp
  exact decide_eq_true (h p hp)

namespace Pat

def associationsIn (bytes : Bytes) : List Association :=
  match decode bytes with
  | .ok t => t.associations
  | .error _ => []

/-- The associations that a fresh decoder reads from association packets, in
order. -/
def announced (packets : List Packet) : List Association :=
  ((TableDecoder.fresh : TableDecoder Pat).tables packets).flatMap
    Pat.associations

theorem announced_eq_flatMap (packets : List Packet) :
    announced packets =
      (SectionAssembler.idle.feed packets).2.flatMap associationsIn := by
  rw [announced, TableDecoder.tables_eq_filterMap]
  show List.flatMap Pat.associations
    (List.filterMap _ (SectionAssembler.idle.feed packets).2) = _
  induction (SectionAssembler.idle.feed packets).2 with
  | nil => rfl
  | cons bytes sections ih =>
      rw [List.flatMap_cons, ← ih, associationsIn]
      show List.flatMap Pat.associations (List.filterMap _ _) = _
      cases hdecode : decode bytes with
      | ok t =>
          rw [List.filterMap_cons_some (b := t)
            (by exact congrArg Except.toOption hdecode),
            List.flatMap_cons]
      | error e =>
          rw [List.filterMap_cons_none
            (by exact congrArg Except.toOption hdecode)]
          rfl

theorem announced_append (packets later : List Packet) :
    announced (packets ++ later) =
      announced packets ++
        (((TableDecoder.fresh : TableDecoder Pat).after packets).tables
          later).flatMap Pat.associations := by
  rw [announced, TableDecoder.tables_append, List.flatMap_append]
  rfl

/-!
## Program maps and networks
-/

def Association.isFollowed (a : Association) : Bool :=
  !a.isNetwork && a.pid != oneSegmentPid

def mapPids (associations : List Association) : List Nat :=
  (associations.filter Association.isFollowed).map Association.pid

def networkPids (associations : List Association) : List Nat :=
  (associations.filter Association.isNetwork).map Association.pid

theorem mem_mapPids {p : Nat} {associations : List Association} :
    p ∈ mapPids associations ↔
      exists a, a ∈ associations ∧ a.program ≠ 0 ∧ a.pid ≠ oneSegmentPid ∧
        a.pid = p := by
  simp [mapPids, Association.isFollowed, Association.isNetwork, and_assoc]

theorem mem_networkPids {p : Nat} {associations : List Association} :
    p ∈ networkPids associations ↔
      exists a, a ∈ associations ∧ a.program = 0 ∧ a.pid = p := by
  simp [networkPids, Association.isNetwork, and_assoc]

theorem mapPids_append (associations more : List Association) :
    mapPids (associations ++ more) = mapPids associations ++ mapPids more := by
  rw [mapPids, List.filter_append, List.map_append]
  rfl

theorem mask_pid_of_decode {bytes : Bytes} {t : Pat} (h : decode bytes = .ok t)
    {a : Association} (ha : a ∈ t.associations) :
    PidSet.mask a.pid = a.pid := by
  unfold decode at h
  split at h
  · cases h
  · split at h
    · cases h
    · cases hheader : SectionHeader.parse bytes with
      | error e =>
          rw [hheader] at h
          cases h
      | ok header =>
          rw [hheader] at h
          cases h
          rcases List.mem_map.mp ha with ⟨entry, _, rfl⟩
          exact PidSet.mask_pidField entry.pidHigh entry.pidLow

theorem mask_pid_of_announced {packets : List Packet} {a : Association}
    (h : a ∈ announced packets) : PidSet.mask a.pid = a.pid := by
  rcases List.mem_flatMap.mp h with ⟨t, ht, ha⟩
  rcases TableDecoder.exists_of_mem_tables ht with ⟨bytes, hdecode⟩
  exact mask_pid_of_decode hdecode ha

theorem mask_of_mem_mapPids {pid : Nat} {packets : List Packet}
    (h : pid ∈ mapPids (announced packets)) : PidSet.mask pid = pid := by
  rcases mem_mapPids.mp h with ⟨a, ha, _, _, rfl⟩
  exact mask_pid_of_announced ha

end Pat
end TransportStream
