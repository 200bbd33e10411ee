import Mathlib.Data.List.Induction
import TransportStream.Proofs.Pat.Announced
import TransportStream.Proofs.Table.Entries

/-!
# The program maps that a report follows

A report follows every program map that an association table has announced, the
one of the one-segment program among them.  Each map has a decoder of its own,
which reads the packets of its identifier behind the announcement.  The maps are
listed in the order in which the packets complete them, whatever their
identifiers are.
-/

namespace TransportStream

def Pat.programPids (associations : List Pat.Association) : List Nat :=
  (associations.filter (!·.isNetwork)).map Pat.Association.pid

theorem Pat.programPids_append (associations more : List Pat.Association) :
    programPids (associations ++ more) =
      programPids associations ++ programPids more := by
  rw [programPids, List.filter_append, List.map_append]
  rfl

theorem Pat.programPids_flatMap (tables : List Pat) :
    programPids (tables.flatMap Pat.associations) =
      (tables.flatMap Pat.programs).map Pat.Association.pid := by
  rw [programPids, List.filter_flatMap]
  rfl

namespace TableReport

open Pat

def announcedPids (packets : List Packet) : List Nat :=
  programPids (announced (patPackets packets))

theorem announcedPids_of_pat (packets : List Packet) {p : Packet}
    (hp : p.pid = patPid) :
    announcedPids (packets ++ [p]) =
      announcedPids packets ++
        (((TableDecoder.fresh.after (patPackets packets)).tables [p]).flatMap
          Pat.programs).map Association.pid := by
  rw [announcedPids, patPackets_append_of_pat packets hp, announced_append,
    programPids_append, programPids_flatMap]
  rfl

theorem announcedPids_of_other (packets : List Packet) {p : Packet}
    (hp : p.pid ≠ patPid) :
    announcedPids (packets ++ [p]) = announcedPids packets := by
  rw [announcedPids, patPackets_append_of_other packets hp]
  rfl

theorem mem_announcedPids_append {pid : Nat} {packets : List Packet}
    (h : pid ∈ announcedPids packets) (later : List Packet) :
    pid ∈ announcedPids (packets ++ later) := by
  rw [announcedPids, patPackets_append, announced_append, programPids_append]
  exact List.mem_append_left _ h

/-!
## Behind an announcement
-/

def behind (pid : Nat) (before : List Packet) : List Packet -> List Packet
  | [] => []
  | p :: packets =>
      if pid ∈ announcedPids before then p :: packets
      else behind pid (before ++ [p]) packets

/-- The packets that the decoder of a program map reads. -/
def followed (pid : Nat) (packets : List Packet) : List Packet :=
  (behind pid [] packets).filter (·.pid = pid)

theorem behind_append (pid : Nat) (before packets : List Packet) (p : Packet) :
    behind pid before (packets ++ [p]) =
      behind pid before packets ++
        (if pid ∈ announcedPids (before ++ packets) then [p] else []) := by
  induction packets generalizing before with
  | nil =>
      rw [List.append_nil]
      rfl
  | cons q packets ih =>
      rw [List.cons_append, behind, behind]
      by_cases hpid : pid ∈ announcedPids before
      · rw [if_pos hpid, if_pos hpid,
          if_pos (mem_announcedPids_append hpid (q :: packets))]
        rfl
      · rw [if_neg hpid, if_neg hpid, ih, List.append_assoc,
          List.singleton_append]

theorem followed_append (pid : Nat) (packets : List Packet) (p : Packet) :
    followed pid (packets ++ [p]) =
      followed pid packets ++
        (if p.pid = pid ∧ pid ∈ announcedPids packets then [p] else []) := by
  rw [followed, behind_append, List.filter_append, List.nil_append]
  congr 1
  by_cases hannounced : pid ∈ announcedPids packets
  · by_cases hpid : p.pid = pid
    · rw [if_pos hannounced, if_pos ⟨hpid, hannounced⟩]
      simp [hpid]
    · rw [if_pos hannounced, if_neg (fun h => hpid h.left)]
      simp [hpid]
  · rw [if_neg hannounced, if_neg (fun h => hannounced h.right)]
    rfl

theorem followed_append_of_followed {packets : List Packet} {p : Packet}
    (h : p.pid ∈ announcedPids packets) :
    followed p.pid (packets ++ [p]) = followed p.pid packets ++ [p] := by
  rw [followed_append, if_pos ⟨rfl, h⟩]

theorem followed_append_of_other {pid : Nat} {packets : List Packet}
    {p : Packet} (h : p.pid = pid -> pid ∉ announcedPids packets) :
    followed pid (packets ++ [p]) = followed pid packets := by
  rw [followed_append, if_neg (fun hboth => h hboth.left hboth.right),
    List.append_nil]

theorem followed_of_not_announced {pid : Nat} {packets : List Packet}
    (h : pid ∉ announcedPids packets) : followed pid packets = [] := by
  induction packets using List.reverseRecOn with
  | nil => rfl
  | append_singleton packets p ih =>
      have hbefore : pid ∉ announcedPids packets := by
        intro hpid
        exact h (mem_announcedPids_append hpid [p])
      rw [followed_append_of_other (fun _ => hbefore), ih hbefore]

/-!
## The entries of a report
-/

def patEntries (packets : List Packet) : List (TableEntry Pat) :=
  TableDecoder.fresh.entries patPid (patPackets packets)

def mapsCompleted (before : List Packet) (p : Packet) : List (TableEntry Pmt) :=
  if p.pid ≠ patPid ∧ p.pid ∈ announcedPids before then
    (TableDecoder.fresh.after (followed p.pid before)).entries p.pid [p]
  else []

def mapEntriesBehind (before : List Packet) :
    List Packet -> List (TableEntry Pmt)
  | [] => []
  | p :: packets =>
      mapsCompleted before p ++ mapEntriesBehind (before ++ [p]) packets

/-- The program maps that packets complete, in the order of the packets. -/
def mapEntries (packets : List Packet) : List (TableEntry Pmt) :=
  mapEntriesBehind [] packets

theorem patEntries_append (packets later : List Packet) :
    patEntries (packets ++ later) =
      patEntries packets ++
        (TableDecoder.fresh.after (patPackets packets)).entries patPid
          (patPackets later) := by
  rw [patEntries, patPackets_append, TableDecoder.entries_append]
  rfl

theorem patEntries_append_of_other (packets : List Packet) {p : Packet}
    (hp : p.pid ≠ patPid) :
    patEntries (packets ++ [p]) = patEntries packets := by
  rw [patEntries, patPackets_append_of_other packets hp]
  rfl

theorem mapEntriesBehind_append (before packets later : List Packet) :
    mapEntriesBehind before (packets ++ later) =
      mapEntriesBehind before packets ++
        mapEntriesBehind (before ++ packets) later := by
  induction packets generalizing before with
  | nil =>
      rw [List.append_nil]
      rfl
  | cons p packets ih =>
      rw [List.cons_append, mapEntriesBehind, ih, mapEntriesBehind,
        List.append_assoc before, List.singleton_append, List.append_assoc]

theorem mapEntries_append (packets : List Packet) (p : Packet) :
    mapEntries (packets ++ [p]) =
      mapEntries packets ++ mapsCompleted packets p := by
  rw [mapEntries, mapEntriesBehind_append, List.nil_append, mapEntriesBehind,
    mapEntriesBehind, List.append_nil]
  rfl

theorem mapsCompleted_of_followed {before : List Packet} {p : Packet}
    (hp : p.pid ≠ patPid) (hannounced : p.pid ∈ announcedPids before) :
    mapsCompleted before p =
      (TableDecoder.fresh.after (followed p.pid before)).entries p.pid [p] := by
  rw [mapsCompleted, if_pos ⟨hp, hannounced⟩]

theorem of_mem_mapsCompleted {before : List Packet} {p : Packet}
    {e : TableEntry Pmt} (h : e ∈ mapsCompleted before p) :
    e.pid = p.pid ∧ e.pid ≠ patPid ∧ Table.decode e.bytes = .ok e.table ∧
      e.isIntact = Crc.isIntact e.bytes := by
  unfold mapsCompleted at h
  split at h
  · rename_i hfollowed
    rcases TableDecoder.of_mem_entries h with ⟨hpid, hsection⟩
    refine ⟨hpid, ?_, hsection⟩
    rw [hpid]
    exact hfollowed.left
  · cases h

theorem of_mem_patEntries {packets : List Packet} {e : TableEntry Pat}
    (h : e ∈ patEntries packets) :
    e.pid = patPid ∧ Table.decode e.bytes = .ok e.table ∧
      e.isIntact = Crc.isIntact e.bytes :=
  TableDecoder.of_mem_entries h

theorem of_mem_mapEntries {packets : List Packet} {e : TableEntry Pmt}
    (h : e ∈ mapEntries packets) :
    e.pid ≠ patPid ∧ Table.decode e.bytes = .ok e.table ∧
      e.isIntact = Crc.isIntact e.bytes := by
  induction packets using List.reverseRecOn with
  | nil => cases h
  | append_singleton packets p ih =>
      rw [mapEntries_append] at h
      rcases List.mem_append.mp h with hbefore | hnew
      · exact ih hbefore
      · exact (of_mem_mapsCompleted hnew).right

/-- The maps listed for one identifier are those that a decoder of its own
reads. -/
theorem filter_mapEntries {pid : Nat} (hpid : pid ≠ patPid)
    (packets : List Packet) :
    (mapEntries packets).filter (·.pid = pid) =
      TableDecoder.fresh.entries pid (followed pid packets) := by
  induction packets using List.reverseRecOn with
  | nil => rfl
  | append_singleton packets p ih =>
      rw [mapEntries_append, List.filter_append, ih]
      by_cases hp : p.pid = pid
      · subst hp
        by_cases hannounced : p.pid ∈ announcedPids packets
        · rw [followed_append_of_followed hannounced,
            TableDecoder.entries_append,
            mapsCompleted_of_followed hpid hannounced]
          congr 1
          rw [List.filter_eq_self]
          intro e he
          exact decide_eq_true (TableDecoder.of_mem_entries he).left
        · rw [followed_append_of_other (fun _ => hannounced), mapsCompleted,
            if_neg (fun h => hannounced h.right)]
          exact List.append_nil _
      · have hnone : (mapsCompleted packets p).filter (·.pid = pid) = [] := by
          rw [List.filter_eq_nil_iff]
          intro e he
          rw [(of_mem_mapsCompleted he).left]
          simpa using hp
        rw [followed_append_of_other (fun h => absurd h hp), hnone,
          List.append_nil]

end TableReport
end TransportStream
