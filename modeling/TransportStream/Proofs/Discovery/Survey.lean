import TransportStream.Discovery
import TransportStream.Proofs.Discovery.Maps
import TransportStream.Proofs.Pass.Turns

/-!
# What a survey knows

Behind any packets a survey knows the program maps and networks that they
announce, has a decoder for each of the maps, and keeps what the first map on
each identifier lists.  Every packet adds to this twice, since it may announce
maps and then be read as one of them.
-/

namespace TransportStream

open Pat Discovery

namespace Survey

/-- A decoder for each map announced that has read the packets of this map. -/
def HasDecoders (associations : List Association) (packets : List Packet)
    (decoders : PidMap (TableDecoder Pmt)) : Prop :=
  forall pid, decoders.get? pid =
    if pid ∈ mapPids associations then
      some (TableDecoder.fresh.after (mapPackets pid packets))
    else none

/-- What is known from some associations and from the program maps among some
packets. -/
structure Known.Lists (k : Known) (associations : List Association)
    (packets : List Packet) :
    Prop where
  pmtPids : forall pid, pid ∈ k.1.pmtPids.toList ↔ pid ∈ mapPids associations
  decoders : HasDecoders associations packets k.2
  read : forall pid, mapPackets pid packets ≠ [] -> pid ∈ mapPids associations
  resolved : forall pid, pid ∈ k.1.resolved.toList ↔
    (firstMap? pid packets).isSome
  keep : forall n, n ∈ k.1.keep.toList ↔
    n ∈ networkPids associations ∨
      exists pid t, firstMap? pid packets = some t ∧ n ∈ t.pids pid

variable {k : Known} {associations : List Association} {packets : List Packet}

/-!
## Associations
-/

theorem value_addAssociation_of_network {a : Association}
    (ha : a.isNetwork = true) :
    (addAssociation k a).value =
      (⟨k.1.pmtPids, k.1.resolved, k.1.keep.insert a.pid⟩, k.2) := by
  rw [addAssociation, if_pos ha]
  rfl

theorem value_addAssociation_of_known {a : Association}
    (ha : a.isNetwork = false)
    (hknown : a.pid = oneSegmentPid ∨ k.1.pmtPids.contains a.pid = true) :
    (addAssociation k a).value = k := by
  rw [addAssociation, if_neg (Bool.eq_false_iff.mp ha), if_pos hknown]
  rfl

theorem value_addAssociation_of_new {a : Association} (ha : a.isNetwork = false)
    (hnew : ¬ (a.pid = oneSegmentPid ∨ k.1.pmtPids.contains a.pid = true)) :
    (addAssociation k a).value =
      (⟨k.1.pmtPids.insert a.pid, k.1.resolved, k.1.keep⟩,
        k.2.put a.pid .fresh) := by
  rw [addAssociation, if_neg (Bool.eq_false_iff.mp ha), if_neg hnew]
  rfl

theorem lists_addAssociation_of_network (h : k.Lists associations packets)
    {a : Association} (hmask : PidSet.mask a.pid = a.pid)
    (ha : a.isNetwork = true) :
    Known.Lists (addAssociation k a).value (associations ++ [a]) packets := by
  have hmaps : mapPids (associations ++ [a]) = mapPids associations := by
    simp [mapPids, Association.isFollowed, ha]
  have hnetworks : networkPids (associations ++ [a]) =
      networkPids associations ++ [a.pid] := by
    simp [networkPids, ha]
  rw [value_addAssociation_of_network ha]
  refine ⟨?_, ?_, ?_, h.resolved, ?_⟩
  · intro pid
    rw [hmaps]
    exact h.pmtPids pid
  · intro pid
    rw [hmaps]
    exact h.decoders pid
  · intro pid
    rw [hmaps]
    exact h.read pid
  · intro n
    rw [PidSet.mem_toList_insert, hmask, h.keep n, hnetworks, List.mem_append,
      List.mem_singleton]
    exact or_left_comm.trans or_assoc.symm

theorem lists_addAssociation_of_known (h : k.Lists associations packets)
    {a : Association} (hmask : PidSet.mask a.pid = a.pid)
    (ha : a.isNetwork = false)
    (hknown : a.pid = oneSegmentPid ∨ k.1.pmtPids.contains a.pid = true) :
    Known.Lists (addAssociation k a).value (associations ++ [a]) packets := by
  have hnetworks : networkPids (associations ++ [a]) =
      networkPids associations := by
    simp [networkPids, ha]
  have hmaps : forall pid, pid ∈ mapPids (associations ++ [a]) ↔
      pid ∈ mapPids associations := by
    intro pid
    rw [mapPids_append, List.mem_append, or_iff_left_iff_imp]
    intro hpid
    rcases mem_mapPids.mp hpid with ⟨b, hb, _, hnot, rfl⟩
    rw [List.mem_singleton.mp hb] at hnot ⊢
    cases hknown with
    | inl hone => exact absurd hone hnot
    | inr hcontains =>
        rw [PidSet.contains_iff, hmask] at hcontains
        exact (h.pmtPids a.pid).mp hcontains
  rw [value_addAssociation_of_known ha hknown]
  refine ⟨?_, ?_, ?_, h.resolved, ?_⟩
  · intro pid
    rw [hmaps pid]
    exact h.pmtPids pid
  · intro pid
    simp only [hmaps pid]
    exact h.decoders pid
  · intro pid
    rw [hmaps pid]
    exact h.read pid
  · intro n
    rw [hnetworks]
    exact h.keep n

theorem lists_addAssociation_of_new (h : k.Lists associations packets)
    {a : Association} (hmask : PidSet.mask a.pid = a.pid)
    (ha : a.isNetwork = false)
    (hnew : ¬ (a.pid = oneSegmentPid ∨ k.1.pmtPids.contains a.pid = true)) :
    Known.Lists (addAssociation k a).value (associations ++ [a]) packets := by
  have hone : a.pid ≠ oneSegmentPid := fun heq => hnew (.inl heq)
  have hnetworks : networkPids (associations ++ [a]) =
      networkPids associations := by
    simp [networkPids, ha]
  have hmaps :
      mapPids (associations ++ [a]) = mapPids associations ++ [a.pid] := by
    simp [mapPids, Association.isFollowed, ha, hone]
  -- The map is new, so that no packet was read as it so far.
  have hunread : mapPackets a.pid packets = [] := by
    apply not_not.mp
    intro hread
    apply hnew
    rw [PidSet.contains_iff, hmask, h.pmtPids a.pid]
    exact .inr (h.read a.pid hread)
  rw [value_addAssociation_of_new ha hnew]
  refine ⟨?_, ?_, ?_, h.resolved, ?_⟩
  · intro pid
    rw [PidSet.mem_toList_insert, hmask, h.pmtPids pid, hmaps, List.mem_append,
      List.mem_singleton]
    exact or_comm
  · intro pid
    rw [PidMap.get?_put, hmaps]
    by_cases hpid : pid = a.pid
    · subst hpid
      rw [if_pos rfl, if_pos (List.mem_append_right _ List.mem_cons_self),
        hunread]
      rfl
    · rw [if_neg hpid, h.decoders pid]
      simp [hpid]
  · intro pid hread
    rw [hmaps]
    exact List.mem_append_left _ (h.read pid hread)
  · intro n
    rw [hnetworks]
    exact h.keep n

theorem lists_addAssociation (h : k.Lists associations packets)
    {a : Association} (hmask : PidSet.mask a.pid = a.pid) :
    Known.Lists (addAssociation k a).value (associations ++ [a]) packets := by
  cases ha : a.isNetwork with
  | true => exact lists_addAssociation_of_network h hmask ha
  | false =>
      by_cases hknown : a.pid = oneSegmentPid ∨
      k.1.pmtPids.contains a.pid = true
      · exact lists_addAssociation_of_known h hmask ha hknown
      · exact lists_addAssociation_of_new h hmask ha hknown

theorem lists_addAssociations (h : k.Lists associations packets)
    {later : List Association}
    (hmask : forall a, a ∈ later -> PidSet.mask a.pid = a.pid) :
    Known.Lists (later.foldl (fun k a => (addAssociation k a).value) k)
      (associations ++ later) packets := by
  induction later generalizing k associations with
  | nil =>
      rw [List.append_nil]
      exact h
  | cons a later ih =>
      rw [List.foldl_cons, List.append_cons]
      apply ih (lists_addAssociation h (hmask a List.mem_cons_self))
      intro b hb
      exact hmask b (List.mem_cons_of_mem a hb)

/-!
## A packet of the association table
-/

theorem value_addPat (k : Known) (t : Pat) :
    (addPat k t).value =
      t.associations.foldl (fun k a => (addAssociation k a).value) k :=
  Logged.value_foldlM addAssociation k t.associations

theorem value_stepPat (s : Survey) {p : Packet} (hp : p.pid = patPid) :
    (stepPat s p).value =
      let known := ((s.patDecoder.tables [p]).flatMap Pat.associations).foldl
        (fun k a => (addAssociation k a).value) (s.found, s.pmtDecoders)
      ⟨known.1, s.patDecoder.after [p], known.2⟩ := by
  unfold stepPat
  rw [if_pos hp]
  simp only [Logged.value_bind, Logged.value_pure, TableDecoder.submit_of_visit,
    value_addPat, List.foldl_flatMap]

/-- What a survey knows behind some packets, if the program maps are read less
far. -/
structure Knows (s : Survey) (packets mapsRead : List Packet) : Prop where
  patDecoder : s.patDecoder = TableDecoder.fresh.after (patPackets packets)
  known :
    Known.Lists (s.found, s.pmtDecoders)
    (announced (patPackets packets)) mapsRead

theorem knows_stepPat {s : Survey} (h : s.Knows packets packets) (p : Packet) :
    (stepPat s p).value.Knows (packets ++ [p]) packets := by
  by_cases hp : p.pid = patPid
  · have hannounced : announced (patPackets (packets ++ [p])) =
        announced (patPackets packets) ++
          (s.patDecoder.tables [p]).flatMap Pat.associations := by
      rw [patPackets_append_of_pat packets hp, announced_append, h.patDecoder]
    have hmask : forall a,
        a ∈ (s.patDecoder.tables [p]).flatMap Pat.associations ->
        PidSet.mask a.pid = a.pid := by
      intro a ha
      have hall : a ∈ announced (patPackets (packets ++ [p])) := by
        rw [hannounced]
        exact List.mem_append_right _ ha
      exact mask_pid_of_announced hall
    rw [value_stepPat s hp]
    constructor
    · rw [patPackets_append_of_pat packets hp, TableDecoder.after_append,
        h.patDecoder]
    · rw [hannounced]
      exact lists_addAssociations h.known hmask
  · have hsame := patPackets_append_of_other packets hp
    have hstep : (stepPat s p).value = s := by
      rw [stepPat, if_neg hp]
      rfl
    rw [hstep]
    constructor
    · rw [hsame]
      exact h.patDecoder
    · rw [hsame]
      exact h.known

/-!
## A packet of a program map
-/

theorem value_addPmt_of_resolved {d : Discovery} {pid : Nat}
    (h : d.resolved.contains pid = true) (t : Pmt) :
    (d.addPmt pid t).value = d := by
  rw [addPmt, if_pos h]
  rfl

theorem value_addPmt_of_not_resolved {d : Discovery} {pid : Nat}
    (h : ¬ d.resolved.contains pid = true) (t : Pmt) :
    (d.addPmt pid t).value =
      ⟨d.pmtPids, d.resolved.insert pid,
        (t.pids pid).foldl PidSet.insert d.keep⟩ := by
  rw [addPmt, if_neg h]
  rfl

theorem foldl_addPmt_of_resolved {d : Discovery} {pid : Nat}
    (h : d.resolved.contains pid = true) (tables : List Pmt) :
    tables.foldl (fun d t => (d.addPmt pid t).value) d = d := by
  induction tables with
  | nil => rfl
  | cons t tables ih => rw [List.foldl_cons, value_addPmt_of_resolved h, ih]

theorem foldl_addPmt (d : Discovery) (pid : Nat) (t : Pmt) (tables : List Pmt) :
    (t :: tables).foldl (fun d t => (d.addPmt pid t).value) d =
      (d.addPmt pid t).value := by
  rw [List.foldl_cons]
  apply foldl_addPmt_of_resolved
  by_cases h : d.resolved.contains pid = true
  · rw [value_addPmt_of_resolved h]
    exact h
  · rw [value_addPmt_of_not_resolved h]
    exact PidSet.contains_insert.mpr (.inl rfl)

theorem value_stepPmt_of_decoder {s : Survey} {p : Packet}
    {decoder : TableDecoder Pmt} (h : s.pmtDecoders.get? p.pid = some decoder) :
    (stepPmt s p).value =
      ⟨(decoder.tables [p]).foldl (fun d t => (d.addPmt p.pid t).value) s.found,
        s.patDecoder, s.pmtDecoders.put p.pid (decoder.after [p])⟩ := by
  unfold stepPmt
  rw [h]
  simp only [Logged.value_bind, Logged.value_pure, TableDecoder.submit_of_visit]

variable {found : Discovery} {decoders decoders' : PidMap (TableDecoder Pmt)}
  {p : Packet}

theorem lists_append_of_same
    (h : Known.Lists (found, decoders)
      (announced (patPackets (packets ++ [p]))) packets)
    (hdecoders : HasDecoders (announced (patPackets (packets ++ [p])))
      (packets ++ [p]) decoders')
    (hsame : forall pid, firstMap? pid (packets ++ [p]) =
      firstMap? pid packets) :
    Known.Lists (found, decoders') (announced (patPackets (packets ++ [p])))
      (packets ++ [p]) := by
  refine ⟨h.pmtPids, hdecoders, fun pid => announced_of_mapPackets, ?_, ?_⟩
  · intro pid
    rw [hsame pid]
    exact h.resolved pid
  · intro n
    simp only [hsame]
    exact h.keep n

theorem lists_append_of_first
    (h : Known.Lists (found, decoders)
      (announced (patPackets (packets ++ [p]))) packets)
    (hdecoders : HasDecoders (announced (patPackets (packets ++ [p])))
      (packets ++ [p]) decoders')
    {t : Pmt} (hnone : firstMap? p.pid packets = none)
    (hfirst : firstMap? p.pid (packets ++ [p]) = some t)
    (hothers : forall pid, pid ≠ p.pid ->
      firstMap? pid (packets ++ [p]) = firstMap? pid packets)
    (hmask : forall n, n ∈ t.pids p.pid -> PidSet.mask n = n) :
    Known.Lists (⟨found.pmtPids, found.resolved.insert p.pid,
        (t.pids p.pid).foldl PidSet.insert found.keep⟩, decoders')
      (announced (patPackets (packets ++ [p]))) (packets ++ [p]) := by
  refine ⟨h.pmtPids, hdecoders, fun pid => announced_of_mapPackets, ?_, ?_⟩
  · intro pid
    rw [PidSet.mem_toList_insert, hmask p.pid List.mem_cons_self]
    by_cases hpid : pid = p.pid
    · subst hpid
      simp [hfirst]
    · rw [hothers pid hpid, or_iff_right hpid]
      exact h.resolved pid
  · intro n
    have hkeep := h.keep n
    rw [PidSet.mem_toList_foldl_insert hmask]
    constructor
    · rintro (hold | hnew)
      · rcases hkeep.mp hold with hnetwork | ⟨pid, t', hmap, hn⟩
        · exact .inl hnetwork
        · have hpid : pid ≠ p.pid := by
            rintro rfl
            rw [hnone] at hmap
            cases hmap
          exact .inr ⟨pid, t', (hothers pid hpid).trans hmap, hn⟩
      · exact .inr ⟨p.pid, t, hfirst, hnew⟩
    · rintro (hnetwork | ⟨pid, t', hmap, hn⟩)
      · exact .inl (hkeep.mpr (.inl hnetwork))
      · by_cases hpid : pid = p.pid
        · subst hpid
          rw [hfirst] at hmap
          cases hmap
          exact .inr hn
        · rw [hothers pid hpid] at hmap
          exact .inl (hkeep.mpr (.inr ⟨pid, t', hmap, hn⟩))

theorem hasDecoders_put
    (h : HasDecoders (announced (patPackets (packets ++ [p]))) packets decoders)
    (hp : p.pid ∈ mapPids (announced (patPackets (packets ++ [p])))) :
    HasDecoders (announced (patPackets (packets ++ [p]))) (packets ++ [p])
      (decoders.put p.pid
        ((TableDecoder.fresh.after (mapPackets p.pid packets)).after [p])) := by
  intro pid
  rw [PidMap.get?_put, ← TableDecoder.after_append,
    ← mapPackets_append_of_map hp]
  by_cases hpid : pid = p.pid
  · subst hpid
    rw [if_pos rfl, if_pos hp]
  · rw [if_neg hpid, mapPackets_append_of_other (fun heq => absurd heq hpid)]
    exact h pid

theorem lists_stepPmt_of_map {s : Survey}
    (h : Known.Lists (s.found, s.pmtDecoders)
      (announced (patPackets (packets ++ [p]))) packets)
    (hp : p.pid ∈ mapPids (announced (patPackets (packets ++ [p])))) :
    Known.Lists ((stepPmt s p).value.found, (stepPmt s p).value.pmtDecoders)
      (announced (patPackets (packets ++ [p]))) (packets ++ [p]) := by
  have hdecoder := h.decoders p.pid
  rw [if_pos hp] at hdecoder
  have hput := hasDecoders_put h.decoders hp
  have hothers : forall pid, pid ≠ p.pid ->
      firstMap? pid (packets ++ [p]) = firstMap? pid packets := by
    intro pid hpid
    exact firstMap?_append_of_other (fun heq => absurd heq hpid)
  have hown := firstMap?_append_of_map hp
  have hmask := mask_of_mem_mapPids hp
  have hresolved : s.found.resolved.contains p.pid = true ↔
      (firstMap? p.pid packets).isSome := by
    rw [PidSet.contains_iff, hmask]
    exact h.resolved p.pid
  rw [value_stepPmt_of_decoder hdecoder]
  cases htables :
      ((TableDecoder.fresh : TableDecoder Pmt).after
        (mapPackets p.pid packets)).tables [p] with
  | nil =>
      apply lists_append_of_same h hput
      intro pid
      by_cases hpid : pid = p.pid
      · subst hpid
        rw [hown, htables]
        exact Option.or_none
      · exact hothers pid hpid
  | cons t tables =>
      rw [foldl_addPmt]
      cases hfound : firstMap? p.pid packets with
      | some first =>
          rw [value_addPmt_of_resolved (hresolved.mpr (by rw [hfound]; rfl))]
          apply lists_append_of_same h hput
          intro pid
          by_cases hpid : pid = p.pid
          · subst hpid
            rw [hown, hfound]
            rfl
          · exact hothers pid hpid
      | none =>
          have hnot : ¬ s.found.resolved.contains p.pid = true := by
            rw [hresolved, hfound]
            exact Bool.false_ne_true
          rw [value_addPmt_of_not_resolved hnot]
          apply lists_append_of_first h hput hfound _ hothers
          · intro n hn
            have ht : t ∈ t :: tables := List.mem_cons_self
            rw [← htables] at ht
            rcases TableDecoder.exists_of_mem_tables ht with ⟨bytes, hdecode⟩
            cases List.mem_cons.mp hn with
            | inl hpid => rw [hpid, hmask]
            | inr hlisted => exact Pmt.mask_of_decode hdecode hlisted
          · rw [hown, hfound, htables]
            rfl

theorem knows_stepPmt {s : Survey} (h : s.Knows (packets ++ [p]) packets) :
    (stepPmt s p).value.Knows (packets ++ [p]) (packets ++ [p]) := by
  constructor
  · rw [← h.patDecoder]
    unfold stepPmt
    split
    · rfl
    · rfl
  · by_cases hp : p.pid ∈ mapPids (announced (patPackets (packets ++ [p])))
    · exact lists_stepPmt_of_map h.known hp
    · have hnone := h.known.decoders p.pid
      rw [if_neg hp] at hnone
      have hstep : (stepPmt s p).value = s := by
        unfold stepPmt
        rw [hnone]
        rfl
      rw [hstep]
      apply lists_append_of_same h.known
      · intro pid
        rw [mapPackets_append_of_other (fun _ => hp)]
        exact h.known.decoders pid
      · intro pid
        exact firstMap?_append_of_other (fun _ => hp)

/-!
## Packet by packet
-/

theorem knows_fresh : fresh.Knows [] [] := by
  refine ⟨rfl, ?_, ?_, ?_, ?_, ?_⟩
  · intro pid
    exact Iff.rfl
  · intro pid
    rfl
  · intro pid hread
    exact absurd rfl hread
  · intro pid
    exact (iff_of_false List.not_mem_nil Bool.false_ne_true)
  · intro n
    constructor
    · intro hn
      cases hn
    · rintro (hnetwork | ⟨pid, t, hmap, _⟩)
      · exact hnetwork
      · cases hmap

def next (s : Survey) (p : Packet) : Survey :=
  (stepPmt (stepPat s p).value p).value

theorem seeks_complete : Pass.Seeks step next (·.found.isComplete) :=
  fun _ _ => rfl

theorem knows_next {s : Survey} (h : s.Knows packets packets) (p : Packet) :
    (next s p).Knows (packets ++ [p]) (packets ++ [p]) :=
  knows_stepPmt (knows_stepPat h p)

end Survey
end TransportStream
