import Mathlib.Data.List.Chain
import TransportStream.Proofs.Discovery.Earliest
import TransportStream.Proofs.Pass.Reads

/-!
# What a survey goes through

Within a packet a survey follows one association after the other and then
reads one map after the other.  Each of these keeps what is known consistent:
the maps followed are those with a decoder, and those resolved are among them.
Each only adds to what is known.  A survey is therefore complete, which it tells
by two sizes, when every map that it follows was decoded.
-/

namespace TransportStream

open Discovery Pat

namespace Survey

def known (s : Survey) : Known :=
  (s.found, s.pmtDecoders)

def associationsIn (s : Survey) (p : Packet) : List Association :=
  if p.pid = patPid then
    (s.patDecoder.tables [p]).flatMap Pat.associations else []

def mapsIn (s : Survey) (p : Packet) : List Pmt :=
  match s.pmtDecoders.get? p.pid with
  | none => []
  | some decoder => decoder.tables [p]

def Known.follow (k : Known) (a : Association) : Known :=
  (addAssociation k a).value

def Known.readMap (pid : Nat) (k : Known) (t : Pmt) : Known :=
  ((k.1.addPmt pid t).value, k.2)

/-- What is known at the start, behind every association and every map of every
packet, and behind every packet. -/
def history (s : Survey) : List Packet -> List Known
  | [] => [s.known]
  | p :: packets =>
      (s.associationsIn p).scanl Known.follow s.known ++
        (((stepPat s p).value.mapsIn p).scanl (Known.readMap p.pid)
          (stepPat s p).value.known ++
          history (next s p) packets)

/-!
## Consistent knowledge
-/

structure Known.Grows (k k' : Known) : Prop where
  pmtPids : k.1.pmtPids.toList ⊆ k'.1.pmtPids.toList
  resolved : k.1.resolved.toList ⊆ k'.1.resolved.toList
  keep : k.1.keep.toList ⊆ k'.1.keep.toList

/-- The maps followed are those with a decoder; the one-segment program's is
none of them; and those resolved are followed and kept. -/
structure Known.Consistent (k : Known) : Prop where
  decoders : forall pid, k.2.contains pid = true ↔ pid ∈ k.1.pmtPids.toList
  oneSegment : oneSegmentPid ∉ k.1.pmtPids.toList
  followed : k.1.resolved.toList ⊆ k.1.pmtPids.toList
  kept : k.1.resolved.toList ⊆ k.1.keep.toList

namespace Known

theorem Grows.refl (k : Known) : k.Grows k :=
  ⟨List.Subset.refl _, List.Subset.refl _, List.Subset.refl _⟩

theorem Grows.trans {k k' k'' : Known} (h : k.Grows k') (h' : k'.Grows k'') :
    k.Grows k'' :=
  ⟨List.Subset.trans h.pmtPids h'.pmtPids,
    List.Subset.trans h.resolved h'.resolved, List.Subset.trans h.keep h'.keep⟩

instance : Trans Grows Grows Grows :=
  ⟨Grows.trans⟩

/-- Completeness is decided by two sizes, and yet it is about members. -/
theorem Consistent.isComplete_iff {k : Known} (h : k.Consistent) :
    k.1.isComplete = true ↔
      k.1.pmtPids.toList ≠ [] ∧ k.1.pmtPids.toList ⊆ k.1.resolved.toList := by
  rw [Discovery.isComplete_iff_of_subset h.followed]
  apply and_congr_right
  intro _
  constructor
  · intro hall
    rw [hall]
    exact List.Subset.refl _
  · intro hall
    apply PidSet.eq_of_mem_iff
    intro pid
    exact ⟨fun hpid => h.followed hpid, fun hpid => hall hpid⟩

/-- A consistent state that grows out of another. -/
structure Advances (k k' : Known) : Prop where
  grows : k.Grows k'
  consistent : k'.Consistent

theorem Consistent.advances_refl {k : Known} (h : k.Consistent) :
    k.Advances k :=
  ⟨.refl k, h⟩

/-!
## One association, one map
-/

variable {k k' : Known}

theorem advances_follow (h : k.Consistent) {a : Association}
    (hmask : PidSet.mask a.pid = a.pid) : k.Advances (k.follow a) := by
  unfold follow
  cases ha : a.isNetwork with
  | true =>
      rw [value_addAssociation_of_network ha]
      have hkeep := k.1.keep.subset_insert a.pid
      exact ⟨⟨List.Subset.refl _, List.Subset.refl _, hkeep⟩,
        ⟨h.decoders, h.oneSegment, h.followed, List.Subset.trans h.kept hkeep⟩⟩
  | false =>
      by_cases hknown : a.pid = oneSegmentPid ∨
      k.1.pmtPids.contains a.pid = true
      · rw [value_addAssociation_of_known ha hknown]
        exact h.advances_refl
      · rw [value_addAssociation_of_new ha hknown]
        have hpmtPids := k.1.pmtPids.subset_insert a.pid
        refine ⟨⟨hpmtPids, List.Subset.refl _, List.Subset.refl _⟩,
          ⟨?_, ?_, List.Subset.trans h.followed hpmtPids, h.kept⟩⟩
        · intro pid
          rw [PidMap.contains_put, PidSet.mem_toList_insert, hmask,
            h.decoders pid]
        · rw [PidSet.mem_toList_insert, hmask]
          rintro (hone | hone)
          · exact hknown (.inl hone.symm)
          · exact h.oneSegment hone

theorem readMap_of_resolved {pid : Nat} (h : k.1.resolved.contains pid = true)
    (t : Pmt) :
    k.readMap pid t = k := by
  rw [readMap, value_addPmt_of_resolved h]

theorem readMap_of_not_resolved {pid : Nat}
    (h : ¬ k.1.resolved.contains pid = true) (t : Pmt) :
    k.readMap pid t =
      (⟨k.1.pmtPids, k.1.resolved.insert pid,
        (t.pids pid).foldl PidSet.insert k.1.keep⟩, k.2) := by
  rw [readMap, value_addPmt_of_not_resolved h]

theorem advances_readMap (h : k.Consistent) {pid : Nat}
    (hmask : PidSet.mask pid = pid) (hpid : pid ∈ k.1.pmtPids.toList)
    (t : Pmt) : k.Advances (k.readMap pid t) := by
  by_cases hresolved : k.1.resolved.contains pid = true
  · rw [readMap_of_resolved hresolved]
    exact h.advances_refl
  · rw [readMap_of_not_resolved hresolved]
    have hkeep := k.1.keep.subset_insert pid
    have hlisted : (k.1.keep.insert pid).toList ⊆
        ((t.pids pid).foldl PidSet.insert k.1.keep).toList :=
      PidSet.subset_foldl_insert _ (t.clockPid :: t.streams.map (·.pid))
    refine ⟨⟨List.Subset.refl _, k.1.resolved.subset_insert pid,
      List.Subset.trans hkeep hlisted⟩, ⟨h.decoders, h.oneSegment, ?_, ?_⟩⟩
    · intro q hq
      rw [PidSet.mem_toList_insert, hmask] at hq
      rcases hq with rfl | hq
      · exact hpid
      · exact h.followed hq
    · intro q hq
      apply hlisted
      rw [PidSet.mem_toList_insert] at hq ⊢
      exact hq.imp_right fun hold => h.kept hold

theorem advances_put (h : k.Consistent) {pid : Nat}
    (hpid : pid ∈ k.1.pmtPids.toList) (decoder : TableDecoder Pmt) :
    k.Advances (k.1, k.2.put pid decoder) := by
  refine ⟨⟨List.Subset.refl _, List.Subset.refl _, List.Subset.refl _⟩,
    ⟨?_, h.oneSegment, h.followed, h.kept⟩⟩
  intro q
  rw [PidMap.contains_put, h.decoders q, or_iff_right_iff_imp]
  rintro rfl
  exact hpid

/-!
## Orderly sequences
-/

structure Orderly (ks : List Known) : Prop where
  grows : ks.IsChain Grows
  consistent : forall k, k ∈ ks -> k.Consistent

theorem Orderly.append {ks ks' : List Known} (h : Orderly ks) (h' : Orderly ks')
    (hlast : ks.getLast? = some k) (hhead : ks'.head? = some k')
    (hgrows : k.Grows k') :
    Orderly (ks ++ ks') := by
  constructor
  · rw [List.isChain_append, hlast, hhead]
    refine ⟨h.grows, h'.grows, ?_⟩
    rintro _ ⟨⟩ _ ⟨⟩
    exact hgrows
  · intro k hk
    cases List.mem_append.mp hk with
    | inl hk => exact h.consistent k hk
    | inr hk => exact h'.consistent k hk

theorem Consistent.orderly_singleton (h : k.Consistent) : Orderly [k] := by
  refine ⟨List.isChain_singleton k, ?_⟩
  intro k' hk'
  rw [List.mem_singleton.mp hk']
  exact h

theorem orderly_scanl {α : Type} {f : Known -> α -> Known} {as : List α}
    (h : k.Consistent)
    (hf : forall k' a, a ∈ as -> k.Grows k' -> k'.Consistent ->
      k'.Advances (f k' a)) :
    Orderly (as.scanl f k) := by
  induction as generalizing k with
  | nil => exact h.orderly_singleton
  | cons a as ih =>
      have hstep := hf k a List.mem_cons_self (.refl k) h
      have hlater := ih hstep.consistent fun k' b hb hgrows =>
        hf k' b (List.mem_cons_of_mem a hb) (hstep.grows.trans hgrows)
      rw [List.scanl_cons]
      exact h.orderly_singleton.append hlater rfl List.head?_scanl hstep.grows

theorem Orderly.foldl_consistent {α : Type} {f : Known -> α -> Known}
    {as : List α} (h : Orderly (as.scanl f k)) : (as.foldl f k).Consistent :=
  h.consistent _ (List.mem_of_getLast? List.getLast?_scanl)

end Known

/-!
## Packet by packet
-/

variable {s : Survey} {p : Packet}

theorem known_stepPat (s : Survey) (p : Packet) :
    (stepPat s p).value.known =
      (s.associationsIn p).foldl Known.follow s.known := by
  by_cases hp : p.pid = patPid
  · rw [value_stepPat s hp, associationsIn, if_pos hp]
    rfl
  · rw [stepPat, associationsIn, if_neg hp, if_neg hp]
    rfl

theorem foldl_readMap (pid : Nat) (k : Known) (maps : List Pmt) :
    maps.foldl (Known.readMap pid) k =
      (maps.foldl (fun d t => (d.addPmt pid t).value) k.1, k.2) := by
  induction maps generalizing k with
  | nil => rfl
  | cons t maps ih => exact ih (k.readMap pid t)

theorem mask_of_mem_associationsIn {a : Association}
    (ha : a ∈ s.associationsIn p) :
    PidSet.mask a.pid = a.pid := by
  unfold associationsIn at ha
  split at ha
  · rcases List.mem_flatMap.mp ha with ⟨t, ht, hat⟩
    rcases TableDecoder.exists_of_mem_tables ht with ⟨bytes, hdecode⟩
    exact mask_pid_of_decode hdecode hat
  · cases ha

theorem orderly_associations (h : s.known.Consistent) (p : Packet) :
    Known.Orderly ((s.associationsIn p).scanl Known.follow s.known) :=
  Known.orderly_scanl h fun _ _ ha _ hk =>
    Known.advances_follow hk (mask_of_mem_associationsIn ha)

theorem orderly_maps (h : s.known.Consistent) (p : Packet) :
    Known.Orderly ((s.mapsIn p).scanl (Known.readMap p.pid) s.known) := by
  unfold mapsIn
  cases hdecoder : s.pmtDecoders.get? p.pid with
  | none => exact h.orderly_singleton
  | some decoder =>
      have hpid : p.pid ∈ s.found.pmtPids.toList := by
        apply (h.decoders p.pid).mp
        exact Option.isSome_iff_exists.mpr ⟨decoder, hdecoder⟩
      apply Known.orderly_scanl h
      intro k t _ hgrows hk
      exact Known.advances_readMap hk (Nat.mod_eq_of_lt p.pid_lt)
        (hgrows.pmtPids hpid) t

theorem advances_stepPmt (h : s.known.Consistent) (p : Packet) :
    Known.Advances ((s.mapsIn p).foldl (Known.readMap p.pid) s.known)
      (stepPmt s p).value.known := by
  have hmaps := (orderly_maps h p).foldl_consistent
  unfold mapsIn at hmaps ⊢
  cases hdecoder : s.pmtDecoders.get? p.pid with
  | none =>
      rw [stepPmt, hdecoder]
      exact h.advances_refl
  | some decoder =>
      rw [hdecoder] at hmaps
      rw [value_stepPmt_of_decoder hdecoder]
      dsimp only at hmaps ⊢
      rw [foldl_readMap] at hmaps ⊢
      apply Known.advances_put hmaps
      apply (hmaps.decoders p.pid).mp
      exact Option.isSome_iff_exists.mpr ⟨decoder, hdecoder⟩

theorem head?_history (s : Survey) (packets : List Packet) :
    (s.history packets).head? = some s.known := by
  cases packets with
  | nil => rfl
  | cons p packets =>
      rw [history, List.head?_append, List.head?_scanl]
      rfl

theorem orderly_history (h : s.known.Consistent) (packets : List Packet) :
    Known.Orderly (s.history packets) := by
  induction packets generalizing s with
  | nil => exact h.orderly_singleton
  | cons p packets ih =>
      have hassociations := orderly_associations h p
      have hpat : (stepPat s p).value.known.Consistent := by
        rw [known_stepPat]
        exact hassociations.foldl_consistent
      have hnext := advances_stepPmt hpat p
      -- Behind the maps only their decoder changes; between associations and
      -- maps nothing does.
      have hmaps :=
        (orderly_maps hpat p).append (ih hnext.consistent) List.getLast?_scanl
          (head?_history _ packets) hnext.grows
      apply hassociations.append hmaps List.getLast?_scanl
      · rw [List.head?_append, List.head?_scanl]
        rfl
      · rw [known_stepPat]
        exact .refl _

theorem known_mem_history {front packets : List Packet}
    (h : front <+: packets) :
    (front.foldl next s).known ∈ s.history packets := by
  induction front generalizing s packets with
  | nil => exact List.mem_of_head? (head?_history s packets)
  | cons p front ih =>
      cases packets with
      | nil => cases List.prefix_nil.mp h
      | cons q packets =>
          rcases List.cons_prefix_cons.mp h with ⟨rfl, hrest⟩
          exact List.mem_append_right _ (List.mem_append_right _ (ih hrest))

theorem knows_foldl {seen : List Packet} (h : s.Knows seen seen)
    (packets : List Packet) :
    (packets.foldl next s).Knows (seen ++ packets) (seen ++ packets) := by
  induction packets generalizing s seen with
  | nil =>
      rw [List.append_nil]
      exact h
  | cons p packets ih =>
      rw [List.append_cons]
      exact ih (knows_next h p)

theorem consistent_fresh : fresh.known.Consistent :=
  ⟨fun _ => iff_of_false Bool.false_ne_true List.not_mem_nil, List.not_mem_nil,
    List.Subset.refl _, List.Subset.refl _⟩

theorem isComplete_iff_firstMap? {packets : List Packet}
    (h : s.Knows packets packets) (hconsistent : s.known.Consistent) :
    s.found.isComplete = true ↔
      s.found.pmtPids.toList ≠ [] ∧
        forall pid, pid ∈ s.found.pmtPids.toList ->
          exists t, firstMap? pid packets = some t := by
  apply hconsistent.isComplete_iff.trans
  apply and_congr_right
  intro _
  constructor
  · intro hall pid hpid
    exact Option.isSome_iff_exists.mp ((h.known.resolved pid).mp (hall hpid))
  · intro hall pid hpid
    exact (h.known.resolved pid).mpr
      (Option.isSome_iff_exists.mpr (hall pid hpid))

end Survey

variable {ρ : Type} [FiniteSource ρ]

theorem exists_reads_discover (r : ρ) :
    exists packets r', Reader.Reads r packets r' ∧
      (Pass.start Survey.step r Survey.fresh).value.state =
        packets.foldl Survey.next .fresh ∧
      (discover r).value.1.toOption =
        (packets.foldl Survey.next .fresh).complete? ∧
      Pass.OpenBefore Survey.next (·.found.isComplete) .fresh packets := by
  have hopen : Survey.fresh.found.isComplete = false := rfl
  rcases Survey.seeks_complete.exists_reads_run hopen r #[] with
    ⟨packets, r', hreads, hstate, hending, hfronts⟩
  refine ⟨packets, r', hreads, hstate, ?_, hfronts⟩
  rw [discover_eq_outcome, Pass.outcome, hstate]
  unfold Survey.complete?
  cases hcomplete : (packets.foldl Survey.next .fresh).found.isComplete with
  | true =>
      rw [hending.mpr hcomplete]
      rfl
  | false =>
      cases hend : (Pass.run Survey.step r Survey.fresh #[]).value.ending with
      | satisfied =>
          exact absurd (hending.mp hend) (Bool.eq_false_iff.mp hcomplete)
      | exhausted => rfl
      | failed e => rfl

/-- What a discovery knows stays consistent and only grows, from association to
association, from map to map and from packet to packet.  Behind any packet it is
complete when it follows a map and every map that it follows was decoded; it
goes on as long as that is not so. -/
theorem discovery_stays_consistent (r : ρ) :
    exists packets r', Reader.Reads r packets r' ∧
      (Pass.start Survey.step r Survey.fresh).value.state =
        packets.foldl Survey.next .fresh ∧
      (discover r).value.1.toOption =
        (packets.foldl Survey.next .fresh).complete? ∧
      (Survey.fresh.history packets).Pairwise Survey.Known.Grows ∧
      (forall k, k ∈ Survey.fresh.history packets -> k.Consistent ∧
        (k.1.isComplete = true ↔
          k.1.pmtPids.toList ≠ [] ∧ k.1.pmtPids.toList ⊆ k.1.resolved.toList)) ∧
      (forall front s, front <+: packets ->
        s = front.foldl Survey.next .fresh ->
        s.known ∈ Survey.fresh.history packets ∧
        (s.found.isComplete = true ↔
          s.found.pmtPids.toList ≠ [] ∧
            forall pid, pid ∈ s.found.pmtPids.toList ->
              exists t, firstMap? pid front = some t) ∧
        (front ≠ packets -> s.found.isComplete = false)) := by
  rcases exists_reads_discover r with
    ⟨packets, r', hreads, hstate, houtcome, hfronts⟩
  have horderly := Survey.orderly_history Survey.consistent_fresh packets
  refine ⟨packets, r', hreads, hstate, houtcome, horderly.grows.pairwise, ?_,
    ?_⟩
  · intro k hk
    have hconsistent := horderly.consistent k hk
    exact ⟨hconsistent, hconsistent.isComplete_iff⟩
  · rintro front s hfront rfl
    have hmem :
        (front.foldl Survey.next .fresh).known ∈ Survey.fresh.history packets :=
      Survey.known_mem_history hfront
    have hknows := Survey.knows_foldl Survey.knows_fresh front
    exact ⟨hmem, Survey.isComplete_iff_firstMap? hknows
      (horderly.consistent _ hmem), hfronts front hfront⟩

theorem discovery_of_announcedLate :
    exists packets r',
      Reader.Reads (Feed.ofBytes (packetBytes announcedLate)) packets r' ∧
      (packets.foldl Survey.next .fresh).found = mapWithStreams ∧
      (packets.foldl Survey.next .fresh).known.Consistent ∧
      (Survey.fresh.history packets).Pairwise Survey.Known.Grows ∧
      forall pid, pid ∈ mapWithStreams.pmtPids.toList ->
        exists t, firstMap? pid packets = some t := by
  have hr := Feed.delivers_packetBytes announcedLate
  rcases discovery_stays_consistent
    (Feed.ofBytes (packetBytes announcedLate)) with
    ⟨packets, r', hreads, _, houtcome, hgrows, hconsistent, hfronts⟩
  rw [discover_announcedLate (by decide) hr, Survey.complete?] at houtcome
  rcases hfronts packets _ List.prefix_rfl rfl with ⟨hmem, hcomplete, _⟩
  cases hfound : (packets.foldl Survey.next .fresh).found.isComplete with
  | false =>
      rw [hfound] at houtcome
      cases houtcome
  | true =>
      rw [hfound] at houtcome
      have heq : (packets.foldl Survey.next .fresh).found = mapWithStreams :=
        (Option.some.inj houtcome).symm
      have hmaps := (hcomplete.mp hfound).right
      rw [heq] at hmaps
      exact ⟨packets, r', hreads, heq, (hconsistent _ hmem).left, hgrows, hmaps⟩

end TransportStream
