import TransportStream.Delay.Streams
import TransportStream.Proofs.Packet.Payload
import TransportStream.Proofs.Pass.Reads
import TransportStream.Proofs.Pat.Announced

/-!
# The streams that are measured

The first association that names a program other than the one-segment program
decides on which identifier program maps are read.  Behind the packet that
completes its table, the first AAC stream and the first MPEG-2 video stream that
the maps on this identifier list are taken, whatever programs these maps are of.
-/

namespace TransportStream
namespace AvPids

open Pat

/-- The association that decides, among those that packets announce. -/
def chosen? (packets : List Packet) : Option Association :=
  (announced (patPackets packets)).find? Association.isFollowed

/-- The last of some packets completes the table with the association that
decides. -/
def Chooses (packets : List Packet) (a : Association) : Prop :=
  exists front last, packets = front ++ [last] ∧ chosen? front = none ∧
    chosen? packets = some a

/-- The program maps read on the identifier of an association. -/
def mapsRead (a : Association) (packets : List Packet) : List Pmt :=
  (TableDecoder.fresh : TableDecoder Pmt).tables
    (packets.filter (·.pid = a.pid))

def ownMaps (a : Association) (packets : List Packet) : List Pmt :=
  (mapsRead a packets).filter (·.program = a.program)

def listed (kind : StreamKind) (maps : List Pmt) : List Nat :=
  maps.flatMap fun t => (t.streams.filter (·.kind = kind)).map (·.pid)

theorem chosen?_append_of_pat (packets : List Packet) {p : Packet}
    (hp : p.pid = patPid) :
    chosen? (packets ++ [p]) =
      (chosen? packets).or
        ((((TableDecoder.fresh : TableDecoder Pat).after
          (patPackets packets)).tables [p]).flatMap Pat.associations |>.find?
          Association.isFollowed) := by
  rw [chosen?, patPackets_append_of_pat packets hp, announced_append,
    List.find?_append]
  rfl

theorem chosen?_append_of_other (packets : List Packet) {p : Packet}
    (hp : p.pid ≠ patPid) :
    chosen? (packets ++ [p]) = chosen? packets := by
  rw [chosen?, patPackets_append_of_other packets hp]
  rfl

theorem isFollowed_iff {a : Association} :
    a.isFollowed = true ↔ a.program ≠ 0 ∧ a.pid ≠ oneSegmentPid := by
  simp [Association.isFollowed, Association.isNetwork]

theorem isFollowed_of_chooses {packets : List Packet} {a : Association}
    (h : Chooses packets a) :
    a.isFollowed = true := by
  rcases h with ⟨front, last, _, _, hchosen⟩
  exact List.find?_some hchosen

theorem listed_append (kind : StreamKind) (maps more : List Pmt) :
    listed kind (maps ++ more) = listed kind maps ++ listed kind more :=
  List.flatMap_append

theorem head?_listed_append (kind : StreamKind) (maps more : List Pmt) :
    (listed kind (maps ++ more)).head? =
      (listed kind maps).head?.or (listed kind more).head? := by
  rw [listed_append, List.head?_append]

theorem head?_listed_singleton (kind : StreamKind) (t : Pmt) :
    (listed kind [t]).head? = (t.find? kind).map (·.pid) := by
  rw [listed, List.flatMap_singleton, List.head?_map, List.head?_filter]
  rfl

/-!
## What a search knows
-/

namespace Partly

theorem value_addPat_of_known {k : Partly} (h : k.pmtPid ≠ none) (t : Pat) :
    (k.addPat t).value = k := by
  unfold addPat
  cases hpid : k.pmtPid with
  | none => exact absurd hpid h
  | some pid => rfl

theorem value_addPat_of_unknown {k : Partly} (h : k.pmtPid = none) (t : Pat) :
    (k.addPat t).value =
      ⟨(t.associations.find? Association.isFollowed).map (·.pid), k.audio,
        k.video⟩ := by
  have hfind : t.programs.find? (·.pid ≠ oneSegmentPid) =
      t.associations.find? Association.isFollowed := by
    rw [programs, List.find?_filter]
    congr 1
    funext a
    rw [Association.isFollowed, decide_not, Bool.decide_and,
      Bool.decide_eq_true, Bool.decide_eq_true]
    rfl
  unfold addPat
  rw [h, hfind]
  cases t.associations.find? Association.isFollowed with
  | none =>
      cases k
      cases h
      rfl
  | some a => rfl

theorem foldl_addPat_of_known {k : Partly} (h : k.pmtPid ≠ none)
    (tables : List Pat) :
    tables.foldl (fun k t => (addPat k t).value) k = k := by
  induction tables with
  | nil => rfl
  | cons t tables ih => rw [List.foldl_cons, value_addPat_of_known h, ih]

theorem foldl_addPat_of_unknown {k : Partly} (h : k.pmtPid = none)
    (tables : List Pat) :
    tables.foldl (fun k t => (addPat k t).value) k =
      ⟨((tables.flatMap Pat.associations).find? Association.isFollowed).map
        (·.pid), k.audio, k.video⟩ := by
  induction tables generalizing k with
  | nil =>
      cases k
      cases h
      rfl
  | cons t tables ih =>
      rw [List.foldl_cons, value_addPat_of_unknown h, List.flatMap_cons,
        List.find?_append]
      cases t.associations.find? Association.isFollowed with
      | none => exact ih rfl
      | some a =>
          rw [foldl_addPat_of_known (by simp)]
          rfl

theorem addPmt_eq (k : Partly) (t : Pmt) :
    k.addPmt t =
      ⟨k.pmtPid, k.audio.or (listed .aacAdts [t]).head?,
        k.video.or (listed .mpeg2Video [t]).head?⟩ := by
  rw [head?_listed_singleton, head?_listed_singleton]
  rcases k with ⟨pmtPid, audio, video⟩
  cases audio <;> cases video <;> rfl

theorem foldl_addPmt (k : Partly) (maps : List Pmt) :
    maps.foldl addPmt k =
      ⟨k.pmtPid, k.audio.or (listed .aacAdts maps).head?,
        k.video.or (listed .mpeg2Video maps).head?⟩ := by
  induction maps generalizing k with
  | nil =>
      cases k
      simp [listed]
  | cons t maps ih =>
      have hcons : t :: maps = [t] ++ maps := rfl
      rw [List.foldl_cons, ih, addPmt_eq, hcons, head?_listed_append,
        head?_listed_append, Option.or_assoc, Option.or_assoc]

theorem pids?_eq_some_iff {k : Partly} {pids : AvPids} :
    k.pids? = some pids ↔
      k.audio = some pids.audio ∧ k.video = some pids.video := by
  unfold pids?
  cases k.audio with
  | none => simp
  | some audio =>
      cases k.video with
      | none => simp
      | some video =>
          cases pids
          simp

end Partly

namespace Search

def next (s : Search) (p : Packet) : Search :=
  (advance s p).value

theorem value_step (s : Search) (p : Packet) :
    (step s p).value =
      if (next s p).known.pids?.isSome then .done (next s p)
      else .more (next s p) := by
  unfold step
  rw [Logged.value_bind]
  have hnext : (advance s p).value = next s p := rfl
  rw [hnext]
  cases (next s p).known.pids? with
  | none => rfl
  | some pids => rfl

theorem seeks_pids : Pass.Seeks step next (·.known.pids?.isSome) :=
  value_step

/-- What a search knows behind some packets, and what its decoders have read. -/
inductive Knows : List Packet -> Search -> Prop where
  | choosing {packets : List Packet} (h : chosen? packets = none) :
      Knows packets ⟨⟨none, none, none⟩,
        TableDecoder.fresh.after (patPackets packets), .fresh⟩
  | following {ahead : List Packet} {a : Association} (h : Chooses ahead a)
      (later : List Packet) (decoder : TableDecoder Pat) :
      Knows (ahead ++ later)
        ⟨⟨some a.pid, (listed .aacAdts (mapsRead a later)).head?,
            (listed .mpeg2Video (mapsRead a later)).head?⟩,
          decoder, TableDecoder.fresh.after (later.filter (·.pid = a.pid))⟩

theorem knows_fresh : Knows [] fresh :=
  .choosing rfl

theorem knows_next_of_choosing {packets : List Packet}
    (h : chosen? packets = none) (p : Packet) :
    Knows (packets ++ [p])
      (next ⟨⟨none, none, none⟩, TableDecoder.fresh.after (patPackets packets),
        .fresh⟩ p) := by
  by_cases hp : p.pid = patPid
  · have hchosen := chosen?_append_of_pat packets hp
    rw [h, Option.none_or] at hchosen
    rw [next, advance, if_pos ⟨hp, rfl⟩]
    simp only [Logged.value_bind, Logged.value_pure,
      TableDecoder.submit_of_visit]
    rw [Partly.foldl_addPat_of_unknown rfl, ← hchosen,
      ← TableDecoder.after_append, ← patPackets_append_of_pat packets hp]
    cases hfound : chosen? (packets ++ [p]) with
    | none => exact .choosing hfound
    | some a =>
        have hchooses : Chooses (packets ++ [p]) a :=
          ⟨packets, p, rfl, h, hfound⟩
        have hknows := Knows.following hchooses []
          (TableDecoder.fresh.after (patPackets (packets ++ [p])))
        rw [List.append_nil] at hknows
        exact hknows
  · have hsame :
        next ⟨⟨none, none, none⟩, TableDecoder.fresh.after (patPackets packets),
        .fresh⟩ p = ⟨⟨none, none, none⟩,
        TableDecoder.fresh.after (patPackets packets), .fresh⟩ := by
      rw [next, advance, if_neg (fun hboth => hp hboth.left), if_neg (by simp)]
      rfl
    rw [hsame, ← patPackets_append_of_other packets hp]
    exact .choosing ((chosen?_append_of_other packets hp).trans h)

theorem knows_next_of_following {ahead later : List Packet} {a : Association}
    (h : Chooses ahead a) (decoder : TableDecoder Pat) (p : Packet) :
    Knows (ahead ++ later ++ [p])
      (next ⟨⟨some a.pid, (listed .aacAdts (mapsRead a later)).head?,
            (listed .mpeg2Video (mapsRead a later)).head?⟩,
          decoder, TableDecoder.fresh.after (later.filter (·.pid = a.pid))⟩
            p) := by
  have hknows := Knows.following h (later ++ [p]) decoder
  rw [mapsRead, List.filter_append] at hknows
  rw [List.append_assoc, next, advance, if_neg (by simp)]
  by_cases hp : p.pid = a.pid
  · have hfilter : [p].filter (·.pid = a.pid) = [p] :=
      List.filter_cons_of_pos (decide_eq_true hp)
    rw [hfilter, TableDecoder.tables_append, head?_listed_append,
      head?_listed_append, TableDecoder.after_append] at hknows
    rw [if_pos (by rw [hp])]
    simp only [Logged.value_bind, Logged.value_pure,
      TableDecoder.submit_of_visit]
    rw [Partly.foldl_addPmt]
    exact hknows
  · have hfilter : [p].filter (·.pid = a.pid) = [] :=
      List.filter_cons_of_neg (fun hpid => hp (of_decide_eq_true hpid))
    rw [hfilter, List.append_nil] at hknows
    rw [if_neg (fun hpid => hp (Option.some.inj hpid).symm)]
    exact hknows

theorem knows_next {packets : List Packet} {s : Search} (h : Knows packets s)
    (p : Packet) :
    Knows (packets ++ [p]) (next s p) := by
  cases h with
  | choosing hnone => exact knows_next_of_choosing hnone p
  | following hchooses later decoder =>
      exact knows_next_of_following hchooses decoder p

theorem pids?_next {s : Search} {pids : AvPids} (h : s.known.pids? = some pids)
    (p : Packet) :
    (next s p).known.pids? = some pids := by
  rw [Partly.pids?_eq_some_iff] at h ⊢
  rcases h with ⟨haudio, hvideo⟩
  unfold next advance
  split
  · rename_i hpat
    simp only [Logged.value_bind, Logged.value_pure,
      TableDecoder.submit_of_visit]
    rw [Partly.foldl_addPat_of_unknown hpat.right]
    exact ⟨haudio, hvideo⟩
  · split
    · simp only [Logged.value_bind, Logged.value_pure,
        TableDecoder.submit_of_visit]
      rw [Partly.foldl_addPmt, haudio, hvideo]
      exact ⟨rfl, rfl⟩
    · exact ⟨haudio, hvideo⟩

theorem pids?_foldl_next {s : Search} {pids : AvPids}
    (h : s.known.pids? = some pids) (packets : List Packet) :
    (packets.foldl next s).known.pids? = some pids := by
  induction packets generalizing s with
  | nil => exact h
  | cons p packets ih => exact ih (pids?_next h p)

theorem knows_run {ρ : Type} [FiniteSource ρ] {r : ρ} {seen : List Packet}
    {s : Search} (h : Knows seen s) (hopen : s.known.pids? = none) (log : Log) :
    ((Pass.run step r s log).value.ending = .exhausted ->
        (Pass.run step r s log).value.state.known.pids? = none) ∧
      ((Pass.run step r s log).value.ending = .satisfied ->
        exists packets,
          Reader.Reads r packets (Pass.run step r s log).value.source ∧
          Knows (seen ++ packets) (Pass.run step r s log).value.state) := by
  refine seeks_pids.run_induction
    (motive := fun r s pass => forall seen, Knows seen s ->
      s.known.pids? = none ->
      (pass.ending = .exhausted -> pass.state.known.pids? = none) ∧
        (pass.ending = .satisfied -> exists packets,
          Reader.Reads r packets pass.source ∧
          Knows (seen ++ packets) pass.state))
    ?_ ?_ ?_ ?_ r s log seen h hopen
  · intro r r' s _ seen _ hnone
    constructor
    · intro _
      exact hnone
    · intro hending
      cases hending
  · intro r r' s e _ _ seen _ _
    constructor
    · intro hending
      cases hending
    · intro hending
      cases hending
  · intro r r' s p pass hread hmore ih seen hknows _
    have hopen := Option.not_isSome_iff_eq_none.mp (Bool.eq_false_iff.mp hmore)
    rcases ih (seen ++ [p]) (knows_next hknows p) hopen with
      ⟨hexhausted, hsatisfied⟩
    refine ⟨hexhausted, ?_⟩
    intro hending
    rcases hsatisfied hending with ⟨packets, hreads, hknown⟩
    rw [← List.append_cons] at hknown
    exact ⟨p :: packets, .packet hread hreads, hknown⟩
  · intro r r' s p hread _ seen hknows _
    constructor
    · intro hending
      cases hending
    · intro _
      exact ⟨[p], .packet hread (.nothing r'), knows_next hknows p⟩

end Search

open Search

theorem knows_find {ρ : Type} [FiniteSource ρ] {r r' : ρ} {pids : AvPids}
    (h : (find r).value = (.ok pids, r')) :
    exists (packets : List Packet) (s : Search),
      Reader.Reads r packets r' ∧ Knows packets s ∧
        s.known.pids? = some pids := by
  rcases Search.knows_run (r := r) Search.knows_fresh rfl #[] with
    ⟨hexhausted, hsatisfied⟩
  unfold find at h
  rw [Logged.value_bind, Pass.start] at h
  cases hending : (Pass.run step r fresh #[]).value.ending with
  | satisfied =>
      rcases hsatisfied hending with ⟨packets, hreads, hknows⟩
      rw [hending] at h
      unfold result at h
      cases hpids : (Pass.run step r fresh #[]).value.state.known.pids? with
      | none =>
          rw [hpids] at h
          cases h
      | some found =>
          rw [hpids] at h
          cases h
          exact ⟨packets, _, hreads, hknows, hpids⟩
  | exhausted =>
      rw [hending] at h
      unfold result at h
      rw [hexhausted hending] at h
      cases h
  | failed e =>
      rw [hending] at h
      cases h

/-!
## The program that was chosen
-/

/-- The first of the maps that lists a stream of a kind is of a program itself,
or a later map of this program lists the same stream. -/
def FirstIsOwn (kind : StreamKind) (program : Nat) (maps : List Pmt) : Prop :=
  exists (front : List Pmt) (t : Pmt) (back : List Pmt) (s : ElementaryStream),
    maps = front ++ t :: back ∧ (forall m, m ∈ front -> m.find? kind = none) ∧
      t.find? kind = some s ∧
      (t.program = program ∨
        exists m, m ∈ back ∧ m.program = program ∧
          exists s', s' ∈ m.streams ∧ s'.kind = kind ∧ s'.pid = s.pid)

theorem mem_listed_iff {kind : StreamKind} {maps : List Pmt} {pid : Nat} :
    pid ∈ listed kind maps ↔
      exists m, m ∈ maps ∧ exists s, s ∈ m.streams ∧ s.kind = kind ∧
        s.pid = pid := by
  simp only [listed, List.mem_flatMap, List.mem_map, List.mem_filter,
    decide_eq_true_eq, and_assoc]

theorem find?_eq_none_iff {kind : StreamKind} {t : Pmt} :
    t.find? kind = none ↔ forall s, s ∈ t.streams -> s.kind ≠ kind := by
  simp [Pmt.find?]

theorem of_find?_eq_some {kind : StreamKind} {t : Pmt} {s : ElementaryStream}
    (h : t.find? kind = some s) : s ∈ t.streams ∧ s.kind = kind := by
  unfold Pmt.find? at h
  exact ⟨List.mem_of_find?_eq_some h, by simpa using List.find?_some h⟩

theorem head?_listed_eq_some_iff {kind : StreamKind} {maps : List Pmt}
    {pid : Nat} :
    (listed kind maps).head? = some pid ↔
      exists (front : List Pmt) (t : Pmt) (back : List Pmt)
        (s : ElementaryStream), maps = front ++ t :: back ∧
        (forall m, m ∈ front -> m.find? kind = none) ∧
          t.find? kind = some s ∧ s.pid = pid := by
  have hhead : (listed kind maps).head? =
      maps.findSome? (fun t => (t.find? kind).map (·.pid)) := by
    rw [listed, List.head?_flatMap]
    congr 1
    funext t
    rw [← head?_listed_singleton, listed, List.flatMap_singleton]
  rw [hhead, List.findSome?_eq_some_iff]
  simp only [Option.map_eq_some_iff, Option.map_eq_none_iff]
  constructor
  · rintro ⟨front, t, back, hmaps, ⟨s, hfind, hpid⟩, hnone⟩
    exact ⟨front, t, back, s, hmaps, hnone, hfind, hpid⟩
  · rintro ⟨front, t, back, s, hmaps, hnone, hfind, hpid⟩
    exact ⟨front, t, back, hmaps, ⟨s, hfind, hpid⟩, hnone⟩

theorem mem_listed_filter_iff {kind : StreamKind} {program : Nat}
    {maps : List Pmt} {pid : Nat} (h : (listed kind maps).head? = some pid) :
    pid ∈ listed kind (maps.filter (·.program = program)) ↔
      FirstIsOwn kind program maps := by
  constructor
  · intro hown
    rcases head?_listed_eq_some_iff.mp h with
      ⟨front, t, back, s, rfl, hnone, hfind, rfl⟩
    refine ⟨front, t, back, s, rfl, hnone, hfind, ?_⟩
    rcases mem_listed_iff.mp hown with ⟨m, hm, s', hs', hkind, hpid⟩
    rcases List.mem_filter.mp hm with ⟨hread, hprogram⟩
    rcases List.mem_append.mp hread with hfront | hcons
    · exact absurd hkind (find?_eq_none_iff.mp (hnone m hfront) s' hs')
    · rcases List.mem_cons.mp hcons with rfl | hback
      · exact .inl (of_decide_eq_true hprogram)
      · exact .inr ⟨m, hback, of_decide_eq_true hprogram, s', hs', hkind, hpid⟩
  · rintro ⟨front, t, back, s, rfl, hnone, hfind, hown⟩
    have hhead :=
      head?_listed_eq_some_iff.mpr ⟨front, t, back, s, rfl, hnone, hfind, rfl⟩
    cases h.symm.trans hhead
    apply mem_listed_iff.mpr
    rcases hown with hprogram | ⟨m, hback, hprogram, hlists⟩
    · have ht : t ∈ (front ++ t :: back).filter (·.program = program) :=
        List.mem_filter.mpr ⟨by simp, decide_eq_true hprogram⟩
      rcases of_find?_eq_some hfind with ⟨hlisted, hkind⟩
      exact ⟨t, ht, s, hlisted, hkind, rfl⟩
    · have hm : m ∈ (front ++ t :: back).filter (·.program = program) :=
        List.mem_filter.mpr ⟨by simp [hback], decide_eq_true hprogram⟩
      exact ⟨m, hm, hlists⟩

/-- A search that succeeds has read a table that chooses a program, and behind
it maps on the identifier of this program.  It returns the first AAC stream and
the first MPEG-2 video stream that these maps list.  Both belong to the program
chosen exactly if, for either kind, the first map that lists a stream of the
kind is a map of this program or a later map of this program lists the same
identifier. -/
theorem find_measures_chosen_program_iff {ρ : Type} [FiniteSource ρ] {r r' : ρ}
    {pids : AvPids} (h : (find r).value = (.ok pids, r')) :
    exists ahead later a, Reader.Reads r (ahead ++ later) r' ∧ Chooses ahead a ∧
      a.program ≠ 0 ∧ a.pid ≠ oneSegmentPid ∧
      (listed .aacAdts (mapsRead a later)).head? = some pids.audio ∧
      (listed .mpeg2Video (mapsRead a later)).head? = some pids.video ∧
      ((pids.audio ∈ listed .aacAdts (ownMaps a later) ∧
          pids.video ∈ listed .mpeg2Video (ownMaps a later)) ↔
        FirstIsOwn .aacAdts a.program (mapsRead a later) ∧
          FirstIsOwn .mpeg2Video a.program (mapsRead a later)) := by
  rcases knows_find h with ⟨packets, s, hreads, hknows, hpids⟩
  rcases Partly.pids?_eq_some_iff.mp hpids with ⟨haudio, hvideo⟩
  cases hknows with
  | choosing hnone => cases haudio
  | following hchooses later decoder =>
      rename_i ahead a
      dsimp only at haudio hvideo
      rcases isFollowed_iff.mp (isFollowed_of_chooses hchooses) with
        ⟨hprogram, hpid⟩
      refine ⟨ahead, later, a, hreads, hchooses, hprogram, hpid, haudio,
        hvideo, ?_⟩
      exact and_congr (mem_listed_filter_iff haudio)
        (mem_listed_filter_iff hvideo)

/-!
## Searching packets that are delivered
-/

theorem find_of_delivers {ρ : Type} [FiniteSource ρ] {packets : List Packet}
    {tail : Bytes} (htail : tail.length < frameSize) {r : ρ}
    (hr : Delivers r (packetBytes packets ++ tail)) :
    (find r).value.1 = (packets.foldl next fresh).result := by
  have hrun : (forall e, (Pass.run step r fresh #[]).value.ending ≠ .failed e) ∧
      (Pass.run step r fresh #[]).value.state.result =
        (packets.foldl next fresh).result := by
    refine seeks_pids.delivers_induction (motive := fun packets s pass =>
      (forall e, pass.ending ≠ .failed e) ∧
        pass.state.result = (packets.foldl next s).result) ?_ ?_ ?_ htail hr
          fresh #[]
    · intro s r
      refine ⟨?_, rfl⟩
      intro e hfailed
      cases hfailed
    · intro p packets s pass _ ih
      exact ih
    · intro p packets s r hfound
      rcases Option.isSome_iff_exists.mp hfound with ⟨pids, hpids⟩
      constructor
      · intro e hfailed
        cases hfailed
      · rw [List.foldl_cons, result, result, hpids, pids?_foldl_next hpids]
  unfold find
  rw [Logged.value_bind, Pass.start]
  cases hending : (Pass.run step r fresh #[]).value.ending with
  | satisfied => exact hrun.right
  | exhausted => exact hrun.right
  | failed e => exact absurd hending (hrun.left e)

theorem find_eq_ok_of_delivers {ρ : Type} [FiniteSource ρ]
    {packets : List Packet} (pids : AvPids)
    (hpids : (packets.foldl next fresh).known.pids? = some pids) {r : ρ}
    (hr : Delivers r (packetBytes packets ++ [])) :
    (find r).value = (.ok pids, (find r).value.2) := by
  refine Prod.ext ?_ rfl
  rw [find_of_delivers (by decide) hr, result, hpids]

theorem find_measures_announcedLate :
    exists r', (find (Feed.ofBytes (packetBytes announcedLate))).value =
        (.ok ⟨0x0110, 0x0100⟩, r') ∧
      exists ahead later a,
        Reader.Reads (Feed.ofBytes (packetBytes announcedLate))
          (ahead ++ later) r' ∧
          Chooses ahead a ∧ (listed .aacAdts (mapsRead a later)).head? =
            some 0x0110 ∧
          (listed .mpeg2Video (mapsRead a later)).head? = some 0x0100 := by
  have hfound := find_eq_ok_of_delivers ⟨0x0110, 0x0100⟩ (by decide +kernel)
    (Feed.delivers_packetBytes announcedLate)
  rcases find_measures_chosen_program_iff hfound with
    ⟨ahead, later, a, hreads, hchooses, _, _, haudio, hvideo, _⟩
  exact ⟨_, hfound, ahead, later, a, hreads, hchooses, haudio, hvideo⟩

def ownMapPacket : Packet :=
  .padded 0x41 0xF0 0x10
    [0x00,
      0x02, 0xB0, 0x17, 0x04, 0x00, 0xC1, 0x00, 0x00, 0xE1, 0x00, 0xF0, 0x00,
      0x02, 0xE1, 0x00, 0xF0, 0x00, 0x0F, 0xE1, 0x10, 0xF0, 0x00, 0x22, 0x0C,
      0x14, 0x36]

def otherMapPacket : Packet :=
  .padded 0x41 0xF0 0x10
    [0x00,
      0x02, 0xB0, 0x12, 0x04, 0x01, 0xC1, 0x00, 0x00, 0xE2, 0x10, 0xF0, 0x00,
      0x0F, 0xE2, 0x10, 0xF0, 0x00, 0x6F, 0x60, 0xD8, 0xA2]

/-- Where another program comes first on the identifier of the program chosen,
the audio of the one is measured against the video of the other. -/
theorem two_programs_are_measured :
    Chooses [mixedStart, mixedRest] ⟨0x0400, 0x01F0⟩ ∧
      (find (Feed.ofBytes (packetBytes
        ([mixedStart, mixedRest] ++ [otherMapPacket, ownMapPacket])))).value.1 =
          .ok ⟨0x0210, 0x0100⟩ ∧
      0x0210 ∉ listed .aacAdts
        (ownMaps ⟨0x0400, 0x01F0⟩ [otherMapPacket, ownMapPacket]) ∧
      0x0100 ∈ listed .mpeg2Video
        (ownMaps ⟨0x0400, 0x01F0⟩ [otherMapPacket, ownMapPacket]) := by
  have hnone : chosen? [mixedStart] = none := by decide +kernel
  have hchosen : chosen? [mixedStart, mixedRest] = some ⟨0x0400, 0x01F0⟩ := by
    decide +kernel
  have hpids :
      (([mixedStart, mixedRest] ++ [otherMapPacket, ownMapPacket]).foldl next
      fresh).known.pids? = some ⟨0x0210, 0x0100⟩ := by decide +kernel
  have hfound := find_eq_ok_of_delivers _ hpids (Feed.delivers_packetBytes _)
  refine ⟨⟨[mixedStart], mixedRest, rfl, hnone, hchosen⟩,
    congrArg Prod.fst hfound, ?_, ?_⟩
  · decide +kernel
  · decide +kernel

end AvPids
end TransportStream
