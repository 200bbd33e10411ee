import TransportStream.Proofs.Pass

/-!
# Searches that stop at the first packet that is enough

A search is a pass that looks for an answer.  It takes the packets up to the
first one behind which the answer is known, whatever comes behind that packet,
and with any byte less it ends without an answer.
-/

namespace TransportStream

theorem Delivers.unique {ρ : Type} [FiniteSource ρ] {r : ρ}
    {bytes other : Bytes} (h : Delivers r bytes) (hother : Delivers r other) :
    bytes = other := by
  induction hremaining : FiniteSource.remaining r using Nat.strongRecOn
    generalizing r bytes other with
  | ind remaining ih =>
      subst hremaining
      -- Asked for one byte at a time, the source gives the same answers for
      -- both strings.
      have hone : 0 < 1 := Nat.one_pos
      cases hread : Source.read r 1 with
      | mk delivery r' =>
          cases delivery with
          | bytes data =>
              rcases h.of_bytes hone hread with ⟨rest, rfl, hend, hrest⟩
              rcases hother.of_bytes hone hread with ⟨rest', rfl, hend', hrest'⟩
              cases data with
              | nil => rw [hend rfl, hend' rfl]
              | cons b data =>
                  have hless := FiniteSource.isBound.lt_of_bytes hread
                  rw [ih _ hless hrest hrest' rfl]
          | failed failure =>
              have hinterrupted := h.interrupted_of_failed hone hread
              subst hinterrupted
              have hless := FiniteSource.isBound.lt_of_interrupted hread
              exact ih _ hless (h.of_interrupted hone hread)
                (hother.of_interrupted hone hread) rfl

namespace Reader

theorem eq_append_of_packetAhead {bytes : Bytes} {p : Packet}
    (h : packetAhead bytes = .ok p) :
    bytes = p.bytes ++ bytes.drop frameSize := by
  rw [packetAhead, dif_pos (length_of_packetAhead h)] at h
  rw [Packet.bytes, Packet.frame_of_parse h]
  exact (List.take_append_drop frameSize bytes).symm

theorem delivers_of_readPacket {ρ : Type} [FiniteSource ρ] {r r' : ρ}
    {bytes : Bytes} {p : Packet} (h : Delivers r bytes)
    (hread : (readPacket r).value = (.ok p, r')) :
    exists rest, bytes = p.bytes ++ rest ∧ Delivers r' rest := by
  rcases readPacket_ahead h with ⟨r1, hahead, hrest⟩
  rw [hread] at hahead
  rcases Prod.mk.inj hahead with ⟨hp, rfl⟩
  exact ⟨bytes.drop frameSize, eq_append_of_packetAhead hp.symm, hrest⟩

end Reader

namespace Feed

/-- A feed that still has to deliver all of a byte string, in portions of any
size and with any interruptions. -/
structure Whole (bytes : Bytes) (f : Feed) : Prop where
  bytes_eq : f.bytes = bytes
  position_eq : f.position = 0
  interrupted : forall fault, fault ∈ f.faults ->
    fault.failure = some .interrupted

theorem whole_ofBytes (bytes : Bytes) : Whole bytes (ofBytes bytes) :=
  ⟨rfl, rfl, nofun⟩

theorem Whole.delivers {bytes : Bytes} {f : Feed} (h : Whole bytes f) :
    Delivers f bytes := by
  rw [← h.bytes_eq]
  exact Feed.delivers h.interrupted

/-- A feed that has counted every byte of a byte string that is gone. -/
structure Counts (bytes : Bytes) (f : Feed) : Prop where
  length_eq : f.position + f.bytes.length = bytes.length
  interrupted : forall fault, fault ∈ f.faults ->
    fault.failure = some .interrupted

theorem Whole.counts {bytes : Bytes} {f : Feed} (h : Whole bytes f) :
    Counts bytes f := by
  refine ⟨?_, h.interrupted⟩
  rw [h.bytes_eq, h.position_eq, Nat.zero_add]

theorem counts_deliver {bytes : Bytes} {f : Feed} (h : Counts bytes f)
    (limit : Nat) :
    Counts bytes (f.deliver limit).2 := by
  refine ⟨?_, h.interrupted⟩
  have hlength := h.length_eq
  simp only [deliver, List.length_take, List.length_drop]
  lia

theorem counts_read {bytes : Bytes} {f : Feed} (h : Counts bytes f) (n : Nat) :
    Counts bytes (f.read n).2 := by
  unfold read
  split
  · exact counts_deliver h n
  · rename_i fault later hfaults
    split
    · have hlater : forall other, other ∈ later ->
          other.failure = some .interrupted := by
        intro other hother
        exact h.interrupted other
          (by rw [hfaults]; exact List.mem_cons_of_mem fault hother)
      split
      · exact ⟨h.length_eq, hlater⟩
      · exact ⟨h.length_eq, hlater⟩
    · exact counts_deliver h _

theorem position_of_delivers {bytes rest : Bytes} {f : Feed}
    (h : Counts bytes f) (hrest : Delivers f rest) :
    f.position + rest.length = bytes.length := by
  rw [← (Feed.delivers h.interrupted).unique hrest]
  exact h.length_eq

end Feed

/-- The last of some packets is the first one behind which the answer to a
search is known. -/
inductive FirstAnswer {σ α : Type} (next : σ -> Packet -> σ)
    (answer? : σ -> Option α) :
    σ -> List Packet -> α -> Prop where
  | last {s : σ} {p : Packet} {a : α} (h : answer? (next s p) = some a) :
      FirstAnswer next answer? s [p] a
  | later {s : σ} {p : Packet} {packets : List Packet} {a : α}
    (hopen : answer? (next s p) = none)
      (h : FirstAnswer next answer? (next s p) packets a) :
      FirstAnswer next answer? s (p :: packets) a

theorem FirstAnswer.ne_nil {σ α : Type} {next : σ -> Packet -> σ}
    {answer? : σ -> Option α} {s : σ} {packets : List Packet} {a : α}
    (h : FirstAnswer next answer? s packets a) :
    packets ≠ [] := by
  cases h with
  | last h => exact List.cons_ne_nil _ _
  | later hopen h => exact List.cons_ne_nil _ _

namespace Pass

variable {ρ σ α : Type}

def outcome (answer? : σ -> Option α) (missing : Error) (pass : Pass ρ σ) :
    Except Error α :=
  match pass.ending with
  | .failed e => .error e
  | _ =>
      match answer? pass.state with
      | some a => .ok a
      | none => .error missing

variable [FiniteSource ρ] {step : σ -> Packet -> Logged (Flow σ)}
  {next : σ -> Packet -> σ}
  {answer? : σ -> Option α} {missing : Error} {r : ρ} {s : σ}
    {packets : List Packet} {a : α}

theorem Seeks.firstAnswer_of_outcome
    (h : Seeks step next fun s => (answer? s).isSome) {bytes : Bytes}
    (hr : Delivers r bytes) (hs : answer? s = none) {log : Log}
    (hok : (run step r s log).value.outcome answer? missing = .ok a) :
    exists packets rest, FirstAnswer next answer? s packets a ∧
      bytes = packetBytes packets ++ rest ∧
        Delivers (run step r s log).value.source rest := by
  refine h.run_induction (motive := fun r s pass => forall bytes,
    Delivers r bytes ->
    answer? s = none -> pass.outcome answer? missing = .ok a ->
    exists packets rest, FirstAnswer next answer? s packets a ∧
      bytes = packetBytes packets ++ rest ∧ Delivers pass.source rest)
    ?_ ?_ ?_ ?_ r s log bytes hr hs hok
  · intro r r' s _ bytes _ hs hok
    simp only [outcome, hs] at hok
    cases hok
  · intro r r' s e _ _ bytes _ _ hok
    cases hok
  · intro r r' s p pass hread hmore ih bytes hr _ hok
    have hopen := Option.not_isSome_iff_eq_none.mp (Bool.eq_false_iff.mp hmore)
    rcases Reader.delivers_of_readPacket hr hread with ⟨behind, rfl, hbehind⟩
    rcases ih behind hbehind hopen hok with ⟨packets, rest, hfirst, rfl, hrest⟩
    refine ⟨p :: packets, rest, .later hopen hfirst, ?_, hrest⟩
    rw [packetBytes_cons, List.append_assoc]
  · intro r r' s p hread hfound bytes hr _ hok
    rcases Reader.delivers_of_readPacket hr hread with ⟨rest, rfl, hrest⟩
    rcases Option.isSome_iff_exists.mp hfound with ⟨answer, hanswer⟩
    simp only [outcome, hanswer] at hok
    cases hok
    refine ⟨[p], rest, .last hanswer, ?_, hrest⟩
    rw [packetBytes_cons, packetBytes_nil, List.append_nil]

theorem Seeks.outcome_of_firstAnswer
    (h : Seeks step next fun s => (answer? s).isSome)
    (hfirst : FirstAnswer next answer? s packets a) {rest : Bytes}
    (hr : Delivers r (packetBytes packets ++ rest)) (missing : Error)
    (log : Log) :
    (run step r s log).value.outcome answer? missing = .ok a ∧
      Delivers (run step r s log).value.source rest := by
  induction hfirst generalizing r log with
  | last hanswer =>
      rw [packetBytes_cons, packetBytes_nil, List.append_nil] at hr
      rcases Reader.readPacket_of_delivers hr with ⟨r', hread, hrest⟩
      rw [h.value_run_of_found hread (Option.isSome_of_eq_some hanswer)]
      refine ⟨?_, hrest⟩
      simp only [outcome, hanswer]
  | later hopen _ ih =>
      rw [packetBytes_cons, List.append_assoc] at hr
      rcases Reader.readPacket_of_delivers hr with ⟨r', hread, hrest⟩
      rcases h.value_run_of_open hread (by rw [hopen]; rfl) log with
        ⟨log', hrun⟩
      rw [hrun]
      exact ih hrest log'

theorem outcome_of_short {bytes : Bytes} (hs : answer? s = none)
    (hr : Delivers r bytes) (hlength : bytes.length < frameSize) (log : Log) :
    (run step r s log).value.outcome answer? missing = .error missing := by
  rcases Reader.readPacket_of_delivers_short hr hlength with ⟨r', hread, _⟩
  rw [value_run_of_end hread]
  simp only [outcome, hs]

theorem Seeks.outcome_of_less (h : Seeks step next fun s => (answer? s).isSome)
    (hfirst : FirstAnswer next answer? s packets a) (hs : answer? s = none)
    {m : Nat} (hm : m < (packetBytes packets).length)
    (hr : Delivers r ((packetBytes packets).take m)) (log : Log) :
    (run step r s log).value.outcome answer? missing = .error missing := by
  induction hfirst generalizing r log m with
  | last _ =>
      rw [length_packetBytes, List.length_singleton, Nat.mul_one] at hm
      exact outcome_of_short hs hr
        (Nat.lt_of_le_of_lt (List.length_take_le _ _) hm) log
  | @later s p packets a hopen _ ih =>
      have hp : p.bytes.length = frameSize := p.frame.length_bytes
      -- The bytes end inside the first packet, or that packet is read and is
      -- not enough.
      by_cases hless : m < frameSize
      · exact outcome_of_short hs hr
          (Nat.lt_of_le_of_lt (List.length_take_le _ _) hless) log
      · have hle : frameSize ≤ m := Nat.le_of_not_lt hless
        rw [packetBytes_cons, List.length_append, hp] at hm
        rw [packetBytes_cons, List.take_append, hp,
          List.take_of_length_le (by lia)] at hr
        rcases Reader.readPacket_of_delivers hr with ⟨r', hread, hrest⟩
        rcases h.value_run_of_open hread (by rw [hopen]; rfl) log with
          ⟨log', hrun⟩
        rw [hrun]
        exact ih hopen (by lia) hrest log'

end Pass

/-!
## Searches that count
-/

/-- A search that finds something behind a number of bytes finds it whatever
comes behind these bytes, and not with fewer of them. -/
structure StopsEarliest {α : Type}
    (search : Feed -> Logged (Except Error α × Feed)) (missing : Error)
    (bytes : Bytes) (a : α) (n : Nat) : Prop where
  positive : 0 < n
  frames : 188 ∣ n
  inside : n ≤ bytes.length
  ignores : forall later f, f.Whole (bytes.take n ++ later) ->
    exists f', (search f).value = (.ok a, f') ∧ f'.position = n
  needs : forall m f, m < n -> f.Whole (bytes.take m) ->
    (search f).value.1 = .error missing

namespace Pass

variable {σ α : Type} {step : σ -> Packet -> Logged (Flow σ)}
  {next : σ -> Packet -> σ}
  {answer? : σ -> Option α} {missing : Error} {s : σ}
  {search : Feed -> Logged (Except Error α × Feed)}

theorem counts_run {bytes : Bytes} {f : Feed} (h : f.Whole bytes) :
    (run step f s #[]).value.source.Counts bytes := by
  apply source_run
  · intro f n _ hf
    exact Feed.counts_read hf n
  · exact h.counts

theorem Seeks.search_of_firstAnswer
    (h : Seeks step next fun s => (answer? s).isSome)
    (hsearch : forall f, (search f).value =
      ((run step f s #[]).value.outcome answer? missing,
      (run step f s #[]).value.source))
    {packets : List Packet} {a : α}
    (hfirst : FirstAnswer next answer? s packets a) {later : Bytes} {f : Feed}
    (hf : f.Whole (packetBytes packets ++ later)) :
    exists f', (search f).value = (.ok a, f') ∧
      f'.position = (packetBytes packets).length := by
  rcases h.outcome_of_firstAnswer hfirst hf.delivers missing #[] with
    ⟨hfound, hlater⟩
  have htotal := Feed.position_of_delivers (counts_run hf) hlater
  rw [List.length_append] at htotal
  refine ⟨_, ?_, Nat.add_right_cancel htotal⟩
  rw [hsearch, hfound]

theorem Seeks.stopsEarliest (h : Seeks step next fun s => (answer? s).isSome)
    (hs : answer? s = none)
    (hsearch : forall f, (search f).value =
      ((run step f s #[]).value.outcome answer? missing,
      (run step f s #[]).value.source))
    {bytes : Bytes} {f f' : Feed} (hf : f.Whole bytes) {a : α}
    (hok : (search f).value = (.ok a, f')) :
    StopsEarliest search missing bytes a f'.position := by
  have houtcome := hok
  rw [hsearch] at houtcome
  rcases h.firstAnswer_of_outcome hf.delivers hs
    (congrArg Prod.fst houtcome) with
    ⟨packets, rest, hfirst, rfl, _⟩
  have hposition : f'.position = (packetBytes packets).length := by
    rcases h.search_of_firstAnswer hsearch hfirst hf with ⟨f1, hok1, hposition⟩
    rw [hok] at hok1
    cases hok1
    exact hposition
  rw [hposition]
  constructor
  case positive =>
    rw [length_packetBytes]
    exact Nat.mul_pos (by decide) (List.length_pos_iff.mpr hfirst.ne_nil)
  case frames => exact ⟨packets.length, length_packetBytes packets⟩
  case inside =>
    rw [List.length_append]
    exact Nat.le_add_right _ _
  case ignores =>
    intro later f hf
    rw [List.take_left] at hf
    exact h.search_of_firstAnswer hsearch hfirst hf
  case needs =>
    intro m f hm hf
    rw [List.take_append_of_le_length (Nat.le_of_lt hm)] at hf
    rw [hsearch]
    exact h.outcome_of_less hfirst hs hm hf.delivers #[]

end Pass
end TransportStream
