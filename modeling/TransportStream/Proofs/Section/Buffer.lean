import TransportStream.Proofs.Section.Units

/-!
# What stays in the buffer

An assembler can be kept as three fields that are set one by one: a flag that
says whether anything is expected, the last counter, and a buffer, which holds
whatever was not cleared from it.  It hands out the same sections, and between
two packets its buffer is empty or holds the beginning of one section only.
-/

namespace TransportStream

structure SectionBuffer where
  started : Bool
  last : Nat
  pending : Bytes
  deriving DecidableEq, Repr

namespace SectionBuffer

def fresh : SectionBuffer :=
  ⟨false, 0, []⟩

def stop (b : SectionBuffer) : SectionBuffer :=
  ⟨false, b.last, b.pending⟩

def clear (b : SectionBuffer) : SectionBuffer :=
  ⟨b.started, b.last, []⟩

def append (b : SectionBuffer) (counter : Nat) (bytes : Bytes) :
    SectionBuffer :=
  ⟨true, counter, b.pending ++ bytes⟩

def drain (b : SectionBuffer) : SectionBuffer × List Bytes :=
  match h : front b.pending with
  | .stuffing => (b.stop.clear, [])
  | .incomplete => (b, [])
  | .complete size =>
      have := size_of_front h
      let later := drain ⟨b.started, b.last, b.pending.drop size⟩
      (later.1, b.pending.take size :: later.2)
termination_by b.pending.length
decreasing_by
  rw [List.length_drop]
  lia

def begin (b : SectionBuffer) (p : Packet) : SectionBuffer × List Bytes :=
  match p.payload with
  | [] => (b, [])
  | pointer :: rest =>
      if rest.length < pointer.toNat then (b.clear.stop, [])
      else (b.clear.append p.counter (rest.drop pointer.toNat)).drain

def resume (b : SectionBuffer) (p : Packet) : SectionBuffer × List Bytes :=
  match p.continuityAfter b.last with
  | .duplicate => (b, [])
  | .next => (b.append p.counter p.payload).drain
  | .gap => (b.stop.clear, [])

def submit (b : SectionBuffer) (p : Packet) : SectionBuffer × List Bytes :=
  if p.transportError then (b, [])
  else if p.unitStart then b.begin p
  else if b.started then b.resume p
  else (b, [])

def feed (b : SectionBuffer) : List Packet -> SectionBuffer × List Bytes
  | [] => (b, [])
  | p :: packets =>
      let (b', sections) := b.submit p
      let (b'', later) := feed b' packets
      (b'', sections ++ later)

theorem feed_cons (b : SectionBuffer) (p : Packet) (packets : List Packet) :
    b.feed (p :: packets) =
      (((b.submit p).1.feed packets).1, (b.submit p).2 ++
        ((b.submit p).1.feed packets).2) := rfl

/-!
## The same assembler
-/

def assembler (b : SectionBuffer) : SectionAssembler :=
  if b.started then .collecting b.last b.pending else .idle

theorem drain_eq (b : SectionBuffer) :
    b.drain =
      ((match (cutSections b.pending).rest with
        | none => ⟨false, b.last, []⟩
        | some rest => ⟨b.started, b.last, rest⟩),
        (cutSections b.pending).sections) := by
  fun_induction drain b with
  | case1 b hfront =>
      rw [cutSections_of_stuffing hfront]
      rfl
  | case2 b hfront => rw [cutSections_of_incomplete hfront]
  | case3 b size hfront hsize later ih =>
      rw [cutSections_of_complete hfront]
      simp only [later, ih]

theorem drain_append (b : SectionBuffer) (counter : Nat) (bytes : Bytes) :
    (b.append counter bytes).drain.map assembler id =
      SectionAssembler.handOut counter (b.pending ++ bytes) := by
  rw [drain_eq, SectionAssembler.handOut]
  dsimp only [append]
  cases (cutSections (b.pending ++ bytes)).rest with
  | none => rfl
  | some rest => rfl

theorem begin_assembler (b : SectionBuffer) (p : Packet) :
    (b.begin p).map assembler id = (b.assembler.begin p).value := by
  unfold begin SectionAssembler.begin
  cases p.payload with
  | nil => rfl
  | cons pointer rest =>
      dsimp only
      split
      · rfl
      · exact drain_append b.clear p.counter (rest.drop pointer.toNat)

theorem resume_assembler {b : SectionBuffer} (h : b.started = true)
    (p : Packet) :
    (b.resume p).map assembler id =
      (SectionAssembler.resume b.last b.pending p).value := by
  unfold resume SectionAssembler.resume
  cases p.continuityAfter b.last with
  | next => exact drain_append b p.counter p.payload
  | duplicate =>
      dsimp only
      rw [Prod.map_apply, assembler, if_pos h]
      rfl
  | gap => rfl

theorem submit_assembler (b : SectionBuffer) (p : Packet) :
    (b.submit p).map assembler id = (b.assembler.submit p).value := by
  unfold submit SectionAssembler.submit
  split
  · rfl
  · split
    · exact begin_assembler b p
    · cases hstarted : b.started with
      | false =>
          rw [if_neg Bool.false_ne_true, Prod.map_apply, assembler, hstarted,
            if_neg Bool.false_ne_true]
          rfl
      | true =>
          rw [if_pos rfl, resume_assembler hstarted, assembler, hstarted,
            if_pos rfl]

theorem feed_assembler (b : SectionBuffer) (packets : List Packet) :
    (b.feed packets).map assembler id = b.assembler.feed packets := by
  induction packets generalizing b with
  | nil => rfl
  | cons p packets ih =>
      rw [feed_cons, SectionAssembler.feed_cons, ← submit_assembler]
      dsimp only [Prod.map_fst, Prod.map_snd]
      rw [← ih]
      rfl

end SectionBuffer

/-!
## Between two packets
-/

def IsUnfinished (bytes : Bytes) : Prop :=
  exists tableId rest, bytes = tableId :: rest ∧ tableId ≠ stuffingByte ∧
    (bytes.length < 3 ∨ exists size, announcedSize? bytes = some size ∧
      bytes.length < size)

theorem front_eq_incomplete_iff {bytes : Bytes} :
    front bytes = .incomplete ↔ bytes = [] ∨ IsUnfinished bytes := by
  constructor
  · intro h
    cases bytes with
    | nil => exact .inl rfl
    | cons tableId rest =>
        rw [front] at h
        split at h
        · cases h
        · rename_i hstuffing
          refine .inr ⟨tableId, rest, rfl, hstuffing, ?_⟩
          cases hsize : announcedSize? (tableId :: rest) with
          | none => exact .inl (announcedSize?_eq_none_iff.mp hsize)
          | some size =>
              rw [hsize] at h
              dsimp only at h
              split at h
              · rename_i hshort
                exact .inr ⟨size, rfl, hshort⟩
              · cases h
  · rintro (rfl | ⟨tableId, rest, rfl, hstuffing,
      hshort | ⟨size, hsize, hshort⟩⟩)
    · rfl
    · rw [front, if_neg hstuffing, announcedSize?_eq_none_iff.mpr hshort]
    · rw [front, if_neg hstuffing, hsize]
      exact if_pos hshort

theorem length_of_unfinished {bytes : Bytes} (h : IsUnfinished bytes) :
    bytes.length ≤ 4097 := by
  rcases h with ⟨tableId, rest, rfl, _, hshort | ⟨size, hsize, hlength⟩⟩
  · lia
  · have hle := le_of_announcedSize? hsize
    lia

theorem front_of_rest {bytes rest : Bytes}
    (h : (cutSections bytes).rest = some rest) :
    front rest = .incomplete := by
  fun_induction cutSections bytes with
  | case1 bytes hfront => cases h
  | case2 bytes hfront =>
      cases h
      exact hfront
  | case3 bytes size hfront hsize later ih => exact ih h

namespace SectionBuffer

/-- Nothing is in the buffer while nothing is expected, and the beginning of one
section at most while something is. -/
def WellKept (b : SectionBuffer) : Prop :=
  (b.started = false ∧ b.pending = []) ∨
    (b.started = true ∧ (b.pending = [] ∨ IsUnfinished b.pending))

theorem wellKept_fresh : fresh.WellKept :=
  .inl ⟨rfl, rfl⟩

theorem wellKept_drain {b : SectionBuffer} (h : b.started = true) :
    b.drain.1.WellKept := by
  rw [drain_eq]
  cases hrest : (cutSections b.pending).rest with
  | none => exact .inl ⟨rfl, rfl⟩
  | some rest =>
      exact .inr ⟨h, front_eq_incomplete_iff.mp (front_of_rest hrest)⟩

theorem wellKept_submit {b : SectionBuffer} (h : b.WellKept) (p : Packet) :
    (b.submit p).1.WellKept := by
  unfold submit
  split
  · exact h
  · split
    · unfold begin
      split
      · exact h
      · split
        · exact .inl ⟨rfl, rfl⟩
        · exact wellKept_drain rfl
    · split
      · unfold resume
        split
        · exact h
        · exact wellKept_drain rfl
        · exact .inl ⟨rfl, rfl⟩
      · exact h

theorem wellKept_feed {b : SectionBuffer} (h : b.WellKept)
    (packets : List Packet) :
    (b.feed packets).1.WellKept := by
  induction packets generalizing b with
  | nil => exact h
  | cons p packets ih => exact ih (wellKept_submit h p)

theorem front_of_wellKept {b : SectionBuffer} (h : b.WellKept) :
    front b.pending = .incomplete := by
  rcases h with ⟨_, hempty⟩ | ⟨_, hpending⟩
  · rw [hempty]
    rfl
  · exact front_eq_incomplete_iff.mpr hpending

/-- Whatever packets were submitted, the three fields stand for the state of the
assembler and have handed out the same sections.  While nothing is expected the
buffer is empty; otherwise it is empty or holds the beginning of one section,
which is never more than 4097 bytes.  No complete section is left in it. -/
theorem buffer_holds_no_whole_section (packets : List Packet) :
    exists b sections, fresh.feed packets = (b, sections) ∧
      SectionAssembler.idle.feed packets = (b.assembler, sections) ∧
      b.WellKept ∧ b.pending.length ≤ 4097 ∧ wholeSections b.pending = [] := by
  have hkept := wellKept_feed wellKept_fresh packets
  have hsame := feed_assembler fresh packets
  refine ⟨_, _, rfl, hsame.symm, hkept, ?_, ?_⟩
  · rcases hkept with ⟨_, hempty⟩ | ⟨_, hempty | hunfinished⟩
    · rw [hempty]
      decide
    · rw [hempty]
      decide
    · exact length_of_unfinished hunfinished
  · exact wholeSections_of_incomplete (front_of_wellKept hkept)

end SectionBuffer
end TransportStream
