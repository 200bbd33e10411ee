import TransportStream.Proofs.Pat.Runs

/-!
# Runs that carry a section

Whether a run is reduced can be read off its joined payloads: the pointer at
their front, the length field behind the place that it leads to, and the number
of bytes that are there.  What is laid over the run depends on the layout of the
section alone, and makes another run that carries a section at the same place.
-/

namespace TransportStream
namespace Pat

/-!
## The section that the pointer leads to
-/

def target (data : Bytes) : Nat :=
  1 + (data.headD 0).toNat

def lengthAt (data : Bytes) (pos : Nat) : Nat :=
  lengthField (data.getD (pos + 1) 0) (data.getD (pos + 2) 0)

def sectionAt (data : Bytes) : Bytes :=
  (data.drop (target data)).take (lengthAt data (target data) + 3)

def sectionStop (data : Bytes) : Nat :=
  target data + (sectionAt data).length

/-- A run that begins with a start packet whose pointer leads into its payload,
to a whole section with room for a header and a checksum. -/
def HoldsSection (run : List Packet) : Prop :=
  exists first later, run = first :: later ∧ first.unitStart = true ∧
    target (joined run) < first.payload.length ∧
    target (joined run) + 3 ≤ (joined run).length ∧
    9 ≤ lengthAt (joined run) (target (joined run)) ∧
    target (joined run) + 3 + lengthAt (joined run) (target (joined run)) ≤
      (joined run).length

theorem target_append {ahead : Bytes} (h : target ahead = ahead.length)
    (more : Bytes) :
    target (ahead ++ more) = ahead.length := by
  cases ahead with
  | nil => cases h
  | cons pointer filler => exact h

theorem target_take {data : Bytes} (h : target data ≤ data.length) :
    target (data.take (target data)) = (data.take (target data)).length := by
  rw [List.length_take, Nat.min_eq_left h]
  cases data with
  | nil => rfl
  | cons pointer rest =>
      have hpos : target (pointer :: rest) = pointer.toNat + 1 :=
        Nat.add_comm 1 _
      rw [hpos, List.take_succ_cons]
      exact hpos

theorem lengthAt_eq (data : Bytes) (pos : Nat) :
    lengthAt data pos = lengthAt (data.drop pos) 0 := by
  simp only [lengthAt, List.getD_eq_getElem?_getD, List.getElem?_drop,
    Nat.zero_add]

theorem announcedSize?_drop {data : Bytes} {pos : Nat}
    (h : pos + 3 ≤ data.length) :
    announcedSize? (data.drop pos) = some (lengthAt data pos + 3) := by
  have hlength : (data.drop pos).length = data.length - pos := List.length_drop
  rw [lengthAt_eq]
  generalize data.drop pos = bytes at hlength
  rcases bytes with _ | ⟨tableId, _ | ⟨hi, _ | ⟨lo, rest⟩⟩⟩
  case cons.cons.cons => rfl
  all_goals
    simp only [List.length_cons, List.length_nil] at hlength
    lia

/-!
## Runs and layouts
-/

/-- A run that begins with a start packet and whose joined payloads are a
pointer with what it skips, a section that begins in the first payload, and
other bytes. -/
structure Carries (run : List Packet) (ahead : Bytes) (l : Layout)
    (behind : Bytes) : Prop where
  starts : exists first later, run = first :: later ∧ first.unitStart = true ∧
    ahead.length < first.payload.length
  points : target ahead = ahead.length
  joined_eq : joined run = ahead ++ (l.bytes ++ behind)

section Reading

variable {run : List Packet} {ahead behind : Bytes} {l : Layout}

theorem target_of_carries (h : Carries run ahead l behind) :
    target (joined run) = ahead.length := by
  rw [h.joined_eq, target_append h.points]

theorem lengthAt_of_carries (h : Carries run ahead l behind) :
    lengthAt (joined run) (target (joined run)) + 3 = l.bytes.length := by
  rw [target_of_carries h, h.joined_eq, lengthAt_eq, List.drop_left]
  exact Option.some.inj l.announcedSize?_bytes

theorem sectionAt_of_carries (h : Carries run ahead l behind) :
    sectionAt (joined run) = l.bytes := by
  rw [sectionAt, lengthAt_of_carries h, target_of_carries h, h.joined_eq,
    List.drop_left, List.take_left]

theorem sectionStop_of_carries (h : Carries run ahead l behind) :
    sectionStop (joined run) = (ahead ++ l.bytes).length := by
  rw [sectionStop, target_of_carries h, sectionAt_of_carries h,
    List.length_append]

theorem holdsSection_of_carries (h : Carries run ahead l behind) :
    HoldsSection run := by
  rcases h.starts with ⟨first, later, hrun, hstart, hinside⟩
  have htarget := target_of_carries h
  have hlengthAt := lengthAt_of_carries h
  have hlong := l.length_bytes
  have hlength := congrArg List.length h.joined_eq
  rw [List.length_append, List.length_append] at hlength
  exact ⟨first, later, hrun, hstart, by lia, by lia, by lia, by lia⟩

theorem spanOf_of_carries (h : Carries run ahead l behind) :
    spanOf run = .complete ahead.length (ahead.length + l.bytes.length) := by
  rcases h.starts with ⟨first, later, rfl, _, hinside⟩
  have hjoined := h.joined_eq
  have hpoints := h.points
  cases ahead with
  | nil => cases hpoints
  | cons pointer filler =>
      have hpointer : 1 + pointer.toNat = (pointer :: filler).length := hpoints
      have hdrop :
          (pointer :: (filler ++ (l.bytes ++ behind))).drop
          (1 + pointer.toNat) =
          l.bytes ++ behind := by
        rw [hpointer]
        exact List.drop_left
      rw [spanOf, hjoined, ← hpointer]
      apply locate_of_isSection _ l.isSection_bytes hdrop
      rw [hpointer]
      exact hinside

theorem carries_of_spanOf {first : Packet} {later : List Packet}
    {start stop : Nat} (hstart : first.unitStart = true)
    (hspan : spanOf (first :: later) = .complete start stop) :
    exists ahead l behind, Carries (first :: later) ahead l behind := by
  rcases spanOf_eq_complete hspan with
    ⟨pointer, tail, old, behind, hpayload, hhead, hpointer, hold, _, hdrop⟩
  rcases Layout.exists_of_isSection hold with ⟨l, rfl⟩
  have hjoined :
      joined (first :: later) = pointer :: (tail ++ joined later) := by
    rw [joined_cons, hpayload]
    rfl
  have htarget : target (joined (first :: later)) = start := by
    rw [hjoined, hhead]
    rfl
  have hlength : start ≤ (joined (first :: later)).length := by
    rw [hjoined, hhead, List.length_cons, List.length_append]
    lia
  have hahead := target_take (htarget.symm ▸ hlength)
  rw [htarget] at hahead
  refine ⟨(joined (first :: later)).take start, l, behind,
    ⟨first, later, rfl, hstart, ?_⟩, hahead, ?_⟩
  · rw [List.length_take, Nat.min_eq_left hlength, hpayload, hhead,
      List.length_cons]
    lia
  · rw [← hdrop, List.take_append_drop]

theorem spanOf_of_holdsSection (h : HoldsSection run) :
    exists start stop, spanOf run = .complete start stop := by
  rcases h with ⟨first, later, rfl, _, hinside, hheader, hlong, hwhole⟩
  have hsize := announcedSize?_drop hheader
  unfold spanOf
  dsimp only
  cases hdata : joined (first :: later) with
  | nil =>
      rw [hdata, List.length_nil] at hheader
      lia
  | cons pointer rest =>
      rw [hdata] at hinside hlong hwhole hsize
      have htarget : target (pointer :: rest) = 1 + pointer.toNat := rfl
      rw [htarget] at hinside hlong hwhole hsize
      refine ⟨1 + pointer.toNat,
        1 + pointer.toNat +
          (lengthAt (pointer :: rest) (1 + pointer.toNat) + 3), ?_⟩
      unfold Span.locate
      dsimp only
      rw [if_neg (Nat.not_le.mpr hinside), hsize]
      dsimp only
      rw [if_neg, if_neg]
      · lia
      · simp only [sectionHeaderSize, trailerSize]
        lia

theorem holdsSection_iff :
    HoldsSection run ↔ exists ahead l behind, Carries run ahead l behind := by
  constructor
  · intro h
    rcases spanOf_of_holdsSection h with ⟨start, stop, hspan⟩
    rcases h with ⟨first, later, rfl, hstart, _⟩
    exact carries_of_spanOf hstart hspan
  · rintro ⟨ahead, l, behind, h⟩
    exact holdsSection_of_carries h

end Reading

/-!
## Reducing a run
-/

section Reducing

variable {pmtPids : PidSet} {run reduced : List Packet} {ahead behind : Bytes}
  {l : Layout}

def reducedBytes (pmtPids : PidSet) (ahead : Bytes) (l : Layout)
    (behind : Bytes) : Bytes :=
  ahead ++ ((l.reduce pmtPids).bytes ++
    List.replicate (l.bytes.length + behind.length -
      (l.reduce pmtPids).bytes.length) stuffingByte)

theorem length_reducedBytes (h : Carries run ahead l behind)
    (pmtPids : PidSet) :
    (reducedBytes pmtPids ahead l behind).length = (joined run).length := by
  have hle := l.length_reduce_le pmtPids
  rw [h.joined_eq]
  simp only [reducedBytes, List.length_append, List.length_replicate]
  lia

theorem reduce?_of_carries (h : Carries run ahead l behind) (pmtPids : PidSet) :
    (reduce? pmtPids run).value =
      some (layOver run (reducedBytes pmtPids ahead l behind)) := by
  have hspan := spanOf_of_carries h
  have hbytes :
      replaceSection (joined run) ahead.length (reduceSection pmtPids l.bytes) =
      reducedBytes pmtPids ahead l behind := by
    rw [replaceSection, h.joined_eq, List.take_left, Layout.reduceSection_bytes,
      List.length_append, Nat.add_sub_cancel_left, List.length_append,
      List.append_assoc]
    rfl
  have hold : ((joined run).drop ahead.length).take
      (ahead.length + l.bytes.length - ahead.length) = l.bytes := by
    rw [h.joined_eq, List.drop_left, Nat.add_sub_cancel_left, List.take_left]
  have hvalue :
      (reduceSpan pmtPids run ahead.length
      (ahead.length + l.bytes.length)).value =
      layOver run (reducedBytes pmtPids ahead l behind) := by
    rw [reduceSpan, hold]
    dsimp only
    rw [hbytes]
  rcases h.starts with ⟨first, later, rfl, hstart, _⟩
  rw [← hvalue]
  unfold reduce?
  dsimp only
  rw [hstart, hspan]
  rfl

theorem exists_carries_of_reduce?
    (h : (reduce? pmtPids run).value = some reduced) :
    exists ahead l behind, Carries run ahead l behind ∧
      reduced = layOver run (reducedBytes pmtPids ahead l behind) := by
  have hcarries : exists ahead l behind, Carries run ahead l behind := by
    cases run with
    | nil => cases h
    | cons first later =>
        unfold reduce? at h
        dsimp only at h
        cases hstart : first.unitStart with
        | false =>
            rw [hstart] at h
            cases h
        | true =>
            cases hspan : spanOf (first :: later) with
            | complete start stop => exact carries_of_spanOf hstart hspan
            | unfinished =>
                rw [hstart, hspan] at h
                cases h
            | invalid =>
                rw [hstart, hspan] at h
                cases h
  rcases hcarries with ⟨ahead, l, behind, hcarries⟩
  rw [reduce?_of_carries hcarries, Option.some.injEq] at h
  exact ⟨ahead, l, behind, hcarries, h.symm⟩

theorem isSome_reduce?_iff (pmtPids : PidSet) (run : List Packet) :
    (reduce? pmtPids run).value.isSome = true ↔ HoldsSection run := by
  rw [Option.isSome_iff_exists, holdsSection_iff]
  constructor
  · rintro ⟨reduced, h⟩
    rcases exists_carries_of_reduce? h with ⟨ahead, l, behind, hcarries, _⟩
    exact ⟨ahead, l, behind, hcarries⟩
  · rintro ⟨ahead, l, behind, hcarries⟩
    exact ⟨_, reduce?_of_carries hcarries pmtPids⟩

theorem carries_layOver (h : Carries run ahead l behind) (pmtPids : PidSet) :
    Carries (layOver run (reducedBytes pmtPids ahead l behind)) ahead
      (l.reduce pmtPids)
      (List.replicate (l.bytes.length + behind.length -
        (l.reduce pmtPids).bytes.length) stuffingByte) where
  starts := by
    rcases h.starts with ⟨first, later, rfl, hstart, hinside⟩
    refine ⟨_, _, layOver_cons first later _, hstart, ?_⟩
    rw [Packet.length_payload_writePayload]
    exact hinside
  points := h.points
  joined_eq := joined_layOver (length_reducedBytes h pmtPids)

end Reducing

end Pat
end TransportStream
