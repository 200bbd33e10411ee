import TransportStream.Section

/-!
# Cutting sections out of growing bytes

An assembler cuts complete sections off as soon as they are there, and goes on
with the rest when more bytes arrive.  This module shows that the moment of
cutting does not matter: what is at the front of a byte string stays there when
bytes are added behind it, so that cutting early and cutting late give the same
sections.
-/

namespace TransportStream

/-!
## A greedy reading

The reading below states in one place when cutting stops: before stuffing,
before a string too short to announce a size, and before a section that is not
all there.
-/

/-- The whole sections at the front of a byte string, read greedily. -/
def wholeSections : Bytes -> List Bytes
  | tableId :: hi :: lo :: rest =>
      if tableId = stuffingByte ∨ rest.length < lengthField hi lo then []
      else
        (tableId :: hi :: lo :: rest.take (lengthField hi lo)) ::
          wholeSections (rest.drop (lengthField hi lo))
  | _ => []
termination_by bytes => bytes.length
decreasing_by
  simp only [List.length_drop, List.length_cons]
  lia

theorem front_long (tableId hi lo : UInt8) (rest : Bytes) :
    front (tableId :: hi :: lo :: rest) =
      if tableId = stuffingByte then .stuffing
      else if rest.length < lengthField hi lo then .incomplete
      else .complete (lengthField hi lo + 3) := by
  simp only [front, announcedSize?, List.length_cons, Nat.add_lt_add_iff_right]

theorem wholeSections_of_stuffing {bytes : Bytes}
    (h : front bytes = .stuffing) :
    wholeSections bytes = [] := by
  rcases bytes with _ | ⟨tableId, _ | ⟨hi, _ | ⟨lo, rest⟩⟩⟩
  · simp [wholeSections]
  · simp [wholeSections]
  · simp [wholeSections]
  · rw [front_long] at h
    by_cases hstuff : tableId = stuffingByte
    · rw [wholeSections, if_pos (Or.inl hstuff)]
    · rw [if_neg hstuff] at h
      split at h <;> cases h

theorem wholeSections_of_incomplete {bytes : Bytes}
    (h : front bytes = .incomplete) :
    wholeSections bytes = [] := by
  rcases bytes with _ | ⟨tableId, _ | ⟨hi, _ | ⟨lo, rest⟩⟩⟩
  · simp [wholeSections]
  · simp [wholeSections]
  · simp [wholeSections]
  · rw [front_long] at h
    by_cases hshort : rest.length < lengthField hi lo
    · rw [wholeSections, if_pos (Or.inr hshort)]
    · rw [if_neg hshort] at h
      split at h <;> cases h

theorem wholeSections_of_complete {bytes : Bytes} {size : Nat}
    (h : front bytes = .complete size) :
    wholeSections bytes =
      bytes.take size :: wholeSections (bytes.drop size) := by
  have hsize := size_of_front h
  rcases bytes with _ | ⟨tableId, _ | ⟨hi, _ | ⟨lo, rest⟩⟩⟩
  · simp only [List.length_nil] at hsize
    lia
  · simp only [List.length_cons, List.length_nil] at hsize
    lia
  · simp only [List.length_cons, List.length_nil] at hsize
    lia
  · rw [front_long] at h
    by_cases hstuff : tableId = stuffingByte
    · rw [if_pos hstuff] at h
      cases h
    · rw [if_neg hstuff] at h
      by_cases hshort : rest.length < lengthField hi lo
      · rw [if_pos hshort] at h
        cases h
      · rw [if_neg hshort] at h
        cases h
        rw [wholeSections, if_neg (fun hstop => hstop.elim hstuff hshort)]
        rfl

theorem front_of_stuffing {bytes : Bytes}
    (h : bytes.head? = some stuffingByte) :
    front bytes = .stuffing := by
  cases bytes with
  | nil => cases h
  | cons tableId rest =>
      rw [List.head?_cons, Option.some.injEq] at h
      rw [front, if_pos h]

theorem wholeSections_of_head {bytes : Bytes}
    (h : bytes.head? = some stuffingByte) :
    wholeSections bytes = [] :=
  wholeSections_of_stuffing (front_of_stuffing h)

theorem wholeSections_replicate_append (n : Nat) (more : Bytes) :
    wholeSections (List.replicate n stuffingByte ++ more) =
      if n = 0 then wholeSections more else [] := by
  cases n with
  | zero => rfl
  | succ n => exact wholeSections_of_head rfl

theorem sections_cutSections (bytes : Bytes) :
    (cutSections bytes).sections = wholeSections bytes := by
  fun_induction cutSections bytes with
  | case1 bytes hfront => exact (wholeSections_of_stuffing hfront).symm
  | case2 bytes hfront => exact (wholeSections_of_incomplete hfront).symm
  | case3 bytes size hfront hsize later ih =>
      rw [wholeSections_of_complete hfront, ← ih]

/-!
## The announced size
-/

theorem announcedSize?_eq_none_iff {bytes : Bytes} :
    announcedSize? bytes = none ↔ bytes.length < 3 := by
  rcases bytes with _ | ⟨tableId, _ | ⟨hi, _ | ⟨lo, rest⟩⟩⟩
  · simp [announcedSize?]
  · simp [announcedSize?]
  · simp [announcedSize?]
  · simp [announcedSize?]

theorem le_of_announcedSize? {bytes : Bytes} {size : Nat}
    (h : announcedSize? bytes = some size) :
    size ≤ 4098 := by
  rcases bytes with _ | ⟨tableId, _ | ⟨hi, _ | ⟨lo, rest⟩⟩⟩
  · cases h
  · cases h
  · cases h
  · have hlt := lengthField_lt hi lo
    cases h
    lia

/-!
## Adding bytes behind

Stuffing and complete sections at the front are recognised from bytes that are
there already.
-/

theorem announcedSize?_append {bytes : Bytes} {size : Nat}
    (h : announcedSize? bytes = some size) (more : Bytes) :
    announcedSize? (bytes ++ more) = some size := by
  rcases bytes with _ | ⟨_, _ | ⟨_, _ | ⟨_, rest⟩⟩⟩
  · cases h
  · cases h
  · cases h
  · exact h

theorem front_append_of_stuffing {bytes : Bytes} (h : front bytes = .stuffing)
    (more : Bytes) : front (bytes ++ more) = .stuffing := by
  rcases bytes with _ | ⟨tableId, rest⟩
  · cases h
  · by_cases hstuff : tableId = stuffingByte
    · rw [List.cons_append, front, if_pos hstuff]
    · rw [front, if_neg hstuff] at h
      split at h
      · cases h
      · split at h <;> cases h

theorem front_append_of_complete {bytes : Bytes} {size : Nat}
    (h : front bytes = .complete size) (more : Bytes) :
    front (bytes ++ more) = .complete size := by
  rcases bytes with _ | ⟨tableId, rest⟩
  · cases h
  · by_cases hstuff : tableId = stuffingByte
    · rw [front, if_pos hstuff] at h
      cases h
    · rw [front, if_neg hstuff] at h
      cases hannounced : announcedSize? (tableId :: rest) with
      | none =>
          rw [hannounced] at h
          cases h
      | some announced =>
          simp only [hannounced] at h
          by_cases hshort : (tableId :: rest).length < announced
          · rw [if_pos hshort] at h
            cases h
          · rw [if_neg hshort] at h
            cases h
            have hlonger : ¬ (tableId :: rest ++ more).length < size := by
              rw [List.length_append]
              lia
            have happend := announcedSize?_append hannounced more
            rw [List.cons_append] at hlonger happend ⊢
            simp only [front, if_neg hstuff, happend, if_neg hlonger]

/-- Cutting when more bytes have arrived gives the sections cut before and
those cut from what was left of them. -/
theorem cutSections_append (bytes more : Bytes) :
    cutSections (bytes ++ more) =
      match (cutSections bytes).rest with
      | none => ⟨(cutSections bytes).sections, none⟩
      | some rest =>
          ⟨(cutSections bytes).sections ++
            (cutSections (rest ++ more)).sections,
            (cutSections (rest ++ more)).rest⟩ := by
  fun_induction cutSections bytes with
  | case1 bytes hfront =>
      exact cutSections_of_stuffing (front_append_of_stuffing hfront more)
  | case2 bytes hfront => rfl
  | case3 bytes size hfront hsize later ih =>
      rw [cutSections_of_complete (front_append_of_complete hfront more),
        List.take_append_of_le_length hsize.2,
        List.drop_append_of_le_length hsize.2, ih]
      cases hrest : later.rest with
      | none => rfl
      | some rest => rfl

theorem wholeSections_append_of_rest_none {bytes : Bytes}
    (h : (cutSections bytes).rest = none) (more : Bytes) :
    wholeSections (bytes ++ more) = wholeSections bytes := by
  rw [← sections_cutSections, ← sections_cutSections, cutSections_append, h]

theorem wholeSections_append_of_rest_some {bytes rest : Bytes}
    (h : (cutSections bytes).rest = some rest) (more : Bytes) :
    wholeSections (bytes ++ more) =
      wholeSections bytes ++ wholeSections (rest ++ more) := by
  rw [← sections_cutSections, ← sections_cutSections bytes,
    ← sections_cutSections (rest ++ more), cutSections_append, h]

end TransportStream
