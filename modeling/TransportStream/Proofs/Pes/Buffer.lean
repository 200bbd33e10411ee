import TransportStream.Proofs.Pes.Events

/-!
# What stays in the buffer of an elementary stream

An assembler can be kept as three fields that are set one by one: the stage of
the unit, the last counter, and a buffer, which holds whatever was not cleared
from it.  It hands out the same events, and between two packets its buffer is
empty or holds the beginning of one header, which may still become complete.
-/

namespace TransportStream
namespace Pes

inductive Stage where
  | idle
  | opening
  | streaming
  deriving DecidableEq, Repr

structure Buffer where
  stage : Stage
  last : Nat
  pending : Bytes
  deriving DecidableEq, Repr

namespace Buffer

def fresh : Buffer :=
  ⟨.idle, 0, []⟩

def enter (b : Buffer) (stage : Stage) : Buffer :=
  ⟨stage, b.last, b.pending⟩

def accept (b : Buffer) (counter : Nat) : Buffer :=
  ⟨b.stage, counter, b.pending⟩

def clear (b : Buffer) : Buffer :=
  ⟨b.stage, b.last, []⟩

def append (b : Buffer) (bytes : Bytes) : Buffer :=
  ⟨b.stage, b.last, b.pending ++ bytes⟩

def tryHeader (b : Buffer) : Buffer × List Event :=
  match Header.size? b.pending with
  | none => (b, [])
  | some size =>
      if !Header.hasStartCode b.pending then ((b.enter .idle).clear, [])
      else if b.pending.length < size then (b, [])
      else
        match Header.parse (b.pending.take size) with
        | .ok header =>
            ((b.enter .streaming).clear, .header header ::
              dataEvents (b.pending.drop size))
        | .error _ => ((b.enter .idle).clear, [])

def begin (b : Buffer) (p : Packet) : Buffer × List Event :=
  (((b.clear.append p.payload).enter .opening).accept p.counter).tryHeader

def extend (b : Buffer) (payload : Bytes) : Buffer × List Event :=
  match b.stage with
  | .idle => (b, [])
  | .opening => (b.append payload).tryHeader
  | .streaming => (b, dataEvents payload)

def resume (b : Buffer) (p : Packet) : Buffer × List Event :=
  match p.continuityAfter b.last with
  | .duplicate => (b, [])
  | .next => (b.accept p.counter).extend p.payload
  | .gap => ((b.enter .idle).clear, [])

def submit (b : Buffer) (p : Packet) : Buffer × List Event :=
  if p.transportError then (b, [])
  else if p.unitStart then b.begin p
  else if b.stage = .idle then (b, [])
  else b.resume p

def feed (b : Buffer) : List Packet -> Buffer × List Event
  | [] => (b, [])
  | p :: packets =>
      let (b', events) := b.submit p
      let (b'', later) := feed b' packets
      (b'', events ++ later)

theorem feed_cons (b : Buffer) (p : Packet) (packets : List Packet) :
    b.feed (p :: packets) =
      (((b.submit p).1.feed packets).1, (b.submit p).2 ++
        ((b.submit p).1.feed packets).2) := rfl

/-!
## The same assembler
-/

def assembler (b : Buffer) : Assembler :=
  match b.stage with
  | .idle => .idle
  | .opening => .collecting b.last b.pending
  | .streaming => .streaming b.last

/-- Looking for a header leaves the bytes where they are only if the assembler
keeps them. -/
theorem tryHeader_eq (b : Buffer) (pid : Nat) :
    b.tryHeader =
      match (Assembler.tryHeader pid b.last b.pending).value with
      | (.idle, events) => ((b.enter .idle).clear, events)
      | (.collecting _ _, events) => (b, events)
      | (.streaming _, events) => ((b.enter .streaming).clear, events) := by
  unfold tryHeader Assembler.tryHeader
  cases Header.size? b.pending with
  | none => rfl
  | some size =>
      dsimp only
      cases Header.hasStartCode b.pending with
      | false => rfl
      | true =>
          have hcode : ¬ (!true) = true := by decide
          rw [if_neg hcode, if_neg hcode]
          by_cases hshort : b.pending.length < size
          · rw [if_pos hshort, if_pos hshort]
            rfl
          · rw [if_neg hshort, if_neg hshort]
            simp only [Header.read, Logged.value_bind]
            cases Header.parse (b.pending.take size) with
            | ok header => rfl
            | error e => rfl

theorem tryHeader_assembler {b : Buffer} (h : b.stage = .opening) (pid : Nat) :
    b.tryHeader.map assembler id =
      (Assembler.tryHeader pid b.last b.pending).value := by
  rw [b.tryHeader_eq pid]
  rcases Pes.tryHeader_cases pid b.last b.pending with
    ⟨_, hvalue⟩ | ⟨_, hvalue⟩ | ⟨_, _, _, _, hvalue⟩
  · rw [hvalue, Prod.map_apply, assembler, h]
    rfl
  · rw [hvalue]
    rfl
  · rw [hvalue]
    rfl

theorem begin_assembler (b : Buffer) (p : Packet) :
    (b.begin p).map assembler id =
      (Assembler.tryHeader p.pid p.counter p.payload).value :=
  tryHeader_assembler rfl p.pid

theorem resume_of_opening (last : Nat) (pending : Bytes) (p : Packet) :
    (resume ⟨.opening, last, pending⟩ p).map assembler id =
      (Assembler.resume (.collecting last pending) last p
        (Assembler.tryHeader p.pid p.counter
          (pending ++ p.payload))).value := by
  unfold resume Assembler.resume
  cases p.continuityAfter last with
  | duplicate => rfl
  | next =>
      exact tryHeader_assembler
        (b := ⟨.opening, p.counter, pending ++ p.payload⟩) rfl p.pid
  | gap => rfl

theorem resume_of_streaming (last : Nat) (pending : Bytes) (p : Packet) :
    (resume ⟨.streaming, last, pending⟩ p).map assembler id =
      (Assembler.resume (.streaming last) last p
        (pure (.streaming p.counter, dataEvents p.payload))).value := by
  unfold resume Assembler.resume
  cases p.continuityAfter last with
  | duplicate => rfl
  | next => rfl
  | gap => rfl

theorem submit_assembler (b : Buffer) (p : Packet) :
    (b.submit p).map assembler id = (b.assembler.submit p).value := by
  unfold submit Assembler.submit
  split
  · rfl
  · split
    · exact b.begin_assembler p
    · rcases b with ⟨stage, last, pending⟩
      cases stage with
      | idle => rfl
      | opening => exact resume_of_opening last pending p
      | streaming => exact resume_of_streaming last pending p

theorem feed_assembler (b : Buffer) (packets : List Packet) :
    (b.feed packets).map assembler id = b.assembler.feed packets := by
  induction packets generalizing b with
  | nil => rfl
  | cons p packets ih =>
      rw [feed_cons, Assembler.feed_cons, ← submit_assembler]
      dsimp only [Prod.map_fst, Prod.map_snd]
      rw [← ih]
      rfl

/-!
## Between two packets
-/

/-- Nothing is in the buffer before a unit and behind its header; in between it
holds less than the fixed part of a header, or the start code and less than the
header announces. -/
def WellKept (b : Buffer) : Prop :=
  match b.stage with
  | .idle => b.pending = []
  | .opening =>
      b.pending.length < 9 ∨
        exists length, b.pending[8]? = some length ∧
          b.pending.take 3 = [0x00, 0x00, 0x01] ∧
          b.pending.length < 9 + length.toNat
  | .streaming => b.pending = []

end Buffer

theorem awaitsHeader_iff {bytes : Bytes} :
    AwaitsHeader bytes ↔
      bytes.length < 9 ∨
        exists length,
          bytes[8]? = some length ∧ bytes.take 3 = [0x00, 0x00, 0x01] ∧
          bytes.length < 9 + length.toNat := by
  constructor
  · intro h
    cases hninth : bytes[8]? with
    | none =>
        exact .inl (Nat.lt_succ_of_le (List.getElem?_eq_none_iff.mp hninth))
    | some length =>
        rcases h length hninth with ⟨hcode, hshort⟩
        exact .inr ⟨length, rfl, (hasStartCode_iff bytes).mp hcode, hshort⟩
  · rintro (hfew | ⟨length, hninth, hcode, hshort⟩) length' hninth'
    · exact absurd (lt_length_of_ninth hninth')
        (Nat.not_lt.mpr (Nat.le_of_lt_succ hfew))
    · rw [hninth] at hninth'
      cases hninth'
      exact ⟨(hasStartCode_iff bytes).mpr hcode, hshort⟩

theorem length_of_awaitsHeader {bytes : Bytes} (h : AwaitsHeader bytes) :
    bytes.length ≤ 263 := by
  rcases awaitsHeader_iff.mp h with hfew | ⟨length, _, _, hshort⟩
  · lia
  · have hlt := length.toNat_lt
    lia

theorem not_lacksStartCode_of_awaitsHeader {bytes : Bytes}
    (h : AwaitsHeader bytes) :
    ¬ LacksStartCode bytes := by
  rintro ⟨length, hninth, hcode⟩
  rw [(h length hninth).left] at hcode
  cases hcode

namespace Buffer

theorem wellKept_fresh : fresh.WellKept :=
  rfl

theorem wellKept_tryHeader {b : Buffer} (h : b.stage = .opening) :
    b.tryHeader.1.WellKept := by
  rw [b.tryHeader_eq 0]
  rcases Pes.tryHeader_cases 0 b.last b.pending with
    ⟨hawaits, hvalue⟩ | ⟨_, hvalue⟩ | ⟨_, _, _, _, hvalue⟩
  · rw [hvalue, WellKept, h]
    exact awaitsHeader_iff.mp hawaits
  · rw [hvalue]
    rfl
  · rw [hvalue]
    rfl

theorem wellKept_extend {b : Buffer} (h : b.WellKept) (payload : Bytes) :
    (b.extend payload).1.WellKept := by
  unfold extend
  split
  · exact h
  · rename_i hopening
    exact wellKept_tryHeader hopening
  · exact h

theorem wellKept_submit {b : Buffer} (h : b.WellKept) (p : Packet) :
    (b.submit p).1.WellKept := by
  unfold submit
  split
  · exact h
  · split
    · exact wellKept_tryHeader rfl
    · split
      · exact h
      · unfold resume
        split
        · exact h
        · exact wellKept_extend (b := b.accept p.counter) h p.payload
        · rfl

theorem wellKept_feed {b : Buffer} (h : b.WellKept) (packets : List Packet) :
    (b.feed packets).1.WellKept := by
  induction packets generalizing b with
  | nil => exact h
  | cons p packets ih => exact ih (wellKept_submit h p)

theorem awaitsHeader_of_wellKept {b : Buffer} (h : b.WellKept) :
    AwaitsHeader b.pending := by
  rw [awaitsHeader_iff]
  unfold WellKept at h
  cases hstage : b.stage with
  | idle =>
      rw [hstage] at h
      rw [h]
      exact .inl (by decide)
  | opening =>
      rw [hstage] at h
      exact h
  | streaming =>
      rw [hstage] at h
      rw [h]
      exact .inl (by decide)

/-- Whatever packets were submitted, the three fields stand for the state of the
assembler and have handed out the same events.  Before a unit and behind its
header the buffer is empty; in between it holds the beginning of a header, which
is never more than 263 bytes.  No header is left in it that is complete, and
none that lacks the start code. -/
theorem buffer_holds_no_whole_header (packets : List Packet) :
    exists b events, fresh.feed packets = (b, events) ∧
      Assembler.idle.feed packets = (b.assembler, events) ∧
      b.WellKept ∧ b.pending.length ≤ 263 ∧ headerSize? b.pending = none ∧
      ¬ LacksStartCode b.pending := by
  have hkept := wellKept_feed wellKept_fresh packets
  have hawaits := awaitsHeader_of_wellKept hkept
  exact ⟨_, _, rfl, (feed_assembler fresh packets).symm, hkept,
    length_of_awaitsHeader hawaits, headerSize?_of_awaitsHeader hawaits,
    not_lacksStartCode_of_awaitsHeader hawaits⟩

end Buffer
end Pes
end TransportStream
