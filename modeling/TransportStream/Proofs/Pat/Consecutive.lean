import TransportStream.Proofs.Pat.Runs
import TransportStream.Proofs.Section.Units

/-!
# Consecutive packets

Behind a start packet, packets without error whose counters follow one by one
add all of their payloads to the unit.  Laying other bytes over them changes
nothing about that.
-/

namespace TransportStream

/-- Later packets of a unit without error, each with the counter next to the one
before it. -/
def Consecutive (last : Nat) : List Packet -> Prop
  | [] => True
  | p :: packets =>
      p.unitStart = false ∧ p.transportError = false ∧
      p.counter = (last + 1) % 16 ∧
        Consecutive p.counter packets

def lastCounter (last : Nat) : List Packet -> Nat
  | [] => last
  | p :: packets => lastCounter p.counter packets

theorem consecutive_append_iff {last : Nat} {packets later : List Packet} :
    Consecutive last (packets ++ later) ↔
      Consecutive last packets ∧
        Consecutive (lastCounter last packets) later := by
  induction packets generalizing last with
  | nil => exact (Iff.of_eq (true_and (Consecutive last later))).symm
  | cons p packets ih =>
      constructor
      · intro h
        rcases h with ⟨hstart, herror, hcounter, hrest⟩
        rcases ih.mp hrest with ⟨hpackets, hlater⟩
        exact ⟨⟨hstart, herror, hcounter, hpackets⟩, hlater⟩
      · intro h
        rcases h with ⟨⟨hstart, herror, hcounter, hpackets⟩, hlater⟩
        exact ⟨hstart, herror, hcounter, ih.mpr ⟨hpackets, hlater⟩⟩

theorem isHeard_of_consecutive {last : Nat} {packets : List Packet}
    (h : Consecutive last packets) :
    forall p, p ∈ packets -> p.isHeard = true := by
  induction packets generalizing last with
  | nil =>
      intro p hp
      cases hp
  | cons q packets ih =>
      rcases h with ⟨hstart, herror, _, hrest⟩
      intro p hp
      rcases List.mem_cons.mp hp with rfl | hmem
      · simp [Packet.isHeard, hstart, herror]
      · exact ih hrest p hmem

theorem unitStart_of_consecutive {last : Nat} {packets : List Packet}
    (h : Consecutive last packets) :
    forall p, p ∈ packets -> p.unitStart = false := by
  induction packets generalizing last with
  | nil =>
      intro p hp
      cases hp
  | cons q packets ih =>
      rcases h with ⟨hstart, _, _, hrest⟩
      intro p hp
      rcases List.mem_cons.mp hp with rfl | hmem
      · exact hstart
      · exact ih hrest p hmem

theorem continuation_append {last : Nat} {packets : List Packet}
    (h : Consecutive last packets) (hlast : last < 16) (later : List Packet) :
    continuation last (packets ++ later) =
      Pat.joined packets ++ continuation (lastCounter last packets) later := by
  induction packets generalizing last with
  | nil => rfl
  | cons p packets ih =>
      rcases h with ⟨_, _, hcounter, hrest⟩
      have hother : p.counter ≠ last := by
        rw [hcounter]
        lia
      rw [List.cons_append, continuation, if_neg hother, if_pos hcounter,
        ih hrest p.counter_lt, Pat.joined_cons, List.append_assoc, lastCounter]

/-!
## Laying bytes over consecutive packets
-/

theorem consecutive_layOver {last : Nat} {packets : List Packet}
    (h : Consecutive last packets) (data : Bytes) :
    Consecutive last (Pat.layOver packets data) := by
  induction packets generalizing last data with
  | nil => exact h
  | cons p packets ih =>
      rcases h with ⟨hstart, herror, hcounter, hrest⟩
      exact ⟨hstart, herror, hcounter, ih hrest (data.drop p.payload.length)⟩

theorem lastCounter_layOver (last : Nat) (packets : List Packet)
    (data : Bytes) :
    lastCounter last (Pat.layOver packets data) = lastCounter last packets := by
  induction packets generalizing last data with
  | nil => rfl
  | cons p packets ih => exact ih p.counter (data.drop p.payload.length)

end TransportStream
