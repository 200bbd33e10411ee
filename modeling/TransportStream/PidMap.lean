import TransportStream.Packet

/-!
# Values kept for packet identifiers
-/

namespace TransportStream

/-- At most one value for each identifier, in the order in which the identifiers
were added. -/
structure PidMap (α : Type) where
  entries : List (Nat × α)

namespace PidMap

variable {α : Type}

def empty : PidMap α :=
  ⟨[]⟩

instance : EmptyCollection (PidMap α) := ⟨empty⟩

def find (p : Nat) : List (Nat × α) -> Option α
  | [] => none
  | (q, a) :: rest => if q = p then some a else find p rest

def get? (m : PidMap α) (p : Nat) : Option α :=
  find p m.entries

def contains (m : PidMap α) (p : Nat) : Bool :=
  (m.get? p).isSome

def putEntry (p : Nat) (a : α) : List (Nat × α) -> List (Nat × α)
  | [] => [(p, a)]
  | (q, b) :: rest =>
      if q = p then (q, a) :: rest else (q, b) :: putEntry p a rest

def put (m : PidMap α) (p : Nat) (a : α) : PidMap α :=
  ⟨putEntry p a m.entries⟩

theorem find_putEntry (p q : Nat) (a : α) (entries : List (Nat × α)) :
    find q (putEntry p a entries) =
      if q = p then some a else find q entries := by
  induction entries with
  | nil => simp [putEntry, find, eq_comm]
  | cons e rest ih =>
      obtain ⟨r, b⟩ := e
      unfold putEntry
      by_cases hr : r = p
      · by_cases hq : q = p
        · simp [find, hr, hq]
        · simp [find, hr, hq, Ne.symm hq]
      · by_cases hq : r = q
        · have hp : q ≠ p := hq ▸ hr
          simp [find, hq, hp]
        · simp [find, hr, hq, ih]

theorem get?_put (m : PidMap α) (p q : Nat) (a : α) :
    (m.put p a).get? q = if q = p then some a else m.get? q :=
  find_putEntry p q a m.entries

theorem contains_put (m : PidMap α) (p q : Nat) (a : α) :
    (m.put p a).contains q = true ↔ q = p ∨ m.contains q = true := by
  rw [contains, contains, get?_put]
  by_cases hq : q = p
  · rw [if_pos hq]
    exact iff_of_true rfl (.inl hq)
  · rw [if_neg hq, or_iff_right hq]

end PidMap
end TransportStream
