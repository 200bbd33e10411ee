import TransportStream.Bits

/-!
# Checked access to byte strings

Patterns, `take` and `drop` are defined for every byte string.  A program that
works on buffers computes positions instead, and every position must be inside
its buffer.  The accesses of such a program are defined here: they end in a
fault where they are out of bounds.  A function written with them is free of
such accesses exactly if it never ends in a fault.
-/

namespace TransportStream

inductive AccessFault where
  | position (position length : Nat)
  | range (start stop length : Nat)
  | copy (target source : Nat)
  | difference (n m : Nat)
  deriving DecidableEq, Repr

/-- A value, or the fault that comes in its place. -/
abbrev Checked := Except AccessFault

namespace Checked

def byteAt (bytes : Bytes) (i : Nat) : Checked UInt8 :=
  match bytes[i]? with
  | some b => .ok b
  | none => .error (.position i bytes.length)

def slice (bytes : Bytes) (start stop : Nat) : Checked Bytes :=
  if start ≤ stop ∧ stop ≤ bytes.length then
    .ok ((bytes.drop start).take (stop - start))
  else .error (.range start stop bytes.length)

def difference (n m : Nat) : Checked Nat :=
  if m ≤ n then .ok (n - m) else .error (.difference n m)

def setByte (bytes : Bytes) (i : Nat) (b : UInt8) : Checked Bytes :=
  if i < bytes.length then .ok (bytes.set i b)
  else .error (.position i bytes.length)

def overwrite (bytes : Bytes) (start stop : Nat) (source : Bytes) :
    Checked Bytes := do
  let target ← slice bytes start stop
  if target.length = source.length then
    pure (bytes.take start ++ (source ++ bytes.drop stop))
  else
    .error (.copy target.length source.length)

def splitAt (bytes : Bytes) (n : Nat) : Checked (Bytes × Bytes) := do
  let front ← slice bytes 0 n
  let back ← slice bytes n bytes.length
  pure (front, back)

def copyWithin (bytes : Bytes) (start stop target : Nat) : Checked Bytes := do
  let source ← slice bytes start stop
  overwrite bytes target (target + source.length) source

def fillFrom (bytes : Bytes) (start : Nat) (b : UInt8) : Checked Bytes := do
  let target ← slice bytes start bytes.length
  overwrite bytes start bytes.length (List.replicate target.length b)

@[simp] theorem ok_bind {α β : Type} (a : α) (f : α -> Checked β) :
    (Except.ok a : Checked α) >>= f = f a := rfl

/-- If no step of a fold ends in a fault, the fold does not.  Its states may be
those of another fold, in another form. -/
theorem foldlM_eq_ok {α σ τ : Type} {stepChecked : τ -> α -> Checked τ}
    {step : σ -> α -> σ} {f : σ -> τ}
    (h : forall s a, stepChecked (f s) a = .ok (f (step s a))) (s : σ)
    (l : List α) :
    l.foldlM stepChecked (f s) = .ok (f (l.foldl step s)) := by
  induction l generalizing s with
  | nil => rfl
  | cons a l ih =>
      rw [List.foldlM_cons, h, ok_bind, ih]
      rfl

/-!
## Accesses within the bounds
-/

theorem byteAt_eq_ok_iff {bytes : Bytes} {i : Nat} {b : UInt8} :
    byteAt bytes i = .ok b ↔ bytes[i]? = some b := by
  unfold byteAt
  cases bytes[i]? with
  | none => simp
  | some _ => simp

theorem exists_byteAt_zero {bytes : Bytes} (h : 0 < bytes.length) :
    exists b, byteAt bytes 0 = .ok b ∧ bytes.head? = some b := by
  rcases List.exists_cons_of_length_pos h with ⟨b, rest, hbytes⟩
  rw [hbytes]
  exact ⟨b, rfl, rfl⟩

theorem slice_eq_ok_iff {bytes part : Bytes} {start stop : Nat} :
    slice bytes start stop = .ok part ↔
      start ≤ stop ∧ stop ≤ bytes.length ∧
        part = (bytes.drop start).take (stop - start) := by
  unfold slice
  constructor
  · intro h
    split at h
    · rename_i hbounds
      exact ⟨hbounds.left, hbounds.right, (Except.ok.inj h).symm⟩
    · cases h
  · rintro ⟨hstart, hstop, hpart⟩
    rw [if_pos ⟨hstart, hstop⟩, hpart]

example : slice [0x47, 0x40] 1 3 = .error (.range 1 3 2) := rfl

theorem slice_of_le {bytes : Bytes} {start stop : Nat} (hstart : start ≤ stop)
    (hstop : stop ≤ bytes.length) :
    slice bytes start stop = .ok ((bytes.drop start).take (stop - start)) :=
  slice_eq_ok_iff.mpr ⟨hstart, hstop, rfl⟩

theorem slice_front {bytes : Bytes} {n : Nat} (h : n ≤ bytes.length) :
    slice bytes 0 n = .ok (bytes.take n) :=
  slice_of_le (Nat.zero_le n) h

theorem slice_back {bytes : Bytes} {n : Nat} (h : n ≤ bytes.length) :
    slice bytes n bytes.length = .ok (bytes.drop n) := by
  rw [slice_of_le h (Nat.le_refl _), ← List.length_drop, List.take_length]

theorem splitAt_of_le {bytes : Bytes} {n : Nat} (h : n ≤ bytes.length) :
    splitAt bytes n = .ok (bytes.take n, bytes.drop n) := by
  rw [splitAt, slice_front h, ok_bind, slice_back h]
  rfl

theorem length_le_of_splitAt {bytes front back : Bytes} {n : Nat}
    (h : splitAt bytes n = .ok (front, back)) : back.length ≤ bytes.length := by
  by_cases hn : n ≤ bytes.length
  · rw [splitAt_of_le hn] at h
    cases h
    rw [List.length_drop]
    exact Nat.sub_le _ _
  · have hfault : slice bytes 0 n = .error (.range 0 n bytes.length) :=
      if_neg (fun hbounds => hn hbounds.right)
    rw [splitAt, hfault] at h
    cases h

theorem difference_of_le {n m : Nat} (h : m ≤ n) :
    difference n m = .ok (n - m) :=
  if_pos h

theorem overwrite_of_le {bytes source : Bytes} {start stop : Nat}
    (hstart : start ≤ stop) (hstop : stop ≤ bytes.length)
    (hlength : source.length = stop - start) :
    overwrite bytes start stop source =
      .ok (bytes.take start ++ (source ++ bytes.drop stop)) := by
  have htarget : ((bytes.drop start).take (stop - start)).length =
      source.length := by
    rw [List.length_take, List.length_drop, hlength]
    omega
  rw [overwrite, slice_of_le hstart hstop, ok_bind, if_pos htarget]
  rfl

/-!
## Accesses behind a known front

What stands at a position is known from the bytes from there on.
-/

theorem byteAt_of_drop {bytes front rest : Bytes} {i : Nat} {b : UInt8}
    (h : bytes.drop i = front ++ b :: rest) :
    byteAt bytes (i + front.length) = .ok b := by
  rw [byteAt_eq_ok_iff, ← List.getElem?_drop, h,
    List.getElem?_append_right (Nat.le_refl _), Nat.sub_self]
  rfl

theorem slice_of_drop {bytes front window rest : Bytes} {i : Nat}
    (hi : i ≤ bytes.length) (h : bytes.drop i = front ++ (window ++ rest)) :
    slice bytes (i + front.length) (i + front.length + window.length) =
      .ok window := by
  have hlength := congrArg List.length h
  rw [List.length_drop, List.length_append, List.length_append] at hlength
  rw [slice_of_le (Nat.le_add_right _ _) (by omega), ← List.drop_drop, h,
    List.drop_left, Nat.add_sub_cancel_left, List.take_left]

theorem slice_append (front window rest : Bytes) :
    slice (front ++ (window ++ rest)) front.length
      (front.length + window.length) = .ok window := by
  have hslice :=
    slice_of_drop (Nat.zero_le _)
      (List.drop_zero (l := front ++ (window ++ rest)))
  rw [Nat.zero_add] at hslice
  exact hslice

theorem setByte_append (front : Bytes) (old b : UInt8) (rest : Bytes) :
    setByte (front ++ old :: rest) front.length b =
      .ok (front ++ b :: rest) := by
  have hinside : front.length < (front ++ old :: rest).length := by
    rw [List.length_append, List.length_cons]
    omega
  rw [setByte, if_pos hinside, List.set_append_right _ _ (Nat.le_refl _),
    Nat.sub_self]
  rfl

theorem byteAt_append (front : Bytes) (b : UInt8) (rest : Bytes) :
    byteAt (front ++ b :: rest) front.length = .ok b := by
  have hbyte := byteAt_of_drop (List.drop_zero (l := front ++ b :: rest))
  rw [Nat.zero_add] at hbyte
  exact hbyte

theorem overwrite_append (front : Bytes) {old source : Bytes} (rest : Bytes)
    (h : source.length = old.length) :
    overwrite (front ++ (old ++ rest)) front.length
      (front.length + old.length) source =
      .ok (front ++ (source ++ rest)) := by
  have hinside :
      front.length + old.length ≤ (front ++ (old ++ rest)).length := by
    rw [List.length_append, List.length_append]
    omega
  rw [overwrite_of_le (Nat.le_add_right _ _) hinside
      (by rw [h, Nat.add_sub_cancel_left]),
    List.take_left, ← List.drop_drop, List.drop_left, List.drop_left]

theorem fillFrom_append (front rest : Bytes) (b : UInt8) :
    fillFrom (front ++ rest) front.length b =
      .ok (front ++ List.replicate rest.length b) := by
  have hinside : front.length ≤ (front ++ rest).length := by
    rw [List.length_append]
    omega
  have hlength : (List.replicate rest.length b).length = rest.length :=
    List.length_replicate
  have hoverwrite := overwrite_append front [] hlength
  rw [List.append_nil, List.append_nil] at hoverwrite
  rw [fillFrom, slice_back hinside, ok_bind, List.drop_left, List.length_append,
    hoverwrite]

end Checked
end TransportStream
