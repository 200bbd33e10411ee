import TransportStream.Pes.Header
import TransportStream.Proofs.Bits.Numbers

/-!
# Reading whole headers

A byte string that opens with the start code and holds the header that its ninth
byte announces is read as a header: the bit reader finds every field where it
looks for it, and never runs out of bits.
-/

namespace TransportStream
namespace Pes

open BitReader

theorem TimestampField.read_run (b0 b1 b2 b3 b4 : UInt8) (rest : Bytes) :
    TimestampField.read.run (bitsOf (b0 :: b1 :: b2 :: b3 :: b4 :: rest)) =
      some (⟨field b0 4 4, field b0 1 3, flag b0 0, b1.toNat * 2 ^ 7 +
        field b2 1 7, flag b2 0, b3.toNat * 2 ^ 7 + field b4 1 7, flag b4 0⟩,
        bitsOf rest) := by
  have hbits : bitsOf (b0 :: b1 :: b2 :: b3 :: b4 :: rest) =
      fieldBits b0 4 4 ++
        (fieldBits b0 1 3 ++ (flag b0 0 :: (fieldBits b1 0 8 ++
        (fieldBits b2 1 7 ++ (flag b2 0 :: (fieldBits b3 0 8 ++
          (fieldBits b4 1 7 ++ (flag b4 0 :: bitsOf rest)))))))) := rfl
  have hmiddle := number_run_fields b1 b2 0 8 1 7
  have hlow := number_run_fields b3 b4 0 8 1 7
  rw [field_byte] at hmiddle hlow
  unfold read
  simp only [StateT.run_bind, hbits, Option.bind_eq_bind, Option.bind_some,
    number_run_field, bit_run, hmiddle, hlow]
  rfl

namespace Header

theorem readBits_run (b0 b1 b2 b3 b4 b5 b6 b7 b8 : UInt8) (rest : Bytes) :
    readBits.run (bitsOf (b0 :: b1 :: b2 :: b3 :: b4 :: b5 :: b6 :: b7 ::
      b8 :: rest)) =
      if 2 ≤ field b7 6 2 ∧ timestampSize ≤ b8.toNat then
        (TimestampField.read.run (bitsOf rest)).map (fun t =>
          ((⟨b3.toNat, word b4 b5, flag b6 2, field b7 6 2, b8.toNat,
            some t.1.ticks⟩,
            some t.1), t.2))
      else
        some ((⟨b3.toNat, word b4 b5, flag b6 2, field b7 6 2, b8.toNat, none⟩,
          none), bitsOf rest) := by
  have hcode :
      (skip 24).run (bitsOf (b0 :: b1 :: b2 :: b3 :: b4 :: b5 :: b6 ::
      b7 :: b8 ::
      rest)) = some ((), bitsOf (b3 :: b4 :: b5 :: b6 :: b7 :: b8 :: rest)) :=
    skip_run (fieldBits b0 0 8 ++ fieldBits b1 0 8 ++ fieldBits b2 0 8) _
  have hsix :
      bitsOf (b6 :: b7 :: b8 :: rest) = fieldBits b6 3 5 ++ (flag b6 2 ::
      (fieldBits b6 0 2 ++ bitsOf (b7 :: b8 :: rest))) := rfl
  have hseven : bitsOf (b7 :: b8 :: rest) =
      fieldBits b7 6 2 ++ (fieldBits b7 0 6 ++ bitsOf (b8 :: rest)) := rfl
  have hahead := skip_run (fieldBits b6 3 5)
  have hbehind := skip_run (fieldBits b6 0 2)
  have hflags := skip_run (fieldBits b7 0 6)
  rw [length_fieldBits] at hahead hbehind hflags
  unfold readBits
  simp only [StateT.run_bind, Option.bind_eq_bind, Option.bind_some, hcode,
    number_run_byte, number_run_word, hsix, hahead, bit_run, hbehind, hseven,
    number_run_field, hflags]
  split
  · simp only [StateT.run_bind]
    cases TimestampField.read.run (bitsOf rest) with
    | none => rfl
    | some t => rfl
  · rfl

theorem size?_eq (bytes : Bytes) :
    size? bytes =
      bytes[8]?.map (fun length => fixedHeaderSize + length.toNat) := by
  unfold size?
  split
  · rfl
  · rename_i hshort
    have hnone : bytes[8]? = none := by
      rw [List.getElem?_eq_none_iff]
      rcases bytes with
        _ | ⟨_, _ | ⟨_, _ | ⟨_, _ | ⟨_, _ | ⟨_, _ | ⟨_, _ | ⟨_, _ | ⟨_, _ |
        ⟨_, rest⟩⟩⟩⟩⟩⟩⟩⟩⟩
      case cons.cons.cons.cons.cons.cons.cons.cons.cons =>
        exact absurd rfl (hshort _ _ _ _ _ _ _ _ _ rest)
      all_goals
        simp only [List.length_cons, List.length_nil]
        lia
    rw [hnone]
    rfl

theorem exists_read_eq_some {bytes : Bytes} (h : timestampSize ≤ bytes.length) :
    exists t, TimestampField.read.run (bitsOf bytes) = some t := by
  match bytes, h with
  | b0 :: b1 :: b2 :: b3 :: b4 :: rest, _ =>
      exact ⟨_, TimestampField.read_run b0 b1 b2 b3 b4 rest⟩

theorem exists_parse_eq_ok {bytes : Bytes} {size : Nat}
    (hsize : size? bytes = some size) (hlength : size ≤ bytes.length)
    (hcode : hasStartCode bytes = true) :
    exists header, parse bytes = .ok header := by
  have hbits : exists fields rest,
      readBits.run (bitsOf bytes) = some (fields, rest) := by
    unfold size? at hsize
    split at hsize
    · rename_i b0 b1 b2 b3 b4 b5 b6 b7 b8 rest
      cases hsize
      rw [readBits_run]
      by_cases htimed : 2 ≤ field b7 6 2 ∧ timestampSize ≤ b8.toNat
      · rw [if_pos htimed]
        have hroom : timestampSize ≤ rest.length := by
          simp only [fixedHeaderSize, List.length_cons] at hlength
          lia
        rcases exists_read_eq_some hroom with ⟨t, ht⟩
        rw [ht]
        exact ⟨_, _, rfl⟩
      · rw [if_neg htimed]
        exact ⟨_, _, rfl⟩
    · cases hsize
  rcases hbits with ⟨fields, rest, hbits⟩
  refine ⟨fields.1, ?_⟩
  unfold parse readFields
  simp only [hsize, if_neg (Nat.not_lt.mpr hlength), hcode, hbits]
  rfl

end Header
end Pes
end TransportStream
