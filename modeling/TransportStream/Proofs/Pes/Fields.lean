import Mathlib.Data.List.GetD
import TransportStream.Proofs.Pes.Units

/-!
# Headers by position

A bit reader walks through a header from its first bit.  The fields nevertheless
stand at fixed positions, and the parts of a timestamp are put together from
five bytes by masks and shifts.
-/

namespace TransportStream

/-!
## Masks and shifts
-/

theorem and_shifted_mask (n low width : Nat) :
    n &&& ((2 ^ width - 1) * 2 ^ low) = n / 2 ^ low % 2 ^ width * 2 ^ low := by
  rw [← Nat.shiftLeft_eq, ← Nat.shiftLeft_eq]
  apply Nat.eq_of_testBit_eq
  intro i
  simp only [Nat.testBit_and, Nat.testBit_shiftLeft,
    Nat.testBit_two_pow_sub_one, Nat.testBit_mod_two_pow,
    Nat.testBit_div_two_pow]
  by_cases hi : low ≤ i
  · rw [Nat.sub_add_cancel hi, Bool.and_left_comm, Bool.and_comm (n.testBit i)]
  · simp [hi]

theorem shiftLeft_or_of_lt {n k : Nat} (h : n < 2 ^ k) (high : Nat) :
    high <<< k ||| n = high * 2 ^ k + n := by
  rw [← Nat.shiftLeft_add_eq_or_of_lt h, Nat.shiftLeft_eq]

theorem toNat_shiftLeft_of_le {k : UInt64} (h : k.toNat ≤ 56) (b : UInt8) :
    (b.toUInt64 <<< k).toNat = b.toNat <<< k.toNat := by
  have hbyte : b.toNat ≤ 255 := Nat.le_of_lt_succ b.toNat_lt
  have hamount : k.toNat % 64 = k.toNat :=
    Nat.mod_eq_of_lt (Nat.lt_of_le_of_lt h (by decide))
  rw [UInt64.toNat_shiftLeft, UInt8.toNat_toUInt64, hamount, Nat.shiftLeft_eq]
  apply Nat.mod_eq_of_lt
  calc b.toNat * 2 ^ k.toNat
      ≤ 255 * 2 ^ 56 :=
        Nat.mul_le_mul hbyte (Nat.pow_le_pow_right (by decide) h)
    _ < 2 ^ 64 := by decide

/-!
## Timestamps of five bytes
-/

namespace Pes

/-- The time in the five bytes of a timestamp field. -/
def ptsOfBytes (b0 b1 b2 b3 b4 : UInt8) : Timestamp :=
  ((b0 &&& 0x0E).toUInt64 <<< 29) ||| (b1.toUInt64 <<< 22) |||
    ((b2 &&& 0xFE).toUInt64 <<< 14) ||| (b3.toUInt64 <<< 7) |||
    (b4.toUInt64 >>> 1)

theorem toNat_ptsOfBytes (b0 b1 b2 b3 b4 : UInt8) :
    (ptsOfBytes b0 b1 b2 b3 b4).toNat =
      field b0 1 3 * 2 ^ 30 + (b1.toNat * 2 ^ 7 + field b2 1 7) * 2 ^ 15 +
        (b3.toNat * 2 ^ 7 + field b4 1 7) := by
  have hhigh : (b0 &&& 0x0E).toNat <<< 29 = field b0 1 3 <<< 30 := by
    rw [UInt8.toNat_and]
    show (b0.toNat &&& (2 ^ 3 - 1) * 2 ^ 1) <<< 29 = _
    rw [and_shifted_mask, ← Nat.shiftLeft_eq, ← Nat.shiftLeft_add]
    rfl
  have hmiddle : (b2 &&& 0xFE).toNat <<< 14 = field b2 1 7 <<< 15 := by
    rw [UInt8.toNat_and]
    show (b2.toNat &&& (2 ^ 7 - 1) * 2 ^ 1) <<< 14 = _
    rw [and_shifted_mask, ← Nat.shiftLeft_eq, ← Nat.shiftLeft_add]
    rfl
  have hlow : (b4.toUInt64 >>> 1).toNat = field b4 1 7 := by
    have hbyte := b4.toNat_lt
    have hfield : field b4 1 7 = b4.toNat / 2 ^ 1 := Nat.mod_eq_of_lt (by lia)
    rw [UInt64.toNat_shiftRight, UInt8.toNat_toUInt64, hfield]
    exact Nat.shiftRight_eq_div_pow b4.toNat 1
  have h0 := field_lt b0 1 3
  have h1 := b1.toNat_lt
  have h2 := field_lt b2 1 7
  have h3 := b3.toNat_lt
  have h4 := field_lt b4 1 7
  rw [ptsOfBytes, UInt64.toNat_or, UInt64.toNat_or, UInt64.toNat_or,
    UInt64.toNat_or, toNat_shiftLeft_of_le (by decide),
    toNat_shiftLeft_of_le (by decide), toNat_shiftLeft_of_le (by decide),
    toNat_shiftLeft_of_le (by decide), hlow]
  show (b0 &&& 0x0E).toNat <<< 29 ||| b1.toNat <<< 22 |||
    (b2 &&& 0xFE).toNat <<< 14 ||| b3.toNat <<< 7 ||| field b4 1 7 = _
  -- From the lowest part upwards, every part stands above the bits of those
  -- below it.
  rw [hhigh, hmiddle, Nat.or_assoc, Nat.or_assoc, Nat.or_assoc,
    shiftLeft_or_of_lt h4,
    shiftLeft_or_of_lt (show b3.toNat * 2 ^ 7 + field b4 1 7 < 2 ^ 15 by lia),
    shiftLeft_or_of_lt (show field b2 1 7 * 2 ^ 15 +
      (b3.toNat * 2 ^ 7 + field b4 1 7) < 2 ^ 22 by lia),
    shiftLeft_or_of_lt (by lia)]
  lia

theorem toNat_ptsOfBytes_lt (b0 b1 b2 b3 b4 : UInt8) :
    (ptsOfBytes b0 b1 b2 b3 b4).toNat < 2 ^ 33 := by
  have h0 := field_lt b0 1 3
  have h1 := b1.toNat_lt
  have h2 := field_lt b2 1 7
  have h3 := b3.toNat_lt
  have h4 := field_lt b4 1 7
  rw [toNat_ptsOfBytes]
  lia

theorem ptsOfBytes_congr {b0 b0' b2 b2' b4 b4' : UInt8}
    (h0 : b0 &&& 0x0E = b0' &&& 0x0E) (h2 : b2 &&& 0xFE = b2' &&& 0xFE)
    (h4 : b4 >>> 1 = b4' >>> 1) (b1 b3 : UInt8) :
    ptsOfBytes b0 b1 b2 b3 b4 = ptsOfBytes b0' b1 b2' b3 b4' := by
  have hshift (b : UInt8) : b.toUInt64 >>> 1 = (b >>> 1).toUInt64 := by
    rw [← UInt64.toNat_inj, UInt64.toNat_shiftRight, UInt8.toNat_toUInt64,
      UInt8.toNat_toUInt64, UInt8.toNat_shiftRight]
    rfl
  rw [ptsOfBytes, ptsOfBytes, h0, h2, hshift, hshift, h4]

namespace TimestampField

theorem ticks_eq_ptsOfBytes (b0 b1 b2 b3 b4 : UInt8) (lead : Nat)
    (m0 m1 m2 : Bool) :
    (TimestampField.mk lead
        (field b0 1 3) m0 (b1.toNat * 2 ^ 7 + field b2 1 7) m1
        (b3.toNat * 2 ^ 7 + field b4 1 7) m2).ticks =
      ptsOfBytes b0 b1 b2 b3 b4 := by
  rw [← UInt64.toNat_inj, ticks, ← toNat_ptsOfBytes, UInt64.ofNat_toNat]

def ofTicks (pts : Timestamp) (lead : Nat) (m0 m1 m2 : Bool) :
    TimestampField where
  lead := lead
  high := pts.toNat / 2 ^ 30
  firstMarker := m0
  middle := pts.toNat / 2 ^ 15 % 2 ^ 15
  secondMarker := m1
  low := pts.toNat % 2 ^ 15
  thirdMarker := m2

def bytes (t : TimestampField) : Bytes :=
  [lowByte (t.lead * 16 + t.high * 2 + t.firstMarker.toNat),
    lowByte ((t.middle * 2 + t.secondMarker.toNat) / 256),
    lowByte (t.middle * 2 + t.secondMarker.toNat),
    lowByte ((t.low * 2 + t.thirdMarker.toNat) / 256),
    lowByte (t.low * 2 + t.thirdMarker.toNat)]

theorem field_lowByte_high {high : Nat} (h : high < 2 ^ 3) (lead : Nat)
    (marker : Bool) :
    field (lowByte (lead * 16 + high * 2 + marker.toNat)) 1 3 = high := by
  have hmarker := marker.toNat_lt
  simp only [field, lowByte, UInt8.toNat_ofNat']
  lia

theorem part_lowByte {part : Nat} (h : part < 2 ^ 15) (marker : Bool) :
    (lowByte ((part * 2 + marker.toNat) / 256)).toNat * 2 ^ 7 +
      field (lowByte (part * 2 + marker.toNat)) 1 7 = part := by
  have hmarker := marker.toNat_lt
  simp only [field, lowByte, UInt8.toNat_ofNat']
  lia

theorem ptsOfBytes_bytes {pts : Timestamp} (h : pts.toNat < 2 ^ 33) (lead : Nat)
    (m0 m1 m2 : Bool) :
    ptsOfBytes ((ofTicks pts lead m0 m1 m2).bytes.getD 0 0)
      ((ofTicks pts lead m0 m1 m2).bytes.getD 1 0)
        ((ofTicks pts lead m0 m1 m2).bytes.getD 2 0)
      ((ofTicks pts lead m0 m1 m2).bytes.getD 3 0)
        ((ofTicks pts lead m0 m1 m2).bytes.getD 4 0) =
      pts := by
  have hhigh : pts.toNat / 2 ^ 30 < 2 ^ 3 := by lia
  have hmiddle : pts.toNat / 2 ^ 15 % 2 ^ 15 < 2 ^ 15 :=
    Nat.mod_lt _ (by decide)
  have hlow : pts.toNat % 2 ^ 15 < 2 ^ 15 := Nat.mod_lt _ (by decide)
  rw [← UInt64.toNat_inj, toNat_ptsOfBytes]
  simp only [bytes, ofTicks, List.getD_cons_zero, List.getD_cons_succ,
    field_lowByte_high hhigh, part_lowByte hmiddle, part_lowByte hlow]
  lia

end TimestampField

/-!
## Headers
-/

namespace Header

/-- Nine bytes that open with the start code, and as many more as the last of
them announces. -/
def IsHeader (bytes : Bytes) : Prop :=
  9 ≤ bytes.length ∧ 9 + (bytes.getD 8 0).toNat ≤ bytes.length ∧
    bytes.take 3 = [0x00, 0x00, 0x01]

def ofPositions (bytes : Bytes) : Header where
  streamId := (bytes.getD 3 0).toNat
  packetLength := word (bytes.getD 4 0) (bytes.getD 5 0)
  aligned := flag (bytes.getD 6 0) 2
  timestampFlags := field (bytes.getD 7 0) 6 2
  optionalLength := (bytes.getD 8 0).toNat
  pts :=
    if (field (bytes.getD 7 0) 6 2 = 2 ∨ field (bytes.getD 7 0) 6 2 = 3) ∧
        5 ≤ (bytes.getD 8 0).toNat then
      some (ptsOfBytes (bytes.getD 9 0) (bytes.getD 10 0) (bytes.getD 11 0)
        (bytes.getD 12 0) (bytes.getD 13 0))
    else none

theorem announcesTimestamp_iff (b : UInt8) :
    2 ≤ field b 6 2 ↔ field b 6 2 = 2 ∨ field b 6 2 = 3 := by
  have hlt := field_lt b 6 2
  lia

theorem toNat_pts_ofPositions_lt {bytes : Bytes} {pts : Timestamp}
    (h : (ofPositions bytes).pts = some pts) : pts.toNat < 2 ^ 33 := by
  simp only [ofPositions] at h
  split at h
  · cases h
    exact toNat_ptsOfBytes_lt _ _ _ _ _
  · cases h

theorem exists_readBits_eq_some {b0 b1 b2 b3 b4 b5 b6 b7 b8 : UInt8}
    {rest : Bytes} (h : b8.toNat ≤ rest.length) :
    exists timestamp more,
      readBits.run (bitsOf (b0 :: b1 :: b2 :: b3 :: b4 :: b5 :: b6 :: b7 ::
        b8 :: rest)) =
        some ((ofPositions (b0 :: b1 :: b2 :: b3 :: b4 :: b5 :: b6 :: b7 ::
          b8 :: rest), timestamp), more) := by
  have htimed : 2 ≤ field b7 6 2 ∧ timestampSize ≤ b8.toNat ↔
      (field b7 6 2 = 2 ∨ field b7 6 2 = 3) ∧ 5 ≤ b8.toNat :=
    and_congr_left' (announcesTimestamp_iff b7)
  rw [readBits_run]
  by_cases hpts : 2 ≤ field b7 6 2 ∧ timestampSize ≤ b8.toNat
  · match rest, Nat.le_trans hpts.right h with
    | c0 :: c1 :: c2 :: c3 :: c4 :: rest, _ =>
        have hfields :
            ofPositions (b0 :: b1 :: b2 :: b3 :: b4 :: b5 :: b6 :: b7 ::
            b8 :: c0 ::
            c1 :: c2 :: c3 :: c4 :: rest) =
              ⟨b3.toNat, word b4 b5, flag b6 2, field b7 6 2,
              b8.toNat, some (ptsOfBytes c0 c1 c2 c3 c4)⟩ :=
          congrArg (Header.mk _ _ _ _ _) (if_pos (htimed.mp hpts))
        rw [if_pos hpts, TimestampField.read_run, Option.map_some,
          TimestampField.ticks_eq_ptsOfBytes, hfields]
        exact ⟨_, _, rfl⟩
  · have hfields :
        ofPositions (b0 :: b1 :: b2 :: b3 :: b4 :: b5 :: b6 :: b7 ::
        b8 :: rest) =
        ⟨b3.toNat, word b4 b5, flag b6 2, field b7 6 2, b8.toNat, none⟩ :=
      congrArg (Header.mk _ _ _ _ _)
        (if_neg (fun hall => hpts (htimed.mpr hall)))
    rw [if_neg hpts, hfields]
    exact ⟨_, _, rfl⟩

theorem size?_of_nine {bytes : Bytes} (h : 9 ≤ bytes.length) :
    size? bytes = some (9 + (bytes.getD 8 0).toNat) := by
  rw [size?_eq, List.getD_eq_getElem?_getD, List.getElem?_eq_getElem h]
  rfl

theorem exists_readBits_of_length {bytes : Bytes} (hnine : 9 ≤ bytes.length)
    (h : 9 + (bytes.getD 8 0).toNat ≤ bytes.length) :
    exists timestamp more,
      readBits.run (bitsOf bytes) =
        some ((ofPositions bytes, timestamp), more) := by
  match bytes, hnine with
  | b0 :: b1 :: b2 :: b3 :: b4 :: b5 :: b6 :: b7 :: b8 :: rest, _ =>
      apply exists_readBits_eq_some
      simp only [List.length_cons, List.getD_cons_succ, List.getD_cons_zero]
        at h
      lia

theorem parse_eq (bytes : Bytes) :
    parse bytes =
      if bytes.length < 9 ∨ bytes.length < 9 + (bytes.getD 8 0).toNat then
        .error (.malformed .shortPesHeader)
      else if bytes.take 3 = [0x00, 0x00, 0x01] then .ok (ofPositions bytes)
      else .error (.malformed .noStartCode) := by
  unfold parse readFields
  by_cases hnine : bytes.length < 9
  · have hnone : size? bytes = none := by
      rw [size?_eq, List.getElem?_eq_none (Nat.le_of_lt_succ hnine)]
      rfl
    rw [hnone, if_pos (Or.inl hnine)]
    rfl
  rw [size?_of_nine (Nat.le_of_not_lt hnine)]
  dsimp only
  by_cases hshort : bytes.length < 9 + (bytes.getD 8 0).toNat
  · rw [if_pos hshort, if_pos (Or.inr hshort)]
    rfl
  rw [if_neg hshort, if_neg (not_or.mpr ⟨hnine, hshort⟩)]
  by_cases hcode : bytes.take 3 = [0x00, 0x00, 0x01]
  · rcases exists_readBits_of_length (Nat.le_of_not_lt hnine)
      (Nat.le_of_not_lt hshort) with
      ⟨timestamp, more, hread⟩
    have hstart : hasStartCode bytes = true := beq_iff_eq.mpr hcode
    rw [if_pos hcode, hstart, hread]
    rfl
  · have hstart : hasStartCode bytes = false := beq_eq_false_iff_ne.mpr hcode
    rw [if_neg hcode, hstart]
    rfl

theorem parse_eq_ok_iff (bytes : Bytes) (header : Header) :
    parse bytes = .ok header ↔ IsHeader bytes ∧ header = ofPositions bytes := by
  rw [parse_eq, IsHeader]
  constructor
  · intro h
    split at h
    · cases h
    · rename_i hlong
      rw [not_or, Nat.not_lt, Nat.not_lt] at hlong
      split at h
      · rename_i hcode
        cases h
        exact ⟨⟨hlong.left, hlong.right, hcode⟩, rfl⟩
      · cases h
  · rintro ⟨⟨hnine, hlong, hcode⟩, rfl⟩
    rw [if_neg (not_or.mpr ⟨Nat.not_lt.mpr hnine, Nat.not_lt.mpr hlong⟩),
      if_pos hcode]

theorem getD_append_of_nine {front : Bytes} (h : front.length = 9)
    (rest : Bytes) (i : Nat) :
    (front ++ rest).getD (9 + i) 0 = rest.getD i 0 := by
  rw [List.getD_append_right _ _ _ _ (by lia), h, Nat.add_sub_cancel_left]

theorem ofPositions_append {front rest : Bytes} (h : front.length = 9) :
    ofPositions (front ++ rest) =
      { ofPositions front with
        pts :=
          if (field (front.getD 7 0) 6 2 = 2 ∨ field (front.getD 7 0) 6 2 = 3) ∧
              5 ≤ (front.getD 8 0).toNat then
            some (ptsOfBytes (rest.getD 0 0) (rest.getD 1 0) (rest.getD 2 0)
              (rest.getD 3 0) (rest.getD 4 0))
          else none } := by
  have hfront {i : Nat} (hi : i < 9) :
      (front ++ rest).getD i 0 = front.getD i 0 :=
    List.getD_append _ _ _ _ (by lia)
  have hrest := getD_append_of_nine h rest
  unfold ofPositions
  rw [hfront (by decide), hfront (by decide), hfront (by decide),
    hfront (by decide), hfront (by decide), hfront (by decide), hrest 0,
    hrest 1, hrest 2, hrest 3, hrest 4]

theorem parse_congr_markers {front : Bytes} (h : front.length = 9)
    {b0 b0' b2 b2' b4 b4' : UInt8} (h0 : b0 &&& 0x0E = b0' &&& 0x0E)
    (h2 : b2 &&& 0xFE = b2' &&& 0xFE) (h4 : b4 >>> 1 = b4' >>> 1)
    (b1 b3 : UInt8) (rest : Bytes) :
    parse (front ++ b0 :: b1 :: b2 :: b3 :: b4 :: rest) =
      parse (front ++ b0' :: b1 :: b2' :: b3 :: b4' :: rest) := by
  have hninth (more : Bytes) : (front ++ more).getD 8 0 = front.getD 8 0 :=
    List.getD_append _ _ _ _ (by lia)
  have hcode (more : Bytes) : (front ++ more).take 3 = front.take 3 :=
    List.take_append_of_le_length (by lia)
  have hpts := ptsOfBytes_congr h0 h2 h4 b1 b3
  rw [parse_eq, parse_eq, ofPositions_append h, ofPositions_append h, hninth,
    hninth, hcode, hcode]
  simp only [List.length_append, List.length_cons, List.getD_cons_zero,
    List.getD_cons_succ, hpts]

theorem pts_ofPositions_ofTicks {front : Bytes} (h : front.length = 9)
    (hflags : 2 ≤ field (front.getD 7 0) 6 2)
    (hroom : 5 ≤ (front.getD 8 0).toNat) {pts : Timestamp}
    (hpts : pts.toNat < 2 ^ 33) (lead : Nat) (m0 m1 m2 : Bool) (rest : Bytes) :
    (ofPositions (front ++
      ((TimestampField.ofTicks pts lead m0 m1 m2).bytes ++ rest))).pts =
      some pts := by
  rw [ofPositions_append h]
  dsimp only
  rw [if_pos ⟨(announcesTimestamp_iff _).mp hflags, hroom⟩]
  exact congrArg some (TimestampField.ptsOfBytes_bytes hpts lead m0 m1 m2)

end Header

/-!
## Assemblers
-/

namespace Assembler

def tryHeaderOr (otherwise : Error -> Logged (Assembler × List Event))
    (pid last : Nat) (bytes : Bytes) : Logged (Assembler × List Event) :=
  match Header.size? bytes with
  | none => pure (.collecting last bytes, [])
  | some size =>
      if !Header.hasStartCode bytes then do
        Logged.note (.debug .pes
          s!"pid {Text.hex4 pid}: PES without start code prefix, waiting for next unit")
        pure (.idle, [])
      else if bytes.length < size then
        pure (.collecting last bytes, [])
      else do
        match ← Header.read (bytes.take size) with
        | .ok header =>
            pure (.streaming last, .header header ::
              dataEvents (bytes.drop size))
        | .error e => otherwise e

theorem tryHeaderOr_eq (otherwise : Error -> Logged (Assembler × List Event))
    (pid last : Nat) (bytes : Bytes) :
    tryHeaderOr otherwise pid last bytes = tryHeader pid last bytes := by
  unfold tryHeaderOr tryHeader
  cases hsize : Header.size? bytes with
  | none => rfl
  | some size =>
      dsimp only
      cases hcode : Header.hasStartCode bytes with
      | false => rfl
      | true =>
          have hstart : ¬ (!true) = true := by decide
          rw [if_neg hstart, if_neg hstart]
          by_cases hshort : bytes.length < size
          · rw [if_pos hshort, if_pos hshort]
          · rw [Header.size?_eq, Option.map_eq_some_iff] at hsize
            rcases hsize with ⟨length, hninth, rfl⟩
            rcases exists_parse_take hninth hcode (Nat.le_of_not_lt hshort) with
              ⟨header, hheader⟩
            rw [if_neg hshort, if_neg hshort]
            simp only [Header.read, fixedHeaderSize, hheader, bind_assoc,
              pure_bind]

end Assembler

namespace Header

/-- A header is parsed if it is all there behind its start code, and then every
field is taken from where it stands; the bits never run out.  A time has 33
bits, is what was written whatever bits surround it, and does not depend on
these.  An assembler therefore never meets a header that cannot be parsed. -/
theorem parse_reads_positions :
    (forall bytes header, parse bytes = .ok header ↔
        IsHeader bytes ∧ header = ofPositions bytes) ∧
      (forall bytes, IsHeader bytes -> (readBits.run (bitsOf bytes)).isSome) ∧
      (forall bytes header pts, parse bytes = .ok header ->
        header.pts = some pts -> pts.toNat < 2 ^ 33) ∧
      (forall (front rest : Bytes) (b0 b1 b2 b3 b4 b0' b2' b4' : UInt8),
        front.length = 9 -> b0 &&& 0x0E = b0' &&& 0x0E ->
        b2 &&& 0xFE = b2' &&& 0xFE -> b4 >>> 1 = b4' >>> 1 ->
        parse (front ++ b0 :: b1 :: b2 :: b3 :: b4 :: rest) =
          parse (front ++ b0' :: b1 :: b2' :: b3 :: b4' :: rest)) ∧
      (forall (front rest : Bytes) (pts : Timestamp) (lead : Nat)
        (m0 m1 m2 : Bool), front.length = 9 ->
        2 ≤ field (front.getD 7 0) 6 2 -> 5 ≤ (front.getD 8 0).toNat ->
        pts.toNat < 2 ^ 33 ->
        IsHeader (front ++
          ((TimestampField.ofTicks pts lead m0 m1 m2).bytes ++ rest)) ->
        exists header,
          parse (front ++
            ((TimestampField.ofTicks pts lead m0 m1 m2).bytes ++ rest)) =
              .ok header ∧
            header.pts = some pts) ∧
      forall otherwise pid last bytes,
        Assembler.tryHeaderOr otherwise pid last bytes =
          Assembler.tryHeader pid last bytes := by
  refine ⟨parse_eq_ok_iff, ?_, ?_, ?_, ?_, Assembler.tryHeaderOr_eq⟩
  · intro bytes h
    rcases exists_readBits_of_length h.left h.right.left with
      ⟨timestamp, more, hread⟩
    rw [hread]
    rfl
  · intro bytes header pts hparse hpts
    rcases (parse_eq_ok_iff bytes header).mp hparse with ⟨_, rfl⟩
    exact toNat_pts_ofPositions_lt hpts
  · intro front rest b0 b1 b2 b3 b4 b0' b2' b4' h h0 h2 h4
    exact parse_congr_markers h h0 h2 h4 b1 b3 rest
  · intro front rest pts lead m0 m1 m2 h hflags hroom hpts hheader
    exact ⟨_, (parse_eq_ok_iff _ _).mpr ⟨hheader, rfl⟩,
      pts_ofPositions_ofTicks h hflags hroom hpts lead m0 m1 m2 rest⟩

def timedFront : Bytes :=
  [0x00, 0x00, 0x01, 0xE0, 0x00, 0x00, 0x84, 0x80, 0x05]

theorem parse_reads_last_time :
    IsHeader (timedFront ++
      ((TimestampField.ofTicks 0x1FFFFFFFF 2 true true true).bytes ++ [])) ∧
      readBits.run (bitsOf (timedFront ++ [0x2F, 0xFF, 0xFF, 0xFF, 0xFF])) ≠
        none ∧
      (exists header,
        parse (timedFront ++
            ((TimestampField.ofTicks 0x1FFFFFFFF 2 true true true).bytes ++
              [])) = .ok header ∧
          header.pts = some 0x1FFFFFFFF ∧
          (0x1FFFFFFFF : Timestamp).toNat < 2 ^ 33) ∧
      parse (timedFront ++ [0x2F, 0xFF, 0xFF, 0xFF, 0xFF]) =
        parse (timedFront ++ [0x0E, 0xFF, 0xFE, 0xFF, 0xFE]) := by
  have hheader : IsHeader
      (timedFront ++
        ((TimestampField.ofTicks 0x1FFFFFFFF 2 true true true).bytes ++ [])) :=
    ⟨by decide, by decide, by decide⟩
  rcases parse_reads_positions with ⟨_, hbits, hrange, hmarkers, hwritten, _⟩
  rcases hwritten timedFront [] 0x1FFFFFFFF 2 true true true rfl (by decide)
    (by decide) (by decide) hheader with ⟨header, hparse, hpts⟩
  refine ⟨hheader, ?_, ⟨header, hparse, hpts, hrange _ header _ hparse hpts⟩,
    ?_⟩
  · exact Option.isSome_iff_ne_none.mp
      (hbits _ ⟨by decide, by decide, by decide⟩)
  · exact hmarkers timedFront [] 0x2F 0xFF 0xFF 0xFF 0xFF 0x0E 0xFE 0xFE rfl
      (by decide) (by decide) (by decide)

end Header
end Pes
end TransportStream
