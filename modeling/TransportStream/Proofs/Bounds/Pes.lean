import TransportStream.Delay.Timestamps
import TransportStream.Proofs.Bounds.Packet
import TransportStream.Proofs.Pes.Units

/-!
# Units of elementary streams by position

The header of a unit is cut off a buffer once it is complete; its ninth byte
says how long it is.  The start code of a sequence is looked for without a
buffer: the bytes still missing are counted down while a number is formed of
those that came.
-/

namespace TransportStream
namespace Pes

def startCode : Bytes := [0x00, 0x00, 0x01]

theorem hasStartCode_of_front {bytes : Bytes} (h : bytes.take 3 = startCode) :
    Header.hasStartCode bytes = true :=
  (hasStartCode_iff bytes).mpr h

theorem hasStartCode_of_other {bytes : Bytes} (h : bytes.take 3 ≠ startCode) :
    Header.hasStartCode bytes = false :=
  Bool.eq_false_iff.mpr (fun hcode => h ((hasStartCode_iff bytes).mp hcode))

theorem exists_byteAt_ninth {bytes : Bytes}
    (h : fixedHeaderSize ≤ bytes.length) :
    exists length, Checked.byteAt bytes 8 = .ok length ∧
      Header.size? bytes = some (fixedHeaderSize + length.toNat) := by
  have hninth : bytes[8]? = some bytes[8] := List.getElem?_eq_getElem h
  refine ⟨bytes[8], Checked.byteAt_eq_ok_iff.mpr hninth, ?_⟩
  rw [Header.size?_eq, hninth]
  rfl

theorem size?_of_short {bytes : Bytes} (h : bytes.length < fixedHeaderSize) :
    Header.size? bytes = none := by
  rw [Header.size?_eq, List.getElem?_eq_none (Nat.le_of_lt_succ h)]
  rfl

namespace Header

def parseChecked (bytes : Bytes) : Checked (Except Error Header) :=
  if bytes.length < fixedHeaderSize then
    pure (.error (.malformed .shortPesHeader))
  else do
    let length ← Checked.byteAt bytes 8
    if bytes.length < fixedHeaderSize + length.toNat then
      pure (.error (.malformed .shortPesHeader))
    else do
      let code ← Checked.slice bytes 0 3
      if code ≠ startCode then pure (.error (.malformed .noStartCode))
      else
        match readBits.run (bitsOf bytes) with
        | none => pure (.error (.malformed .shortPesHeader))
        | some (fields, _) => pure (.ok fields.1)

theorem parseChecked_eq_ok (bytes : Bytes) :
    parseChecked bytes = .ok (parse bytes) := by
  unfold parseChecked parse readFields
  by_cases hshort : bytes.length < fixedHeaderSize
  · rw [if_pos hshort, size?_of_short hshort]
    rfl
  rcases exists_byteAt_ninth (Nat.le_of_not_lt hshort) with
    ⟨length, hninth, hsize⟩
  rw [if_neg hshort, hninth, Checked.ok_bind, hsize]
  dsimp only
  by_cases hcut : bytes.length < fixedHeaderSize + length.toNat
  · rw [if_pos hcut, if_pos hcut]
    rfl
  have hfront : 3 ≤ bytes.length :=
    Nat.le_trans (by decide) (Nat.le_of_not_lt hshort)
  rw [if_neg hcut, if_neg hcut, Checked.slice_front hfront, Checked.ok_bind]
  by_cases hcode : bytes.take 3 = startCode
  · rw [if_neg (not_not_intro hcode), hasStartCode_of_front hcode,
      if_neg (by decide)]
    cases readBits.run (bitsOf bytes) with
    | none => rfl
    | some fields => rfl
  · rw [if_pos hcode, hasStartCode_of_other hcode, if_pos (by decide)]
    rfl

end Header

namespace Assembler

def tryHeaderChecked (last : Nat) (buffer : Bytes) :
    Checked (Assembler × List Event) :=
  if buffer.length < fixedHeaderSize then pure (.collecting last buffer, [])
  else do
    let code ← Checked.slice buffer 0 3
    if code ≠ startCode then pure (.idle, [])
    else do
      let length ← Checked.byteAt buffer 8
      let size := fixedHeaderSize + length.toNat
      if buffer.length < size then pure (.collecting last buffer, [])
      else do
        let headerBytes ← Checked.slice buffer 0 size
        match ← Header.parseChecked headerBytes with
        | .error _ => pure (.idle, [])
        | .ok header =>
            if size < buffer.length then do
              let data ← Checked.slice buffer size buffer.length
              pure (.streaming last, [.header header, .data data])
            else
              pure (.streaming last, [.header header])

def resumeChecked (a : Assembler) (last : Nat) (p : PlacedPacket)
    (accept : Checked (Assembler × List Event)) :
    Checked (Assembler × List Event) :=
  match p.continuityAfter last with
  | .duplicate => pure (a, [])
  | .next => accept
  | .gap => pure (.idle, [])

def submitChecked (a : Assembler) (p : PlacedPacket) :
    Checked (Assembler × List Event) :=
  if p.transportError then pure (a, [])
  else do
    let payload ← p.payload
    if p.unitStart then tryHeaderChecked p.counter payload
    else
      match a with
      | .idle => pure (.idle, [])
      | .collecting last pending =>
          resumeChecked a last p
            (tryHeaderChecked p.counter (pending ++ payload))
      | .streaming last =>
          resumeChecked a last p
            (pure (.streaming p.counter, dataEvents payload))

theorem dataEvents_drop (buffer : Bytes) (size : Nat) :
    dataEvents (buffer.drop size) =
      if size < buffer.length then [.data (buffer.drop size)] else [] := by
  unfold dataEvents
  by_cases h : size < buffer.length
  · have hrest : (buffer.drop size).isEmpty = false := by
      rw [List.isEmpty_eq_false_iff, ne_eq, List.drop_eq_nil_iff]
      exact Nat.not_le.mpr h
    rw [hrest, if_neg (by decide), if_pos h]
  · rw [List.drop_of_length_le (Nat.le_of_not_lt h), if_neg h]
    rfl

/-- Whatever length the ninth byte claims, only bytes of the buffer are taken
for the header. -/
theorem tryHeaderChecked_eq_ok (pid last : Nat) (buffer : Bytes) :
    tryHeaderChecked last buffer = .ok (tryHeader pid last buffer).value := by
  unfold tryHeaderChecked tryHeader
  by_cases hshort : buffer.length < fixedHeaderSize
  · rw [if_pos hshort, size?_of_short hshort]
    rfl
  rcases exists_byteAt_ninth (Nat.le_of_not_lt hshort) with
    ⟨length, hninth, hsize⟩
  have hfront : 3 ≤ buffer.length :=
    Nat.le_trans (by decide) (Nat.le_of_not_lt hshort)
  rw [if_neg hshort, hsize, Checked.slice_front hfront, Checked.ok_bind]
  dsimp only
  by_cases hcode : buffer.take 3 = startCode
  · rw [if_neg (not_not_intro hcode), hasStartCode_of_front hcode,
      if_neg (by decide), hninth, Checked.ok_bind]
    by_cases hcut : buffer.length < fixedHeaderSize + length.toNat
    · rw [if_pos hcut, if_pos hcut]
      rfl
    have hinside := Nat.le_of_not_lt hcut
    rw [if_neg hcut, if_neg hcut, Checked.slice_front hinside, Checked.ok_bind,
      Header.parseChecked_eq_ok, Checked.ok_bind, Logged.value_bind]
    have hread :
        (Header.read (buffer.take (fixedHeaderSize + length.toNat))).value =
      Header.parse (buffer.take (fixedHeaderSize + length.toNat)) := rfl
    rw [hread]
    cases Header.parse (buffer.take (fixedHeaderSize + length.toNat)) with
    | error e => rfl
    | ok header =>
        dsimp only
        rw [dataEvents_drop]
        by_cases hdata : fixedHeaderSize + length.toNat < buffer.length
        · rw [if_pos hdata, if_pos hdata, Checked.slice_back hinside]
          rfl
        · rw [if_neg hdata, if_neg hdata]
          rfl
  · rw [if_pos hcode, hasStartCode_of_other hcode, if_pos (by decide)]
    rfl

theorem resumeChecked_placed {a : Assembler} {last : Nat} {p : Packet}
    {accept : Checked (Assembler × List Event)}
    {accept' : Logged (Assembler × List Event)}
    (h : accept = .ok accept'.value) :
    resumeChecked a last p.placed accept =
      .ok (resume a last p accept').value := by
  unfold resumeChecked resume
  rw [Packet.continuityAfter_placed]
  cases p.continuityAfter last with
  | next => exact h
  | duplicate => rfl
  | gap => rfl

theorem submitChecked_placed (a : Assembler) (p : Packet) :
    submitChecked a p.placed = .ok (submit a p).value := by
  unfold submitChecked submit
  rw [Packet.payload_placed, Packet.transportError_placed,
    Packet.unitStart_placed]
  by_cases herror : p.transportError = true
  · rw [if_pos herror, if_pos herror]
    rfl
  rw [if_neg herror, if_neg herror, Checked.ok_bind]
  by_cases hstart : p.unitStart = true
  · rw [if_pos hstart, if_pos hstart]
    exact tryHeaderChecked_eq_ok p.pid p.counter p.payload
  rw [if_neg hstart, if_neg hstart]
  cases a with
  | idle => rfl
  | collecting last pending =>
      exact resumeChecked_placed
        (tryHeaderChecked_eq_ok p.pid p.counter (pending ++ p.payload))
  | streaming last => exact resumeChecked_placed rfl

end Assembler
end Pes

/-!
## Looking for the start code of a sequence
-/

/-- A watch that counts down the bytes which the start code of a sequence still
needs. -/
structure VideoCount where
  pts : Option Timestamp
  header : Option Pes.Header
  code : Nat
  remaining : Nat
  deriving DecidableEq, Repr

namespace VideoCount

def fresh : VideoCount :=
  ⟨none, none, 0, 0⟩

def shiftIn (code : Nat) (b : UInt8) : Nat :=
  (code * 256 + b.toNat) % 2 ^ 32

def takeCode : Bytes -> Nat -> Nat -> Checked (Nat × Nat)
  | [], code, remaining => pure (code, remaining)
  | b :: data, code, remaining => do
      let remaining' ← Checked.difference remaining 1
      if remaining' = 0 then pure (shiftIn code b, 0)
      else takeCode data (shiftIn code b) remaining'

def sequenceCode : Nat := 0x000001B3

def seeData (w : VideoCount) (header : Pes.Header) (data : Bytes) :
    Checked VideoCount := do
  let (code, remaining) ← takeCode data w.code w.remaining
  if remaining = 0 ∧ code = sequenceCode ∧ header.pts.isSome then
    pure ⟨header.pts, w.header, code, remaining⟩
  else
    pure ⟨w.pts, w.header, code, remaining⟩

def see (w : VideoCount) (e : Pes.Event) : Checked VideoCount :=
  match w.pts, e, w.header with
  | some _, _, _ => pure w
  | none, .header header, _ => pure ⟨none, some header, 0, 4⟩
  | none, .data data, some header =>
      if w.remaining = 0 ∨ header.aligned = false then pure w
      else seeData w header data
  | none, .data _, none => pure w

end VideoCount

namespace VideoWatch

def codeOf (opening : Bytes) : Nat :=
  opening.foldl VideoCount.shiftIn 0

def counted (w : VideoWatch) : VideoCount where
  pts := w.pts
  header := w.header
  code := codeOf w.opening
  remaining :=
    if w.header.isSome then sequenceStartCode.length - w.opening.length else 0

@[simp] theorem pts_counted (w : VideoWatch) : w.counted.pts = w.pts := rfl

@[simp] theorem header_counted (w : VideoWatch) : w.counted.header = w.header :=
  rfl

theorem remaining_counted {w : VideoWatch} {header : Pes.Header}
    (h : w.header = some header) :
    w.counted.remaining = sequenceStartCode.length - w.opening.length := by
  rw [counted, h]
  rfl

theorem codeOf_append (opening : Bytes) (b : UInt8) :
    codeOf (opening ++ [b]) = VideoCount.shiftIn (codeOf opening) b := by
  rw [codeOf, List.foldl_append]
  rfl

/-- As many bytes are taken as are missing, and not one more. -/
theorem takeCode_eq_ok (data : Bytes) {opening : Bytes}
    (h : opening.length < sequenceStartCode.length) :
    VideoCount.takeCode data (codeOf opening)
      (sequenceStartCode.length - opening.length) =
      .ok (codeOf ((opening ++ data).take sequenceStartCode.length),
        sequenceStartCode.length -
          ((opening ++ data).take sequenceStartCode.length).length) := by
  induction data generalizing opening with
  | nil =>
      rw [List.append_nil, List.take_of_length_le (Nat.le_of_lt h)]
      rfl
  | cons b data ih =>
      have hlength : (opening ++ [b]).length = opening.length + 1 :=
        List.length_append
      rw [VideoCount.takeCode, Checked.difference_of_le (Nat.sub_pos_of_lt h),
        Checked.ok_bind, ← codeOf_append, List.append_cons opening b data,
        Nat.sub_sub, ← hlength]
      by_cases hfull : sequenceStartCode.length - (opening ++ [b]).length = 0
      · have henough : (opening ++ [b]).length = sequenceStartCode.length := by
          omega
        rw [if_pos hfull, ← henough, List.take_left, Nat.sub_self]
        rfl
      · rw [if_neg hfull]
        exact ih (Nat.lt_of_sub_pos (Nat.pos_of_ne_zero hfull))

theorem codeOf_eq_sequenceCode_iff {opening : Bytes}
    (h : opening.length = sequenceStartCode.length) :
    codeOf opening = VideoCount.sequenceCode ↔ opening = sequenceStartCode := by
  match opening, h with
  | [a, b, c, d], _ =>
      have ha := a.toNat_lt
      have hb := b.toNat_lt
      have hc := c.toNat_lt
      have hd := d.toNat_lt
      simp only [codeOf, List.foldl_cons, List.foldl_nil, VideoCount.shiftIn,
        VideoCount.sequenceCode, sequenceStartCode, List.cons.injEq,
        ← UInt8.toNat_inj, UInt8.reduceToNat, and_true]
      omega

theorem found_iff {opening : Bytes}
    (h : opening.length ≤ sequenceStartCode.length) :
    sequenceStartCode.length - opening.length = 0 ∧
    codeOf opening = VideoCount.sequenceCode ↔
      opening = sequenceStartCode := by
  constructor
  · rintro ⟨hnone, hcode⟩
    exact (codeOf_eq_sequenceCode_iff (by omega)).mp hcode
  · intro hopening
    rw [hopening]
    exact ⟨Nat.sub_self _, rfl⟩

theorem seeData_counted {w : VideoWatch} {header : Pes.Header}
    (hpts : w.pts = none) (hheader : w.header = some header)
    (hneeded : w.opening.length < sequenceStartCode.length)
    (haligned : header.aligned = true) (data : Bytes) :
    w.counted.seeData header data =
      .ok (w.seeData header data).value.counted := by
  have hwait :
      ¬ (!header.aligned ||
      decide (sequenceStartCode.length ≤ w.opening.length)) =
      true := by
    simp [haligned, hneeded]
  unfold VideoCount.seeData seeData
  rw [remaining_counted hheader, if_neg hwait]
  show (VideoCount.takeCode data (codeOf w.opening) _ >>= _) = _
  rw [takeCode_eq_ok data hneeded, Checked.ok_bind]
  have hfound := found_iff (List.length_take_le _ (w.opening ++ data))
  generalize (w.opening ++ data).take sequenceStartCode.length =
    opening at hfound ⊢
  dsimp only
  rw [pts_counted, header_counted, hpts, hheader]
  by_cases hopening : opening = sequenceStartCode
  · rcases hfound.mpr hopening with ⟨hnone, hcode⟩
    have hbeq : (opening == sequenceStartCode) = true := beq_iff_eq.mpr hopening
    rw [hbeq]
    cases header.pts with
    | none =>
        rw [if_neg (fun hall => Bool.false_ne_true hall.right.right)]
        rfl
    | some pts =>
        rw [if_pos ⟨hnone, hcode, rfl⟩]
        rfl
  · have hbeq : (opening == sequenceStartCode) = false :=
      beq_eq_false_iff_ne.mpr hopening
    rw [hbeq,
      if_neg (fun hall => hopening (hfound.mp ⟨hall.left, hall.right.left⟩))]
    rfl

theorem see_counted (w : VideoWatch) (e : Pes.Event) :
    w.counted.see e = .ok (w.see e).value.counted := by
  unfold VideoCount.see see
  show (match w.pts, e, w.header with
    | some _, _, _ => _
    | none, .header header, _ => _
    | none, .data data, some header => _
    | none, .data _, none => _) = _
  cases hpts : w.pts with
  | some pts => rfl
  | none =>
      cases e with
      | header header => rfl
      | data data =>
          cases hheader : w.header with
          | none => rfl
          | some header =>
              dsimp only
              rw [remaining_counted hheader]
              by_cases hwait : sequenceStartCode.length - w.opening.length = 0 ∨
                  header.aligned = false
              · have hstays : (!header.aligned ||
                    decide (sequenceStartCode.length ≤ w.opening.length)) =
                      true := by
                  rw [Bool.or_eq_true, Bool.not_eq_true', decide_eq_true_eq]
                  exact hwait.symm.imp_right Nat.le_of_sub_eq_zero
                rw [if_pos hwait, seeData, if_pos hstays]
                rfl
              · rw [if_neg hwait]
                rw [not_or, Bool.not_eq_false] at hwait
                exact seeData_counted hpts hheader (by omega) hwait.right data

end VideoWatch
end TransportStream
