import TransportStream.Pat
import TransportStream.Pmt
import TransportStream.Proofs.Bounds.Section
import TransportStream.Proofs.Discovery.Maps
import TransportStream.Proofs.Table.Decoding

/-!
# Decoding tables by position

The fields of a section are read at positions.  Those of a program map depend on
lengths that the section itself gives: the length of the program's descriptors,
and with every stream the length of its own.
-/

namespace TransportStream

namespace SectionHeader

def parseChecked (bytes : Bytes) : Checked (Except Error SectionHeader) :=
  if bytes.length < sectionHeaderSize then
    pure (.error (.malformed .shortSectionHeader))
  else do
    let tableId ← Checked.byteAt bytes 0
    let hi ← Checked.byteAt bytes 3
    let lo ← Checked.byteAt bytes 4
    let version ← Checked.byteAt bytes 5
    let number ← Checked.byteAt bytes 6
    let lastNumber ← Checked.byteAt bytes 7
    pure (.ok
      { tableId := tableId.toNat
        extension := word hi lo
        version := field version 1 5
        current := flag version 0
        number := number.toNat
        lastNumber := lastNumber.toNat })

theorem parseChecked_eq_ok (bytes : Bytes) :
    parseChecked bytes = .ok (parse bytes) := by
  match bytes with
  | [] | [_] | [_, _] | [_, _, _] | [_, _, _, _] | [_, _, _, _, _] | [_, _,
    _, _, _, _]
  | [_, _, _, _, _, _, _] => rfl
  | _ :: _ :: _ :: _ :: _ :: _ :: _ :: _ :: rest =>
      exact if_neg
        (Nat.not_lt.mpr (Nat.le_add_left sectionHeaderSize rest.length))

end SectionHeader

/-!
## Association tables
-/

namespace Pat

def wholeChunks : Bytes -> List Bytes
  | a :: b :: c :: d :: rest => [a, b, c, d] :: wholeChunks rest
  | _ => []

def readAssociation (chunk : Bytes) : Checked Association := do
  let hi ← Checked.byteAt chunk 0
  let lo ← Checked.byteAt chunk 1
  let pidBytes ← Checked.slice chunk 2 4
  let pid ← Checked.readPid pidBytes
  pure ⟨word hi lo, pid⟩

def decodeChecked (bytes : Bytes) : Checked (Except Error Pat) :=
  if bytes.length < sectionHeaderSize + trailerSize then
    pure (.error (.malformed .shortPat))
  else do
    let first ← Checked.byteAt bytes 0
    if first ≠ tableId then pure (.error (.malformed .notPat))
    else
      match ← SectionHeader.parseChecked bytes with
      | .error e => pure (.error e)
      | .ok header => do
          let stop ← Checked.difference bytes.length trailerSize
          let body ← Checked.slice bytes sectionHeaderSize stop
          let associations ← (wholeChunks body).mapM readAssociation
          pure (.ok ⟨header, associations⟩)

theorem mapM_readAssociation (body : Bytes) :
    (wholeChunks body).mapM readAssociation =
      .ok ((entries body).map Entry.association) := by
  fun_induction wholeChunks body with
  | case1 a b c d rest ih =>
      rw [List.mapM_cons, ih]
      rfl
  | case2 body hshort =>
      unfold entries
      split
      · rename_i a b c d rest
        exact absurd rfl (hshort a b c d rest)
      · rfl

theorem decodeChecked_eq_ok (bytes : Bytes) :
    decodeChecked bytes = .ok (decode bytes) := by
  unfold decodeChecked decode
  by_cases hshort : bytes.length < sectionHeaderSize + trailerSize
  · rw [if_pos hshort, if_pos hshort]
    rfl
  rw [if_neg hshort, if_neg hshort]
  have hlength : sectionHeaderSize + trailerSize ≤ bytes.length :=
    Nat.le_of_not_lt hshort
  rcases Checked.exists_byteAt_zero
    (Nat.lt_of_lt_of_le (by decide) hlength) with
    ⟨first, hfirst, hhead⟩
  rw [hfirst, Checked.ok_bind, hhead]
  simp only [ne_eq, Option.some.injEq]
  by_cases hid : first = tableId
  · have hbody :
        Checked.slice bytes sectionHeaderSize (bytes.length - trailerSize) =
        .ok (entryBytes bytes) := by
      rw [Checked.slice_of_le (Nat.le_sub_of_add_le hlength) (Nat.sub_le _ _),
        entryBytes, Nat.sub_right_comm]
    rw [if_neg (not_not_intro hid), if_neg (not_not_intro hid),
      SectionHeader.parseChecked_eq_ok, Checked.ok_bind]
    cases SectionHeader.parse bytes with
    | error e => rfl
    | ok header =>
        dsimp only
        rw [Checked.difference_of_le
          (Nat.le_trans (Nat.le_add_left _ _) hlength),
          Checked.ok_bind, hbody, Checked.ok_bind, mapM_readAssociation]
        rfl
  · rw [if_pos hid, if_pos hid]
    rfl

end Pat

/-!
## Descriptors
-/

namespace Descriptor

def walkChecked (loop : Bytes) : Checked (List Descriptor) :=
  match loop with
  | tag :: length :: rest =>
      if rest.length < length.toNat then pure []
      else
        match hsplit : Checked.splitAt rest length.toNat with
        | .error fault => .error fault
        | .ok (body, rest') => do
            have := Checked.length_le_of_splitAt hsplit
            let later ← walkChecked rest'
            pure (⟨tag, body⟩ :: later)
  | _ => pure []
termination_by loop.length
decreasing_by
  simp only [List.length_cons]
  omega

theorem walkChecked_eq_ok (loop : Bytes) :
    walkChecked loop = .ok (scan loop).1 := by
  fun_induction scan loop with
  | case1 tag length rest hshort =>
      rw [walkChecked, if_pos hshort]
      rfl
  | case2 tag length rest hlong later ih =>
      rw [walkChecked, if_neg hlong]
      split <;> rename_i hsplit <;>
        rw [Checked.splitAt_of_le (Nat.le_of_not_lt hlong)] at hsplit <;>
          cases hsplit
      rw [ih]
      rfl
  | case3 loop hshort =>
      unfold walkChecked
      split
      · rename_i tag length rest
        exact absurd rfl (hshort tag length rest)
      · rfl

end Descriptor

/-!
## Program maps
-/

namespace ElementaryStream

def scanChecked (bytes : Bytes) (stop i : Nat) :
    Checked (List ElementaryStream) :=
  if i < stop then
    if stop < i + 5 then do
      let _stray ← Checked.difference stop i
      pure []
    else do
      let lengthBytes ← Checked.slice bytes (i + 3) (i + 5)
      let length ← Checked.readLength lengthBytes
      if stop < i + 5 + length then pure []
      else do
        let code ← Checked.byteAt bytes i
        let pidBytes ← Checked.slice bytes (i + 1) (i + 3)
        let pid ← Checked.readPid pidBytes
        let info ← Checked.slice bytes (i + 5) (i + 5 + length)
        let later ← scanChecked bytes stop (i + 5 + length)
        pure (⟨code, pid, ⟨info⟩⟩ :: later)
  else
    pure []
termination_by stop - i

theorem scanChecked_of_entry {bytes rest : Bytes}
    {code pidHigh pidLow lengthHigh lengthLow : UInt8} {stop i : Nat}
    (hroom : i + 5 ≤ stop) (hi : i ≤ bytes.length)
    (h : bytes.drop i =
      code :: pidHigh :: pidLow :: lengthHigh :: lengthLow :: rest) :
    scanChecked bytes stop i =
      if stop < i + 5 + lengthField lengthHigh lengthLow then pure []
      else
        Checked.slice bytes (i + 5)
          (i + 5 + lengthField lengthHigh lengthLow) >>= fun info =>
          scanChecked bytes stop (i + 5 + lengthField lengthHigh lengthLow) >>=
            fun later =>
            pure (⟨code, pidField pidHigh pidLow, ⟨info⟩⟩ :: later) := by
  have hcode : bytes.drop i =
      [] ++ code :: (pidHigh :: pidLow :: lengthHigh :: lengthLow :: rest) :=
    h
  have hpid : bytes.drop i =
      [code] ++ ([pidHigh, pidLow] ++ (lengthHigh :: lengthLow :: rest)) := h
  have hlength : bytes.drop i =
      [code, pidHigh, pidLow] ++ ([lengthHigh, lengthLow] ++ rest) := h
  have hcodeByte : Checked.byteAt bytes i = .ok code :=
    Checked.byteAt_of_drop hcode
  have hpidBytes : Checked.slice bytes (i + 1) (i + 3) =
      .ok [pidHigh, pidLow] :=
    Checked.slice_of_drop hi hpid
  have hlengthBytes : Checked.slice bytes (i + 3) (i + 5) =
      .ok [lengthHigh, lengthLow] :=
    Checked.slice_of_drop hi hlength
  rw [scanChecked,
    if_pos (Nat.lt_of_lt_of_le (Nat.lt_add_of_pos_right (by decide)) hroom),
    if_neg (Nat.not_lt.mpr hroom), hlengthBytes, Checked.ok_bind,
    Checked.readLength_pair, Checked.ok_bind, hcodeByte, Checked.ok_bind,
    hpidBytes, Checked.ok_bind, Checked.readPid_pair, Checked.ok_bind]

theorem length_window {bytes : Bytes} {stop : Nat} (hstop : stop ≤ bytes.length)
    (i : Nat) :
    ((bytes.take stop).drop i).length = stop - i := by
  rw [List.length_drop, List.length_take, Nat.min_eq_left hstop]

theorem drop_eq_window_append {bytes : Bytes} {stop i : Nat}
    (hstop : stop ≤ bytes.length) (hi : i ≤ stop) :
    bytes.drop i = (bytes.take stop).drop i ++ bytes.drop stop := by
  have hlength : i ≤ (bytes.take stop).length := by
    rw [List.length_take, Nat.min_eq_left hstop]
    exact hi
  rw [← List.drop_append_of_le_length hlength, List.take_append_drop]

theorem length_lt_of_not_entry {window : Bytes}
    (h : forall code pidHigh pidLow lengthHigh lengthLow rest, window =
      code :: pidHigh :: pidLow :: lengthHigh :: lengthLow :: rest -> False) :
    window.length < 5 := by
  rcases window with _ | ⟨a, _ | ⟨b, _ | ⟨c, _ | ⟨d, _ | ⟨e, rest⟩⟩⟩⟩⟩
  case cons.cons.cons.cons.cons => exact absurd rfl (h a b c d e rest)
  all_goals
    simp only [List.length_cons, List.length_nil]
    omega

/-- No entry is read past the position where the entries stop. -/
theorem scanChecked_eq_ok {bytes : Bytes} {stop : Nat}
    (hstop : stop ≤ bytes.length) {i : Nat} (hi : i ≤ stop) :
    scanChecked bytes stop i = .ok (scan ((bytes.take stop).drop i)).1 := by
  generalize hwindow : (bytes.take stop).drop i = window
  fun_induction scan window generalizing i with
  | case1 code pidHigh pidLow lengthHigh lengthLow rest hshort =>
      have hlength := length_window hstop i
      have hdrop := drop_eq_window_append hstop hi
      rw [hwindow] at hlength hdrop
      simp only [List.length_cons] at hlength
      rw [scanChecked_of_entry (by omega) (Nat.le_trans hi hstop) hdrop,
        if_pos (by omega)]
      rfl
  | case2 code pidHigh pidLow lengthHigh lengthLow rest hlong size later =>
      rename_i ih
      have hlength := length_window hstop i
      have hdrop := drop_eq_window_append hstop hi
      rw [hwindow] at hlength hdrop
      simp only [List.length_cons] at hlength
      have hinfo : bytes.drop (i + 5) = rest ++ bytes.drop stop := by
        rw [← List.drop_drop, hdrop]
        rfl
      have hrest : (bytes.take stop).drop (i + 5 + size) = rest.drop size := by
        rw [← List.drop_drop, ← List.drop_drop, hwindow]
        rfl
      have hlater := ih (by omega) hrest
      have hsize : size ≤ rest.length := Nat.le_of_not_lt hlong
      have hinfoBytes : Checked.slice bytes (i + 5) (i + 5 + size) =
          .ok (rest.take size) := by
        rw [Checked.slice_of_le (Nat.le_add_right _ _) (by omega),
          Nat.add_sub_cancel_left, hinfo, List.take_append_of_le_length hsize]
      rw [scanChecked_of_entry (by omega) (Nat.le_trans hi hstop) hdrop,
        if_neg (by omega), hinfoBytes, Checked.ok_bind, hlater]
      rfl
  | case3 window hshort =>
      have hlength := length_window hstop i
      rw [hwindow] at hlength
      have hfew := length_lt_of_not_entry hshort
      rw [scanChecked]
      by_cases hmore : i < stop
      · rw [if_pos hmore, if_pos (by omega), Checked.difference_of_le hi]
        rfl
      · rw [if_neg hmore]
        rfl

end ElementaryStream

namespace Pmt

def decodeChecked (bytes : Bytes) : Checked (Except Error Pmt) :=
  if bytes.length < headerSize + trailerSize then
    pure (.error (.malformed .shortPmt))
  else do
    let first ← Checked.byteAt bytes 0
    if first ≠ tableId then pure (.error (.malformed .notPmt))
    else
      match ← SectionHeader.parseChecked bytes with
      | .error e => pure (.error e)
      | .ok header => do
          let stop ← Checked.difference bytes.length trailerSize
          let clockBytes ← Checked.slice bytes 8 10
          let clockPid ← Checked.readPid clockBytes
          let lengthBytes ← Checked.slice bytes 10 12
          let length ← Checked.readLength lengthBytes
          if stop < headerSize + length then
            pure (.error (.malformed .longProgramInfo))
          else do
            let info ← Checked.slice bytes headerSize (headerSize + length)
            let streams ← ElementaryStream.scanChecked bytes stop
              (headerSize + length)
            pure (.ok ⟨header, clockPid, ⟨info⟩, streams⟩)

theorem slices_of_header {bytes : Bytes} (h : headerSize ≤ bytes.length) :
    exists clockHigh clockLow infoHigh infoLow,
      Checked.slice bytes 8 10 = .ok [clockHigh, clockLow] ∧
        Checked.slice bytes 10 12 = .ok [infoHigh, infoLow] ∧
        clockField bytes = pidField clockHigh clockLow ∧
        infoLength bytes = lengthField infoHigh infoLow := by
  match bytes, h with
  | a :: b :: c :: d :: e :: f :: g :: i :: clockHigh :: clockLow :: infoHigh ::
    infoLow :: rest,
      _ =>
    exact ⟨clockHigh, clockLow, infoHigh, infoLow,
      Checked.slice_append [a, b, c, d, e, f, g, i] [clockHigh, clockLow] _,
      Checked.slice_append [a, b, c, d, e, f, g, i, clockHigh, clockLow]
        [infoHigh, infoLow] rest,
      rfl, rfl⟩

theorem length_content (bytes : Bytes) :
    (content bytes).length = bytes.length - headerSize - trailerSize := by
  rw [content, List.length_take, List.length_drop]
  omega

theorem drop_content (bytes : Bytes) (n : Nat) :
    (content bytes).drop n =
      (bytes.take (bytes.length - trailerSize)).drop (headerSize + n) := by
  rw [content, Nat.sub_right_comm, ← List.drop_take, List.drop_drop]

theorem take_content {bytes : Bytes} {n : Nat}
    (h : n ≤ (content bytes).length) :
    (content bytes).take n = (bytes.drop headerSize).take n := by
  rw [length_content] at h
  rw [content, List.take_take, Nat.min_eq_left h]

theorem decodeChecked_eq_ok (bytes : Bytes) :
    decodeChecked bytes = .ok (decode bytes) := by
  unfold decodeChecked decode
  by_cases hshort : bytes.length < headerSize + trailerSize
  · rw [if_pos hshort, if_pos hshort]
    rfl
  rw [if_neg hshort, if_neg hshort]
  have hlength : headerSize + trailerSize ≤ bytes.length :=
    Nat.le_of_not_lt hshort
  rcases Checked.exists_byteAt_zero
    (Nat.lt_of_lt_of_le (by decide) hlength) with
    ⟨first, hfirst, hhead⟩
  rw [hfirst, Checked.ok_bind, hhead]
  simp only [ne_eq, Option.some.injEq]
  by_cases hid : first = tableId
  · rw [if_neg (not_not_intro hid), if_neg (not_not_intro hid),
      SectionHeader.parseChecked_eq_ok, Checked.ok_bind]
    cases SectionHeader.parse bytes with
    | error e => rfl
    | ok header =>
        rcases slices_of_header
          (Nat.le_trans (Nat.le_add_right _ _) hlength) with
          ⟨clockHigh, clockLow, infoHigh, infoLow, hclockBytes, hinfoBytes,
            hclock, hinfo⟩
        have hcontent := length_content bytes
        dsimp only
        rw [Checked.difference_of_le
          (Nat.le_trans (Nat.le_add_left _ _) hlength),
          Checked.ok_bind, hclockBytes, Checked.ok_bind, Checked.readPid_pair,
          Checked.ok_bind,
          hinfoBytes, Checked.ok_bind, Checked.readLength_pair, Checked.ok_bind,
          ← hinfo, ← hclock]
        by_cases hlong : (content bytes).length < infoLength bytes
        · rw [if_pos (by omega)]
          show _ = Except.ok (if _ then _ else _)
          rw [if_pos hlong]
          rfl
        · have hstop : headerSize + infoLength bytes ≤
            bytes.length - trailerSize := by omega
          rw [if_neg (Nat.not_lt.mpr hstop),
            Checked.slice_of_le (Nat.le_add_right _ _) (by omega),
            Checked.ok_bind,
            ElementaryStream.scanChecked_eq_ok (Nat.sub_le _ _) hstop,
            Checked.ok_bind, Nat.add_sub_cancel_left, ← drop_content,
            ← take_content (Nat.le_of_not_lt hlong)]
          show _ = Except.ok (if _ then _ else _)
          rw [if_neg hlong]
          rfl
  · rw [if_pos hid, if_pos hid]
    rfl

end Pmt

/-!
## Table decoders
-/

/-- A table that can be decoded by position, with the same outcome. -/
class CheckedTable (τ : Type) [Table τ] where
  decode : Bytes -> Checked (Except Error τ)
  decode_eq_ok : forall bytes, decode bytes = .ok (Table.decode bytes)

instance : CheckedTable Pat where
  decode := Pat.decodeChecked
  decode_eq_ok := Pat.decodeChecked_eq_ok

instance : CheckedTable Pmt where
  decode := Pmt.decodeChecked
  decode_eq_ok := Pmt.decodeChecked_eq_ok

namespace TableDecoder

variable {τ σ : Type} [Table τ] [CheckedTable τ]

def visitChecked (visit : σ -> τ -> Bytes -> Logged σ) (s : σ) (bytes : Bytes) :
    Checked σ := do
  match ← CheckedTable.decode (τ := τ) bytes with
  | .ok table => pure (visit s table bytes).value
  | .error _ => pure s

def submitChecked (d : TableDecoder τ) (p : PlacedPacket)
    (visit : σ -> τ -> Bytes -> Logged σ) (s : σ) :
    Checked (TableDecoder τ × σ) := do
  let (assembler, sections) ← d.assembler.submitChecked p
  let s' ← sections.foldlM (visitChecked visit) s
  pure (⟨assembler⟩, s')

theorem visitChecked_eq_ok (pid : Nat) (visit : σ -> τ -> Bytes -> Logged σ)
    (s : σ) (bytes : Bytes) :
    visitChecked visit s bytes =
      .ok (visitSection pid visit s bytes).value := by
  rw [visitChecked, CheckedTable.decode_eq_ok, Checked.ok_bind,
    value_visitSection]
  cases (Table.decode bytes : Except Error τ) with
  | ok table => rfl
  | error e => rfl

theorem submitChecked_placed (d : TableDecoder τ) (p : Packet)
    (visit : σ -> τ -> Bytes -> Logged σ) (s : σ) :
    d.submitChecked p.placed visit s = .ok (d.submit p visit s).value := by
  rw [submitChecked, SectionAssembler.submitChecked_placed, Checked.ok_bind,
    value_submit]
  have hvisits (sections : List Bytes) := Checked.foldlM_eq_ok (f := id)
    (visitChecked_eq_ok p.pid visit) s sections
  show (List.foldlM (visitChecked visit) (id s) _ >>= _) = _
  rw [hvisits]
  rfl

end TableDecoder
end TransportStream
