import TransportStream.Pat.Reduce
import TransportStream.Proofs.Bounds.Section
import TransportStream.Proofs.Pat.Runs

/-!
# Reducing association tables in a buffer

The joined payloads of a run are rewritten in place: the entries that stay are
moved to the front one by one, the length is mended, the checksum is put behind
the last entry and stuffing behind that.  Then the buffer is cut into the
payloads again.
-/

namespace TransportStream
namespace Pat

/-!
## Locating the section
-/

def locateChecked (data : Bytes) (firstLength : Nat) : Checked Span :=
  match data with
  | [] => pure .invalid
  | pointer :: rest =>
      let start := 1 + pointer.toNat
      if firstLength ≤ start then pure .invalid
      else if (pointer :: rest).length < start + 3 then pure .unfinished
      else do
        let lengthBytes ←
          Checked.slice (pointer :: rest) (start + 1) (start + 3)
        let length ← Checked.readLength lengthBytes
        if length < sectionHeaderSize - 3 + trailerSize then pure .invalid
        else if (pointer :: rest).length < start + 3 + length then
          pure .unfinished
        else pure (.complete start (start + 3 + length))

theorem locateChecked_eq_ok (data : Bytes) (firstLength : Nat) :
    locateChecked data firstLength = .ok (Span.locate data firstLength) := by
  unfold locateChecked Span.locate
  cases data with
  | nil => rfl
  | cons pointer rest =>
      dsimp only
      by_cases hpast : firstLength ≤ 1 + pointer.toNat
      · rw [if_pos hpast, if_pos hpast]
        rfl
      rw [if_neg hpast, if_neg hpast]
      generalize hdata : pointer :: rest = data
      generalize 1 + pointer.toNat = start
      have hlength : (data.drop start).length = data.length - start :=
        List.length_drop
      match hdrop : data.drop start with
      | [] | [_] | [_, _] =>
          rw [hdrop] at hlength
          simp only [List.length_cons, List.length_nil] at hlength
          rw [if_pos (by omega)]
          rfl
      | tableId :: hi :: lo :: behind =>
          rw [hdrop] at hlength
          simp only [List.length_cons] at hlength
          have hlengthBytes : Checked.slice data (start + 1) (start + 3) =
              .ok [hi, lo] := by
            have hsplit :
                data.drop start = [tableId] ++ ([hi, lo] ++ behind) := hdrop
            exact Checked.slice_of_drop (by omega) hsplit
          rw [if_neg (by omega), hlengthBytes, Checked.ok_bind,
            Checked.readLength_pair, Checked.ok_bind]
          dsimp only [announcedSize?]
          have hshort :
              lengthField hi lo < sectionHeaderSize - 3 + trailerSize ↔
              lengthField hi lo + 3 < sectionHeaderSize + trailerSize :=
            (Nat.add_lt_add_iff_right (k := 3)).symm
          have hstop : start + 3 + lengthField hi lo =
              start + (lengthField hi lo + 3) := by
            omega
          simp only [hshort, hstop]
          split
          · rfl
          · split
            · rfl
            · rfl

/-!
## Moving the entries that stay
-/

def moveEntry (data : Bytes) (pos out : Nat) : Checked Bytes :=
  if pos = out then pure data else Checked.copyWithin data pos (pos + 4) out

/-- Move the entries that stay between a position and another one to where the
last one went. -/
def compactChecked (pmtPids : PidSet) (stop : Nat) (data : Bytes)
    (out pos : Nat) :
    Checked (Bytes × Nat) :=
  if pos + 4 ≤ stop then do
    let programHigh ← Checked.byteAt data pos
    let programLow ← Checked.byteAt data (pos + 1)
    let pidBytes ← Checked.slice data (pos + 2) (pos + 4)
    let pid ← Checked.readPid pidBytes
    if word programHigh programLow = 0 ∨ pmtPids.contains pid = true then do
      let data' ← moveEntry data pos out
      compactChecked pmtPids stop data' (out + 4) (pos + 4)
    else
      compactChecked pmtPids stop data out (pos + 4)
  else
    pure (data, out)
termination_by stop - pos

theorem moveEntry_eq_ok {data : Bytes} {pos out : Nat} (hout : out ≤ pos)
    (hpos : pos + 4 ≤ data.length) :
    exists data', moveEntry data pos out = .ok data' ∧
      data'.length = data.length ∧
      data'.take (out + 4) = data.take out ++ (data.drop pos).take 4 ∧
      data'.drop (pos + 4) = data.drop (pos + 4) := by
  unfold moveEntry
  by_cases hsame : pos = out
  · rw [if_pos hsame]
    refine ⟨data, rfl, rfl, ?_, rfl⟩
    rw [List.take_add, hsame]
  · rw [if_neg hsame]
    have hentry : ((data.drop pos).take 4).length = 4 := by
      rw [List.length_take, List.length_drop]
      omega
    have hfront : (data.take out ++ (data.drop pos).take 4).length =
        out + 4 := by
      rw [List.length_append, List.length_take, hentry]
      omega
    refine ⟨data.take out ++ ((data.drop pos).take 4 ++ data.drop (out + 4)),
      ?_, ?_, ?_, ?_⟩
    · rw [Checked.copyWithin, Checked.slice_of_le (Nat.le_add_right _ _) hpos,
        Checked.ok_bind, Nat.add_sub_cancel_left, hentry,
        Checked.overwrite_of_le (Nat.le_add_right _ _) (by omega)
          (by rw [hentry, Nat.add_sub_cancel_left])]
    · rw [← List.append_assoc, List.length_append, hfront, List.length_drop]
      omega
    · rw [← List.append_assoc, List.take_left' hfront]
    · have hsplit : pos + 4 = out + 4 + (pos - out) := by omega
      rw [← List.append_assoc, hsplit, ← List.drop_drop, List.drop_left' hfront,
        List.drop_drop]

theorem isKept_iff {pmtPids : PidSet} {a b c d : UInt8} :
    Entry.isKept pmtPids ⟨a, b, c, d⟩ = true ↔
      word a b = 0 ∨ pmtPids.contains (pidField c d) = true := by
  rw [Entry.isKept, Bool.or_eq_true, beq_iff_eq]
  rfl

theorem compactChecked_of_entry {pmtPids : PidSet} {stop : Nat}
    {data rest : Bytes} {out pos : Nat} {a b c d : UInt8}
    (hpos : pos + 4 ≤ stop) (hinside : pos ≤ data.length)
    (hdrop : data.drop pos = a :: b :: c :: d :: rest) :
    compactChecked pmtPids stop data out pos =
      if Entry.isKept pmtPids ⟨a, b, c, d⟩ then
        moveEntry data pos out >>= fun data' =>
          compactChecked pmtPids stop data' (out + 4) (pos + 4)
      else compactChecked pmtPids stop data out (pos + 4) := by
  have hfirst : data.drop pos = [] ++ a :: (b :: c :: d :: rest) := hdrop
  have hsecond : data.drop pos = [a] ++ b :: (c :: d :: rest) := hdrop
  have hpid : data.drop pos = [a, b] ++ ([c, d] ++ rest) := hdrop
  have hprogramHigh : Checked.byteAt data pos = .ok a :=
    Checked.byteAt_of_drop hfirst
  have hprogramLow : Checked.byteAt data (pos + 1) = .ok b :=
    Checked.byteAt_of_drop hsecond
  have hpidBytes : Checked.slice data (pos + 2) (pos + 4) = .ok [c, d] :=
    Checked.slice_of_drop hinside hpid
  rw [compactChecked, if_pos hpos, hprogramHigh, Checked.ok_bind, hprogramLow,
    Checked.ok_bind, hpidBytes, Checked.ok_bind, Checked.readPid_pair,
    Checked.ok_bind]
  simp only [isKept_iff]

/-- No entry is read or written past the checksum, and the buffer keeps its
length.  In front of the position where the next entry would go stand the
entries that stay. -/
theorem compactChecked_eq_ok (pmtPids : PidSet) {stop : Nat} {data : Bytes}
    {out pos : Nat} (hout : out ≤ pos) (hpos : pos ≤ stop)
    (hstop : stop ≤ data.length) {window : Bytes}
    (hwindow : (data.drop pos).take (stop - pos) = window) {kept : List Entry}
    (hkept : (entries window).filter (Entry.isKept pmtPids) = kept) :
    exists data', compactChecked pmtPids stop data out pos =
        .ok (data', out + 4 * kept.length) ∧
      data'.length = data.length ∧
      data'.take (out + 4 * kept.length) =
        data.take out ++ kept.flatMap Entry.bytes := by
  have hlength : window.length = stop - pos := by
    rw [← hwindow, List.length_take, List.length_drop]
    omega
  fun_induction entries window generalizing data out pos kept with
  | case1 a b c d rest ih =>
      simp only [List.length_cons] at hlength
      have hdrop := (List.take_append_drop (stop - pos) (data.drop pos)).symm
      rw [hwindow] at hdrop
      have hnext : (data.drop (pos + 4)).take (stop - (pos + 4)) = rest := by
        rw [← List.drop_drop, hdrop]
        exact List.take_left' (by omega)
      rw [compactChecked_of_entry (by omega) (by omega) hdrop]
      by_cases hstays : Entry.isKept pmtPids ⟨a, b, c, d⟩ = true
      · rw [if_pos hstays]
        rw [List.filter_cons_of_pos hstays] at hkept
        rcases moveEntry_eq_ok hout (show pos + 4 ≤ data.length by omega) with
          ⟨moved, hmoved, hmovedLength, hmovedTake, hmovedDrop⟩
        rw [← hmovedDrop] at hnext
        rcases ih (Nat.add_le_add_right hout 4) (by omega) (by omega) hnext rfl
          (by omega) with
          ⟨data', hcompact, hdataLength, hdataTake⟩
        have hcount : out + 4 * kept.length =
            out + 4 +
              4 * ((entries rest).filter (Entry.isKept pmtPids)).length := by
          rw [← hkept, List.length_cons]
          omega
        refine ⟨data', ?_, hdataLength.trans hmovedLength, ?_⟩
        · rw [hmoved, Checked.ok_bind, hcompact, hcount]
        · rw [hcount, hdataTake, hmovedTake, hdrop, ← hkept, List.append_assoc]
          rfl
      · rw [if_neg hstays]
        rw [List.filter_cons_of_neg hstays] at hkept
        exact ih (Nat.le_add_right_of_le hout) (by omega) hstop hnext hkept
          (by omega)
  | case2 window hshort =>
      have hfew := length_lt_of_not_entry hshort
      have hnone : kept = [] := hkept.symm
      rw [compactChecked, if_neg (by omega), hnone]
      exact ⟨data, rfl, rfl, (List.append_nil _).symm⟩

/-!
## Mending the section
-/

def mendLength (data : Bytes) (start length : Nat) : Checked Bytes := do
  let lengthHigh ← Checked.byteAt data (start + 1)
  let data' ← Checked.setByte data (start + 1)
    (lowByte (field lengthHigh 4 4 * 16 + length / 256 % 16))
  Checked.setByte data' (start + 2) (lowByte length)

def sealSection (data : Bytes) (start stop : Nat) : Checked Bytes := do
  let bytes ← Checked.slice data start stop
  let data' ← Checked.overwrite data stop (stop + trailerSize)
    (Crc.trailer (crc bytes))
  Checked.fillFrom data' (stop + trailerSize) stuffingByte

def rewriteChecked (pmtPids : PidSet) (data : Bytes) (start stop : Nat) :
    Checked Bytes := do
  let entriesStop ← Checked.difference stop trailerSize
  let entriesStart := start + sectionHeaderSize
  let (data', out) ←
    compactChecked pmtPids entriesStop data entriesStart entriesStart
  let length ← Checked.difference (out + trailerSize) (start + 3)
  let data'' ← mendLength data' start length
  sealSection data'' start out

theorem mendLength_append (front : Bytes) (tableId hi lo : UInt8) (rest : Bytes)
    (length : Nat) :
    mendLength (front ++ tableId :: hi :: lo :: rest) front.length length =
      .ok (front ++ tableId ::
        lowByte (field hi 4 4 * 16 + length / 256 % 16) ::
        lowByte length :: rest) := by
  have hsecond : (front ++ [tableId]).length = front.length + 1 :=
    List.length_append
  have hread := Checked.byteAt_append (front ++ [tableId]) hi (lo :: rest)
  rw [List.append_assoc, hsecond] at hread
  have hwriteHigh (b : UInt8) :
      Checked.setByte (front ++ tableId :: hi :: lo :: rest)
          (front.length + 1) b =
        .ok (front ++ tableId :: b :: lo :: rest) := by
    have hwrite := Checked.setByte_append (front ++ [tableId]) hi b (lo :: rest)
    rw [List.append_assoc, List.append_assoc, hsecond] at hwrite
    exact hwrite
  have hwriteLow (b : UInt8) :
      Checked.setByte (front ++ tableId :: b :: lo :: rest)
          (front.length + 2) (lowByte length) =
        .ok (front ++ tableId :: b :: lowByte length :: rest) := by
    have hthird : (front ++ [tableId, b]).length = front.length + 2 :=
      List.length_append
    have hwrite :=
      Checked.setByte_append (front ++ [tableId, b]) lo (lowByte length) rest
    rw [List.append_assoc, List.append_assoc, hthird] at hwrite
    exact hwrite
  rw [mendLength]
  show (Checked.byteAt (front ++ ([tableId] ++ hi :: lo :: rest)) _ >>= _) = _
  rw [hread, Checked.ok_bind, hwriteHigh, Checked.ok_bind, hwriteLow]

theorem sealSection_append (front bytes behind : Bytes)
    (h : trailerSize ≤ behind.length) :
    sealSection (front ++ (bytes ++ behind)) front.length
      (front.length + bytes.length) =
      .ok (front ++ (withTrailer bytes ++
        List.replicate (behind.length - trailerSize) stuffingByte)) := by
  have hlength :
      (Crc.trailer (crc bytes)).length = (behind.take trailerSize).length := by
    rw [Crc.length_trailer, List.length_take, Nat.min_eq_left h]
    rfl
  have hstop : (front ++ bytes).length = front.length + bytes.length :=
    List.length_append
  have htrailerStop : (front ++ bytes ++ Crc.trailer (crc bytes)).length =
      front.length + bytes.length + trailerSize := by
    rw [List.length_append, hstop]
    rfl
  have hoverwrite :=
    Checked.overwrite_append (front ++ bytes) (behind.drop trailerSize) hlength
  rw [List.take_append_drop, ← hlength, hstop] at hoverwrite
  have hfill :=
    Checked.fillFrom_append (front ++ bytes ++ Crc.trailer (crc bytes))
      (behind.drop trailerSize) stuffingByte
  rw [htrailerStop, List.length_drop] at hfill
  rw [sealSection, Checked.slice_append, Checked.ok_bind, ← List.append_assoc]
  show (Checked.overwrite _ _ (front.length + bytes.length +
    (Crc.trailer (crc bytes)).length) _ >>= _) = _
  rw [hoverwrite, Checked.ok_bind, ← List.append_assoc, hfill, withTrailer]
  simp only [List.append_assoc]

theorem mended_sealed (front after tail : Bytes) (tableId hi lo : UInt8)
    (length : Nat) (h : trailerSize ≤ tail.length) :
    (mendLength (front ++ (tableId :: hi :: lo :: after ++ tail))
        front.length length >>= fun data =>
      sealSection data front.length (front.length + (after.length + 3))) =
      .ok (front ++ (withTrailer
        (tableId :: lowByte (field hi 4 4 * 16 + length / 256 % 16) ::
          lowByte length :: after) ++
        List.replicate (tail.length - trailerSize) stuffingByte)) := by
  rw [List.cons_append, List.cons_append, List.cons_append, mendLength_append,
    Checked.ok_bind]
  exact sealSection_append front (tableId :: _ :: _ :: after) tail h

theorem compactChecked_of_layout (pmtPids : PidSet) (l : Layout)
    {data behind : Bytes} {start : Nat} (hstart : start ≤ data.length)
    (hdrop : data.drop start = l.bytes ++ behind) :
    exists tail,
      compactChecked pmtPids (start + l.bytes.length - trailerSize) data
          (start + sectionHeaderSize) (start + sectionHeaderSize) =
        .ok (data.take start ++ (l.tableId :: l.lengthHigh :: l.lengthLow ::
            (l.header ++ (l.reduce pmtPids).entries.flatMap Entry.bytes) ++
              tail),
          start + sectionHeaderSize + 4 * (l.reduce pmtPids).entries.length) ∧
      tail.length = data.length -
        (start + sectionHeaderSize + 4 * (l.reduce pmtPids).entries.length) := by
  have hlong := l.isSection_bytes.right
  have hlength := congrArg List.length hdrop
  rw [List.length_drop, List.length_append] at hlength
  have hhead : data.take (start + sectionHeaderSize) =
      data.take start ++
        (l.tableId :: l.lengthHigh :: l.lengthLow :: l.header) := by
    rw [List.take_add, hdrop, List.take_append_of_le_length (by omega),
      l.take_bytes]
  have hwindow : (data.drop (start + sectionHeaderSize)).take
      (start + l.bytes.length - trailerSize - (start + sectionHeaderSize)) =
        entryBytes l.bytes := by
    have hcount :
        start + l.bytes.length - trailerSize - (start + sectionHeaderSize) =
        l.bytes.length - sectionHeaderSize - trailerSize := by
      omega
    rw [← List.drop_drop, hdrop, hcount,
      List.drop_append_of_le_length (by omega), entryBytes]
    apply List.take_append_of_le_length
    rw [List.length_drop]
    exact Nat.sub_le _ _
  have hkept : (entries (entryBytes l.bytes)).filter (Entry.isKept pmtPids) =
      (l.reduce pmtPids).entries := by
    rw [l.entries_entryBytes]
    rfl
  rcases compactChecked_eq_ok pmtPids (Nat.le_refl _) (by omega)
    (by omega) hwindow hkept with
    ⟨compacted, hcompact, hcompactLength, hcompactTake⟩
  refine ⟨compacted.drop (start + sectionHeaderSize +
    4 * (l.reduce pmtPids).entries.length), ?_, ?_⟩
  · have hcompacted := (List.take_append_drop
      (start + sectionHeaderSize + 4 * (l.reduce pmtPids).entries.length)
        compacted).symm
    rw [hcompactTake, hhead, List.append_assoc, List.append_assoc] at hcompacted
    rw [hcompact, List.cons_append, List.cons_append, List.cons_append,
      List.append_assoc]
    exact congrArg (fun bytes => Except.ok (bytes, _)) hcompacted
  · rw [List.length_drop, hcompactLength]

/-- The length of the entries kept fits into twelve bits, since that of all
entries did. -/
theorem reduceSection_of_layout (pmtPids : PidSet) (l : Layout) :
    reduceSection pmtPids l.bytes =
      withTrailer (l.tableId ::
        lowByte (field l.lengthHigh 4 4 * 16 +
          (9 + 4 * (l.reduce pmtPids).entries.length) / 256 % 16) ::
        lowByte (9 + 4 * (l.reduce pmtPids).entries.length) ::
        (l.header ++ (l.reduce pmtPids).entries.flatMap Entry.bytes)) := by
  have hkept : 9 + 4 * (l.reduce pmtPids).entries.length < 0x1000 :=
    Layout.length_kept_lt pmtPids l
  have hmod : (9 + 4 * (l.reduce pmtPids).entries.length) / 256 % 16 =
      (9 + 4 * (l.reduce pmtPids).entries.length) / 256 := by
    omega
  rw [Layout.reduceSection_bytes, hmod]
  rfl

/-- A section that lies in a buffer is reduced in its place. -/
theorem rewriteChecked_eq_ok (pmtPids : PidSet) {data old behind : Bytes}
    {start : Nat} (hstart : start ≤ data.length) (hold : IsSection old)
    (hdrop : data.drop start = old ++ behind) :
    rewriteChecked pmtPids data start (start + old.length) =
      .ok (replaceSection data start (reduceSection pmtPids old)) := by
  have hfront : (data.take start).length = start := by
    rw [List.length_take, Nat.min_eq_left hstart]
  have hlength := congrArg List.length hdrop
  rw [List.length_drop, List.length_append] at hlength
  rcases Layout.exists_of_isSection hold with ⟨l, rfl⟩
  rcases compactChecked_of_layout pmtPids l hstart hdrop with
    ⟨tail, hcompact, htail⟩
  have hlong := l.length_bytes
  have hkeptLength := l.length_entries_reduce_le pmtPids
  have hreduced := reduceSection_of_layout pmtPids l
  have hreducedLength := congrArg List.length hreduced
  rw [withTrailer, List.length_append, Crc.length_trailer] at hreducedLength
  have hheaderSize : sectionHeaderSize = 8 := rfl
  have htrailerSize : trailerSize = 4 := rfl
  -- From here on only the length of what follows the length field matters.
  generalize hafter : l.header ++
    (l.reduce pmtPids).entries.flatMap Entry.bytes = after
    at hcompact hreduced hreducedLength
  have hafterLength :
      after.length = 5 + 4 * (l.reduce pmtPids).entries.length := by
    rw [← hafter, List.length_append, length_flatMap_bytes, l.length_header]
    rfl
  simp only [List.length_cons, hafterLength] at hreducedLength
  have hclosed :=
    mended_sealed (data.take start) after tail l.tableId l.lengthHigh
      l.lengthLow (9 + 4 * (l.reduce pmtPids).entries.length) (by omega)
  have hout :
      start + sectionHeaderSize + 4 * (l.reduce pmtPids).entries.length =
      start + (after.length + 3) := by
    omega
  have hcount : start + (after.length + 3) + trailerSize - (start + 3) =
      9 + 4 * (l.reduce pmtPids).entries.length := by
    omega
  have hstuffing : tail.length - trailerSize =
      data.length - start - (reduceSection pmtPids l.bytes).length := by
    omega
  rw [hfront, ← hreduced, hstuffing] at hclosed
  rw [rewriteChecked, Checked.difference_of_le (by omega), Checked.ok_bind]
  dsimp only
  rw [hcompact, Checked.ok_bind]
  dsimp only
  rw [hout, Checked.difference_of_le (by omega), Checked.ok_bind, hcount,
    replaceSection, List.append_assoc]
  exact hclosed

/-!
## Reducing a run
-/

def joinedChecked (run : List PlacedPacket) : Checked Bytes := do
  let payloads ← run.mapM PlacedPacket.payload
  pure payloads.flatten

def spanOfChecked (run : List PlacedPacket) : Checked Span :=
  match run with
  | [] => pure .invalid
  | first :: _ => do
      let data ← joinedChecked run
      let payload ← first.payload
      locateChecked data payload.length

def layOverChecked (data : Bytes) (offset : Nat) :
    List PlacedPacket -> Checked (List PlacedPacket)
  | [] => pure []
  | p :: run => do
      let payload ← p.payload
      let content ← Checked.slice data offset (offset + payload.length)
      let p' ← p.writePayload content
      let run' ← layOverChecked data (offset + payload.length) run
      pure (p' :: run')

def reduceChecked? (pmtPids : PidSet) (run : List PlacedPacket) :
    Checked (Option (List PlacedPacket)) :=
  match run with
  | [] => pure none
  | first :: _ =>
      if !first.unitStart then pure none
      else do
        let payload ← first.payload
        let data ← joinedChecked run
        match ← locateChecked data payload.length with
        | .complete start stop => do
            let data' ← rewriteChecked pmtPids data start stop
            let run' ← layOverChecked data' 0 run
            pure (some run')
        | _ => pure none

theorem joinedChecked_placed (run : List Packet) :
    joinedChecked (run.map Packet.placed) = .ok (joined run) := by
  have hpayloads : (run.map Packet.placed).mapM PlacedPacket.payload =
      .ok (run.map Packet.payload) := by
    induction run with
    | nil => rfl
    | cons p run ih =>
        rw [List.map_cons, List.mapM_cons, Packet.payload_placed,
          Checked.ok_bind, ih]
        rfl
  rw [joinedChecked, hpayloads, Checked.ok_bind, joined, List.flatMap_def]
  rfl

theorem spanOfChecked_placed (run : List Packet) :
    spanOfChecked (run.map Packet.placed) = .ok (spanOf run) := by
  cases run with
  | nil => rfl
  | cons first later =>
      have hjoined := joinedChecked_placed (first :: later)
      rw [List.map_cons] at hjoined ⊢
      rw [spanOfChecked, hjoined, Checked.ok_bind, Packet.payload_placed,
        Checked.ok_bind, locateChecked_eq_ok]
      rfl

theorem layOverChecked_placed {data : Bytes} {run : List Packet} {offset : Nat}
    (h : offset + (joined run).length ≤ data.length) :
    layOverChecked data offset (run.map Packet.placed) =
      .ok ((layOver run (data.drop offset)).map Packet.placed) := by
  induction run generalizing offset with
  | nil => rfl
  | cons p run ih =>
      rw [joined_cons, List.length_append] at h
      have hcontent : ((data.drop offset).take p.payload.length).length =
          p.payload.length := by
        rw [List.length_take, List.length_drop]
        omega
      rw [List.map_cons, layOverChecked, Packet.payload_placed, Checked.ok_bind,
        Checked.slice_of_le (Nat.le_add_right _ _) (by omega), Checked.ok_bind,
        Nat.add_sub_cancel_left, Packet.writePayload_placed hcontent,
        Checked.ok_bind, ih (by omega), layOver_cons, List.drop_drop]
      rfl

theorem reduceSpan_placed (pmtPids : PidSet) {run : List Packet}
    {firstLength start stop : Nat}
    (h : Span.locate (joined run) firstLength = .complete start stop) :
    (rewriteChecked pmtPids (joined run) start stop >>= fun data =>
        layOverChecked data 0 (run.map Packet.placed)) =
      .ok ((reduceSpan pmtPids run start stop).value.map Packet.placed) := by
  rcases locate_eq_complete h with
    ⟨pointer, rest, old, behind, hdata, hstart, hfirst, hold, rfl, hdrop⟩
  have hlength := congrArg List.length hdrop
  rw [List.length_drop, List.length_append] at hlength
  have hlong := hold.right
  have hheaderSize : sectionHeaderSize = 8 := rfl
  have htaken : ((joined run).drop start).take (start + old.length - start) =
      old := by
    rw [Nat.add_sub_cancel_left, hdrop, List.take_left]
  have hshorter := (reduceSection_of_isSection hold pmtPids).right.left
  have hkeeps :
      (replaceSection (joined run) start (reduceSection pmtPids old)).length =
      (joined run).length := length_replaceSection (by omega)
  rw [rewriteChecked_eq_ok pmtPids (by omega) hold hdrop, Checked.ok_bind,
    layOverChecked_placed (by rw [hkeeps]; omega), List.drop_zero, reduceSpan]
  dsimp only
  rw [htaken]

theorem reduceChecked?_placed (pmtPids : PidSet) (run : List Packet) :
    reduceChecked? pmtPids (run.map Packet.placed) =
      .ok ((reduce? pmtPids run).value.map (·.map Packet.placed)) := by
  cases run with
  | nil => rfl
  | cons first later =>
      have hjoined := joinedChecked_placed (first :: later)
      unfold reduceChecked? reduce?
      rw [List.map_cons] at hjoined ⊢
      dsimp only
      rw [Packet.unitStart_placed]
      by_cases hstart : (!first.unitStart) = true
      · rw [if_pos hstart, if_pos hstart]
        rfl
      rw [if_neg hstart, if_neg hstart, Packet.payload_placed, Checked.ok_bind,
        hjoined, Checked.ok_bind, locateChecked_eq_ok, Checked.ok_bind, spanOf]
      cases hspan : Span.locate (joined (first :: later))
        first.payload.length with
      | unfinished => rfl
      | invalid => rfl
      | complete start stop =>
          have hreduce := reduceSpan_placed pmtPids hspan
          rw [List.map_cons] at hreduce
          dsimp only
          rw [← bind_assoc, hreduce]
          rfl

end Pat
end TransportStream
