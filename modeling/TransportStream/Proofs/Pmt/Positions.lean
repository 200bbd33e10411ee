import TransportStream.Proofs.Bounds.Table

/-!
# Program maps by position

The header and the descriptors of a program map stand at fixed positions.  Its
entries stand one behind the other, every one with a length of its own, and are
read up to the first that is not complete ahead of the checksum.
-/

namespace TransportStream

def pidFieldAt (bytes : Bytes) (i : Nat) : Nat :=
  pidField (bytes.getD i 0) (bytes.getD (i + 1) 0)

def lengthFieldAt (bytes : Bytes) (i : Nat) : Nat :=
  lengthField (bytes.getD i 0) (bytes.getD (i + 1) 0)

theorem getD_drop (bytes : Bytes) (i k : Nat) :
    (bytes.drop i).getD k 0 = bytes.getD (i + k) 0 := by
  rw [List.getD_eq_getElem?_getD, List.getElem?_drop,
    List.getD_eq_getElem?_getD]

/-!
## Entries by position
-/

namespace ElementaryStream

def stopAt (bytes : Bytes) (i : Nat) : Nat :=
  i + 5 + lengthFieldAt bytes (i + 3)

def readAt (bytes : Bytes) (i : Nat) : ElementaryStream where
  code := bytes.getD i 0
  pid := pidFieldAt bytes (i + 1)
  info := ⟨(bytes.drop (i + 5)).take (lengthFieldAt bytes (i + 3))⟩

/-- Entries that stand one behind the other from one position to another. -/
inductive Tiles (bytes : Bytes) :
    Nat -> List ElementaryStream -> Nat -> Prop where
  | nil (i : Nat) : Tiles bytes i [] i
  | cons {i j : Nat} {later : List ElementaryStream}
    (h : Tiles bytes (stopAt bytes i) later j) :
      Tiles bytes i (readAt bytes i :: later) j

/-- As many entries from a position as are complete ahead of another. -/
def TilesUpTo (bytes : Bytes) (stop i : Nat) (streams : List ElementaryStream) :
    Prop :=
  exists j, Tiles bytes i streams j ∧ j ≤ stop ∧ stop < stopAt bytes j

theorem lt_stopAt (bytes : Bytes) (i : Nat) : i < stopAt bytes i := by
  unfold stopAt
  lia

theorem Tiles.le {bytes : Bytes} {i j : Nat} {streams : List ElementaryStream}
    (h : Tiles bytes i streams j) : i ≤ j := by
  induction h with
  | nil i => exact Nat.le_refl i
  | cons _ ih => exact Nat.le_trans (Nat.le_of_lt (lt_stopAt bytes _)) ih

theorem TilesUpTo.cons {bytes : Bytes} {stop i : Nat}
    {later : List ElementaryStream}
    (h : TilesUpTo bytes stop (stopAt bytes i) later) :
    TilesUpTo bytes stop i (readAt bytes i :: later) := by
  rcases h with ⟨j, htiles, hj, hstop⟩
  exact ⟨j, htiles.cons, hj, hstop⟩

theorem TilesUpTo.unique {bytes : Bytes} {stop i : Nat}
    {streams streams' : List ElementaryStream}
    (h : TilesUpTo bytes stop i streams)
    (h' : TilesUpTo bytes stop i streams') :
    streams = streams' := by
  rcases h with ⟨j, htiles, hj, hstop⟩
  rcases h' with ⟨j', htiles', hj', hstop'⟩
  -- An entry that only one of the two lists has ends both behind the stop and
  -- ahead of it.
  induction htiles generalizing streams' with
  | nil i =>
      cases htiles' with
      | nil => rfl
      | cons hlater =>
          have hle := hlater.le
          lia
  | cons hlater ih =>
      cases htiles' with
      | nil =>
          have hle := hlater.le
          lia
      | cons hlater' => rw [ih hj hstop hlater']

theorem scan_of_few {window : Bytes} (h : window.length < 5) :
    scan window = ([], window) := by
  unfold scan
  split
  · simp only [List.length_cons] at h
    lia
  · rfl

theorem exists_entry_of_length {window : Bytes} (h : 5 ≤ window.length) :
    exists code pidHigh pidLow lengthHigh lengthLow rest,
      window = code :: pidHigh :: pidLow :: lengthHigh :: lengthLow ::
        rest := by
  match window, h with
  | code :: pidHigh :: pidLow :: lengthHigh :: lengthLow :: rest, _ =>
      exact ⟨code, pidHigh, pidLow, lengthHigh, lengthLow, rest, rfl⟩

theorem entry_of_drop {bytes rest : Bytes}
    {code pidHigh pidLow lengthHigh lengthLow : UInt8} {i : Nat}
    (h : bytes.drop i =
      code :: pidHigh :: pidLow :: lengthHigh :: lengthLow :: rest) :
    stopAt bytes i = i + 5 + lengthField lengthHigh lengthLow ∧
      readAt bytes i =
        ⟨code, pidField pidHigh pidLow,
          ⟨rest.take (lengthField lengthHigh lengthLow)⟩⟩ := by
  have hread (k : Nat) : bytes.getD (i + k) 0 =
      (code :: pidHigh :: pidLow :: lengthHigh :: lengthLow :: rest).getD
        k 0 := by
    rw [← h, getD_drop]
  have hcode : bytes.getD i 0 = code := hread 0
  have hpid : pidFieldAt bytes (i + 1) = pidField pidHigh pidLow :=
    congrArg₂ pidField (hread 1) (hread 2)
  have hsize : lengthFieldAt bytes (i + 3) = lengthField lengthHigh lengthLow :=
    congrArg₂ lengthField (hread 3) (hread 4)
  have hinfo : bytes.drop (i + 5) = rest := by
    rw [← List.drop_drop, h]
    rfl
  rw [stopAt, readAt, hcode, hpid, hsize, hinfo]
  exact ⟨rfl, rfl⟩

/-- The entry at the front of the bytes from one position to another is read by
position. -/
theorem scan_window {bytes : Bytes} {stop i : Nat} (hstop : stop ≤ bytes.length)
    (hi : i ≤ stop) :
    (scan ((bytes.take stop).drop i)).1 =
      if stop < stopAt bytes i then []
      else readAt bytes i ::
        (scan ((bytes.take stop).drop (stopAt bytes i))).1 := by
  have hlength := length_window hstop i
  by_cases hfew : stop < i + 5
  · rw [scan_of_few (by lia), if_pos (by unfold stopAt; lia)]
  have hroom : 5 ≤ ((bytes.take stop).drop i).length := by lia
  rcases exists_entry_of_length hroom with
    ⟨code, pidHigh, pidLow, lengthHigh, lengthLow, rest, hwindow⟩
  have hdrop :
      bytes.drop i = code :: pidHigh :: pidLow :: lengthHigh :: lengthLow ::
      (rest ++ bytes.drop stop) := by
    rw [drop_eq_window_append hstop hi, hwindow]
    rfl
  rcases entry_of_drop hdrop with ⟨hend, hentry⟩
  have hlater : (bytes.take stop).drop (stopAt bytes i) =
      rest.drop (lengthField lengthHigh lengthLow) := by
    rw [hend, ← List.drop_drop, ← List.drop_drop, hwindow]
    rfl
  rw [hwindow] at hlength
  simp only [List.length_cons] at hlength
  rw [hlater, hwindow, scan, hend, hentry]
  -- The bytes behind the window are there too, but no complete entry reaches
  -- them.
  by_cases hshort : rest.length < lengthField lengthHigh lengthLow
  · rw [if_pos hshort, if_pos (by lia)]
  · rw [if_neg hshort, if_neg (by lia),
      List.take_append_of_le_length (Nat.le_of_not_lt hshort)]

theorem tilesUpTo_scan {bytes : Bytes} {stop i : Nat}
    (hstop : stop ≤ bytes.length) (hi : i ≤ stop) :
    TilesUpTo bytes stop i (scan ((bytes.take stop).drop i)).1 := by
  rw [scan_window hstop hi]
  split
  · rename_i hend
    exact ⟨i, .nil i, hi, hend⟩
  · rename_i hmore
    exact (tilesUpTo_scan hstop (Nat.le_of_not_lt hmore)).cons
termination_by stop - i
decreasing_by
  have hlt := lt_stopAt bytes i
  lia

end ElementaryStream

/-!
## Tables by position
-/

def SectionHeader.ofPositions (bytes : Bytes) : SectionHeader where
  tableId := (bytes.getD 0 0).toNat
  extension := word (bytes.getD 3 0) (bytes.getD 4 0)
  version := field (bytes.getD 5 0) 1 5
  current := flag (bytes.getD 5 0) 0
  number := (bytes.getD 6 0).toNat
  lastNumber := (bytes.getD 7 0).toNat

namespace Pmt

open ElementaryStream

/-- A byte string that is too short, is another table, or has no room for the
descriptors that it announces for its program. -/
def IsRejected (bytes : Bytes) : Prop :=
  bytes.length < 16 ∨ bytes.getD 0 0 ≠ 2 ∨
  bytes.length - 4 < 12 + lengthFieldAt bytes 10

structure IsTableOf (bytes : Bytes) (t : Pmt) : Prop where
  header_eq : t.header = .ofPositions bytes
  clockPid_eq : t.clockPid = pidFieldAt bytes 8
  info_eq : t.info = ⟨(bytes.drop 12).take (lengthFieldAt bytes 10)⟩
  streams_tile :
    TilesUpTo bytes (bytes.length - 4) (12 + lengthFieldAt bytes 10) t.streams

theorem IsTableOf.unique {bytes : Bytes} {t t' : Pmt} (h : IsTableOf bytes t)
    (h' : IsTableOf bytes t') : t = t' := by
  have hstreams := h.streams_tile.unique h'.streams_tile
  have hheader := h.header_eq.trans h'.header_eq.symm
  have hclock := h.clockPid_eq.trans h'.clockPid_eq.symm
  have hinfo := h.info_eq.trans h'.info_eq.symm
  cases t
  cases t'
  cases hstreams
  cases hheader
  cases hclock
  cases hinfo
  rfl

theorem header_of_length {bytes : Bytes} (h : 12 ≤ bytes.length) :
    SectionHeader.parse bytes = .ok (.ofPositions bytes) ∧
      bytes.head? = some (bytes.getD 0 0) ∧
      clockField bytes = pidFieldAt bytes 8 ∧
      infoLength bytes = lengthFieldAt bytes 10 := by
  match bytes, h with
  | a :: b :: c :: d :: e :: f :: g :: i :: j :: k :: l :: m :: rest, _ =>
      exact ⟨rfl, rfl, rfl, rfl⟩

def ofPositions (bytes : Bytes) : Pmt where
  header := .ofPositions bytes
  clockPid := pidFieldAt bytes 8
  info := ⟨(bytes.drop 12).take (lengthFieldAt bytes 10)⟩
  streams :=
    (scan ((bytes.take (bytes.length - 4)).drop
      (12 + lengthFieldAt bytes 10))).1

theorem decode_eq (bytes : Bytes) :
    decode bytes =
      if bytes.length < 16 then .error (.malformed .shortPmt)
      else if bytes.getD 0 0 ≠ 2 then .error (.malformed .notPmt)
      else if bytes.length - 4 < 12 + lengthFieldAt bytes 10 then
        .error (.malformed .longProgramInfo)
      else .ok (ofPositions bytes) := by
  unfold decode
  by_cases hshort : bytes.length < headerSize + trailerSize
  · rw [if_pos hshort]
    exact (if_pos hshort).symm
  have hlength : ¬ bytes.length < 16 := hshort
  have hwords : 12 ≤ bytes.length := by lia
  rcases header_of_length hwords with ⟨hparse, hhead, hclock, hinfo⟩
  have htable : bytes.head? = some tableId ↔ bytes.getD 0 0 = 2 := by
    rw [hhead, Option.some.injEq]
    rfl
  rw [if_neg hshort, if_neg hlength, hparse]
  by_cases hid : bytes.getD 0 0 = 2
  · have hcontent := length_content bytes
    rw [if_neg (not_not_intro (htable.mpr hid)), if_neg (not_not_intro hid)]
    show (if (content bytes).length < infoLength bytes then _ else _) = _
    rw [streamsAndRest, hinfo, hclock]
    by_cases hlong : (content bytes).length < lengthFieldAt bytes 10
    · rw [if_pos hlong,
        if_pos (by simp only [headerSize, trailerSize] at hcontent; lia)]
    · rw [if_neg hlong,
        if_neg (by simp only [headerSize, trailerSize] at hcontent; lia),
        take_content (Nat.le_of_not_lt hlong), drop_content]
      rfl
  · rw [if_pos (fun heq => hid (htable.mp heq)), if_pos hid]

theorem exists_error_of_rejected {bytes : Bytes} (h : IsRejected bytes) :
    exists e, decode bytes = .error e := by
  rw [decode_eq]
  split
  · exact ⟨_, rfl⟩
  split
  · exact ⟨_, rfl⟩
  split
  · exact ⟨_, rfl⟩
  · rename_i hlong hid hroom
    exact absurd h (not_or.mpr ⟨hlong, not_or.mpr ⟨hid, hroom⟩⟩)

theorem decode_of_not_rejected {bytes : Bytes} (h : ¬ IsRejected bytes) :
    decode bytes = .ok (ofPositions bytes) := by
  rw [IsRejected, not_or, not_or] at h
  rw [decode_eq, if_neg h.left, if_neg h.right.left, if_neg h.right.right]

theorem isTableOf_ofPositions {bytes : Bytes} (h : ¬ IsRejected bytes) :
    IsTableOf bytes (ofPositions bytes) := by
  rw [IsRejected, not_or, not_or, Nat.not_lt, Nat.not_lt] at h
  exact ⟨rfl, rfl, rfl, tilesUpTo_scan (Nat.sub_le _ _) h.right.right⟩

theorem decode_eq_ok_iff (bytes : Bytes) (t : Pmt) :
    decode bytes = .ok t ↔ ¬ IsRejected bytes ∧ IsTableOf bytes t := by
  constructor
  · intro h
    have haccepted : ¬ IsRejected bytes := by
      intro hrejected
      rcases exists_error_of_rejected hrejected with ⟨e, he⟩
      cases h.symm.trans he
    cases h.symm.trans (decode_of_not_rejected haccepted)
    exact ⟨haccepted, isTableOf_ofPositions haccepted⟩
  · rintro ⟨haccepted, htable⟩
    rw [decode_of_not_rejected haccepted,
      htable.unique (isTableOf_ofPositions haccepted)]

theorem decode_eq_error_iff (bytes : Bytes) :
    (exists e, decode bytes = .error e) ↔ IsRejected bytes := by
  constructor
  · rintro ⟨e, he⟩
    by_contra haccepted
    cases he.symm.trans (decode_of_not_rejected haccepted)
  · exact exists_error_of_rejected

end Pmt
end TransportStream
