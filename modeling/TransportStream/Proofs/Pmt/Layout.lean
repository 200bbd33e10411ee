import TransportStream.Proofs.Pat.Layout
import TransportStream.Proofs.Pmt.Positions

/-!
# Program maps laid out as sections

In a section the fields of a program map stand beside bits that nothing reads,
ahead of a checksum that is not looked at.  Whatever these are, the section is
decoded to the map.
-/

namespace TransportStream

/-!
## Numbers beside reserved bits
-/

def pidBytes (reserved : Fin 8) (pid : Nat) : Bytes :=
  [lowByte (reserved * 32 + pid / 256), lowByte pid]

def lengthBytes (reserved : Fin 16) (length : Nat) : Bytes :=
  [lowByte (reserved * 16 + length / 256), lowByte length]

theorem pidField_lowByte (high : Nat) {pid : Nat} (h : pid < 0x2000) :
    pidField (lowByte (high * 32 + pid / 256)) (lowByte pid) = pid := by
  simp only [pidField, word, lowByte, UInt8.toNat_ofNat']
  lia

theorem word_lowByte {n : Nat} (h : n < 0x10000) :
    word (lowByte (n / 256)) (lowByte n) = n := by
  simp only [word, lowByte, UInt8.toNat_ofNat']
  lia

def versionByte (reserved : Fin 4) (version : Fin 0x20) (current : Bool) :
    UInt8 :=
  lowByte (reserved * 64 + version * 2 + current.toNat)

theorem field_versionByte (reserved : Fin 4) (version : Fin 0x20)
    (current : Bool) :
    field (versionByte reserved version current) 1 5 = version := by
  have hcurrent := current.toNat_lt
  simp only [field, versionByte, lowByte, UInt8.toNat_ofNat']
  lia

theorem flag_versionByte (reserved : Fin 4) (version : Fin 0x20)
    (current : Bool) :
    flag (versionByte reserved version current) 0 = current := by
  have hfield : field (versionByte reserved version current) 0 1 =
      current.toNat := by
    have hcurrent := current.toNat_lt
    simp only [field, versionByte, lowByte, UInt8.toNat_ofNat']
    lia
  rw [flag, hfield]
  cases current with
  | false => rfl
  | true => rfl

/-!
## Entries
-/

namespace ElementaryStream

structure Layout where
  stream : ElementaryStream
  pidReserved : Fin 8
  lengthReserved : Fin 16
  pid_lt : stream.pid < 0x2000
  length_info_lt : stream.info.bytes.length < 0x1000

namespace Layout

def bytes (l : Layout) : Bytes :=
  l.stream.code :: (pidBytes l.pidReserved l.stream.pid ++
    (lengthBytes l.lengthReserved l.stream.info.bytes.length ++
      l.stream.info.bytes))

theorem scan_bytes_append (l : Layout) (rest : Bytes) :
    scan (l.bytes ++ rest) = (l.stream :: (scan rest).1, (scan rest).2) := by
  have hroom :
      ¬ (l.stream.info.bytes ++ rest).length < l.stream.info.bytes.length := by
    rw [List.length_append]
    lia
  simp only [bytes, pidBytes, lengthBytes, List.cons_append, List.nil_append]
  rw [scan, pidField_lowByte _ l.pid_lt,
    Pat.lengthField_lowByte _ l.length_info_lt, if_neg hroom]
  dsimp only
  rw [List.take_left, List.drop_left]

theorem scan_flatMap_bytes (entries : List Layout) :
    scan (entries.flatMap bytes) = (entries.map stream, []) := by
  induction entries with
  | nil => exact scan_of_few (by decide)
  | cons l entries ih =>
      rw [List.flatMap_cons, scan_bytes_append, ih, List.map_cons]

end Layout
end ElementaryStream

/-!
## Sections
-/

namespace Pmt

structure Layout where
  lengthHigh : UInt8
  lengthLow : UInt8
  extension : Fin 0x10000
  versionReserved : Fin 4
  version : Fin 0x20
  current : Bool
  number : UInt8
  lastNumber : UInt8
  clockReserved : Fin 8
  clockPid : Fin 0x2000
  infoReserved : Fin 16
  info : DescriptorLoop
  entries : List ElementaryStream.Layout
  trailer : Bytes
  length_info_lt : info.bytes.length < 0x1000
  length_trailer : trailer.length = trailerSize

namespace Layout

variable (l : Layout)

def table : Pmt where
  header :=
    { tableId := 2
      extension := l.extension
      version := l.version
      current := l.current
      number := l.number.toNat
      lastNumber := l.lastNumber.toNat }
  clockPid := l.clockPid
  info := l.info
  streams := l.entries.map ElementaryStream.Layout.stream

def front : Bytes :=
  [0x02, l.lengthHigh, l.lengthLow, lowByte (l.extension / 256),
    lowByte l.extension, versionByte l.versionReserved l.version l.current,
    l.number, l.lastNumber] ++
    (pidBytes l.clockReserved l.clockPid ++
      lengthBytes l.infoReserved l.info.bytes.length)

def bytes : Bytes :=
  l.front ++ (l.info.bytes ++ l.entries.flatMap ElementaryStream.Layout.bytes ++
    l.trailer)

theorem length_front : l.front.length = headerSize := rfl

theorem front_append (rest : Bytes) :
    SectionHeader.parse (l.front ++ rest) = .ok l.table.header ∧
      clockField (l.front ++ rest) = l.clockPid ∧
      infoLength (l.front ++ rest) = l.info.bytes.length := by
  refine ⟨?_, pidField_lowByte _ l.clockPid.isLt,
    Pat.lengthField_lowByte _ l.length_info_lt⟩
  show Except.ok _ = _
  rw [word_lowByte l.extension.isLt, field_versionByte, flag_versionByte]
  rfl

theorem length_bytes :
    l.bytes.length = headerSize +
      (l.info.bytes ++ l.entries.flatMap ElementaryStream.Layout.bytes).length +
        trailerSize := by
  rw [bytes, List.length_append, length_front, List.length_append,
    l.length_trailer, Nat.add_assoc]

theorem content_bytes :
    content l.bytes =
      l.info.bytes ++ l.entries.flatMap ElementaryStream.Layout.bytes := by
  rw [content, length_bytes, Nat.add_assoc, Nat.add_sub_cancel_left,
    Nat.add_sub_cancel, bytes, List.drop_left' l.length_front, List.take_left]

theorem decode_bytes : decode l.bytes = .ok l.table := by
  have hlong : ¬ l.bytes.length < headerSize + trailerSize := by
    rw [length_bytes]
    lia
  have hroom :
      ¬ (l.info.bytes ++
      l.entries.flatMap ElementaryStream.Layout.bytes).length <
      l.info.bytes.length := by
    rw [List.length_append]
    lia
  have hhead : l.bytes.head? = some tableId := rfl
  rcases l.front_append
    (l.info.bytes ++ l.entries.flatMap ElementaryStream.Layout.bytes ++
      l.trailer) with
    ⟨hparse, hclock, hinfo⟩
  unfold decode
  rw [if_neg hlong, if_neg (not_not_intro hhead), streamsAndRest, content_bytes,
    bytes, hparse, hclock, hinfo, List.take_left, List.drop_left,
    ElementaryStream.Layout.scan_flatMap_bytes]
  exact if_neg hroom

end Layout

/-- A section is rejected exactly if it is too short, is another table, or has
no room for the descriptors of its program.  Any other is decoded to the table
that stands in it, with as many streams as are complete, and a table that is
laid out as a section is decoded to itself. -/
theorem decode_reads_longest_run :
    (forall bytes, (exists e, decode bytes = .error e) ↔ IsRejected bytes) ∧
      (forall bytes t, decode bytes = .ok t ↔
        ¬ IsRejected bytes ∧ IsTableOf bytes t) ∧
      forall l : Layout, decode l.bytes = .ok l.table :=
  ⟨decode_eq_error_iff, decode_eq_ok_iff, Layout.decode_bytes⟩

def twoStreams : Layout where
  lengthHigh := 0xB0
  lengthLow := 0x1E
  extension := 0x0400
  versionReserved := 3
  version := 0
  current := true
  number := 0
  lastNumber := 0
  clockReserved := 7
  clockPid := 0x01FF
  infoReserved := 0xF
  info := ⟨[0x09, 0x01, 0xAA]⟩
  entries := [⟨⟨0x02, 0x0111, ⟨[]⟩⟩, 7, 0xF, by decide, by decide⟩,
    ⟨⟨0x0F, 0x0112, ⟨[0x52, 0x02, 0x10, 0x00]⟩⟩, 7, 0xF, by decide, by decide⟩]
  trailer := [0x00, 0x00, 0x00, 0x00]
  length_info_lt := by decide
  length_trailer := rfl

theorem decode_reads_two_streams :
    decode twoStreams.bytes = .ok twoStreams.table ∧
    ¬ IsRejected twoStreams.bytes ∧
      IsTableOf twoStreams.bytes twoStreams.table ∧
      exists e, decode (twoStreams.bytes.take 15) = .error e := by
  rcases decode_reads_longest_run with ⟨hrejected, hread, hlaidOut⟩
  have hdecode := hlaidOut twoStreams
  rcases (hread _ _).mp hdecode with ⟨haccepted, htable⟩
  exact ⟨hdecode, haccepted, htable, (hrejected _).mpr (Or.inl (by decide))⟩

end Pmt
end TransportStream
