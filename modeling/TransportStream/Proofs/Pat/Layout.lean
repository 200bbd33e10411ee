import TransportStream.Pat.Reduce
import TransportStream.Proofs.Crc

/-!
# The fields of an association section

A section that announces its own size and has room for a header and a checksum
is its fields laid one behind the other: header, entries, up to three stray
bytes and the checksum.
-/

namespace TransportStream
namespace Pat

/-!
## Entries
-/

theorem entries_flatMap_bytes (kept : List Entry) (tail : Bytes) :
    entries (kept.flatMap Entry.bytes ++ tail) = kept ++ entries tail := by
  induction kept with
  | nil => rfl
  | cons e kept ih => exact congrArg (e :: ·) ih

theorem length_flatMap_bytes (kept : List Entry) :
    (kept.flatMap Entry.bytes).length = 4 * kept.length := by
  induction kept with
  | nil => rfl
  | cons e kept ih =>
      rw [List.flatMap_cons, List.length_append, ih, List.length_cons,
        Nat.mul_succ, Nat.add_comm]
      rfl

theorem length_entries (bytes : Bytes) :
    4 * (entries bytes).length ≤ bytes.length := by
  fun_induction entries bytes with
  | case1 a b c d rest ih =>
      simp only [List.length_cons]
      lia
  | case2 bytes hshort => exact Nat.zero_le bytes.length

theorem length_lt_of_not_entry {bytes : Bytes}
    (h : forall a b c d rest, bytes = a :: b :: c :: d :: rest -> False) :
    bytes.length < 4 := by
  rcases bytes with _ | ⟨a, _ | ⟨b, _ | ⟨c, _ | ⟨d, rest⟩⟩⟩⟩
  case cons.cons.cons.cons => exact absurd rfl (h a b c d rest)
  all_goals
    simp only [List.length_cons, List.length_nil]
    lia

theorem entries_of_short {bytes : Bytes} (h : bytes.length < 4) :
    entries bytes = [] := by
  have hlength := length_entries bytes
  apply List.eq_nil_of_length_eq_zero
  lia

theorem exists_stray (bytes : Bytes) :
    exists stray : Bytes, stray.length < 4 ∧
      (entries bytes).flatMap Entry.bytes ++ stray = bytes := by
  fun_induction entries bytes with
  | case1 a b c d rest ih =>
      rcases ih with ⟨stray, hshort, hrest⟩
      exact ⟨stray, hshort, congrArg (a :: b :: c :: d :: ·) hrest⟩
  | case2 bytes hshort => exact ⟨bytes, length_lt_of_not_entry hshort, rfl⟩

/-!
## Sections with a header and a checksum
-/

/-- A byte string that is exactly one section, long enough for a header and a
checksum. -/
def IsSection (old : Bytes) : Prop :=
  announcedSize? old = some old.length ∧
  sectionHeaderSize + trailerSize ≤ old.length

theorem exists_header_of_length {old : Bytes}
    (h : sectionHeaderSize + trailerSize ≤ old.length) :
    exists tableId hi lo extensionHigh extensionLow version number
      lastNumber rest,
      old = tableId :: hi :: lo :: extensionHigh :: extensionLow :: version ::
        number ::
        lastNumber :: rest ∧ trailerSize ≤ rest.length := by
  rcases old with
    _ | ⟨a, _ | ⟨b, _ | ⟨c, _ | ⟨d, _ | ⟨e, _ | ⟨f, _ | ⟨g, _ | ⟨i, rest⟩⟩⟩⟩⟩⟩⟩⟩
  case cons.cons.cons.cons.cons.cons.cons.cons =>
    refine ⟨a, b, c, d, e, f, g, i, rest, rfl, ?_⟩
    simp only [List.length_cons, sectionHeaderSize] at h
    lia
  all_goals
    simp only [List.length_cons, List.length_nil, sectionHeaderSize,
      trailerSize] at h
    lia

theorem lengthField_lowByte (high : Nat) {length : Nat} (h : length < 0x1000) :
    lengthField (lowByte (high * 16 + length / 256)) (lowByte length) =
      length := by
  simp only [lengthField, word, lowByte, UInt8.toNat_ofNat']
  lia

theorem field_lowByte {high low : Nat} (hhigh : high < 16) (hlow : low < 16) :
    field (lowByte (high * 16 + low)) 4 4 = high := by
  simp only [field, lowByte, UInt8.toNat_ofNat']
  lia

/-!
## The content of a section
-/

@[ext]
structure Content where
  tableId : UInt8
  lengthHigh : UInt8
  lengthLow : UInt8
  header : Bytes
  entries : List Entry
  length_header : header.length = sectionHeaderSize - 3

namespace Content

def bytes (c : Content) : Bytes :=
  c.tableId :: c.lengthHigh :: c.lengthLow ::
    (c.header ++ c.entries.flatMap Entry.bytes)

def withEntries (c : Content) (kept : List Entry) : Content where
  tableId := c.tableId
  lengthHigh :=
    lowByte (field c.lengthHigh 4 4 * 16 + (9 + 4 * kept.length) / 256)
  lengthLow := lowByte (9 + 4 * kept.length)
  header := c.header
  entries := kept
  length_header := c.length_header

theorem length_bytes (c : Content) :
    c.bytes.length = 8 + 4 * c.entries.length := by
  simp only [bytes, List.length_cons, List.length_append, c.length_header,
    length_flatMap_bytes, sectionHeaderSize]
  lia

theorem withEntries_bytes (c : Content) (kept : List Entry) (more : Bytes) :
    Pat.withEntries (c.bytes ++ more) kept = (c.withEntries kept).bytes := by
  have hlength : sectionHeaderSize - 3 + 4 * kept.length + trailerSize =
      9 + 4 * kept.length :=
    Nat.add_right_comm _ _ _
  have hheader : (c.header ++ c.entries.flatMap Entry.bytes ++ more).take
      (sectionHeaderSize - 3) = c.header := by
    rw [List.append_assoc, List.take_left' c.length_header]
  show Pat.withEntries (c.tableId :: c.lengthHigh :: c.lengthLow ::
    (c.header ++ c.entries.flatMap Entry.bytes ++ more)) kept = _
  rw [Pat.withEntries, hlength, hheader]
  rfl

def sectionHeader (c : Content) : SectionHeader where
  tableId := c.tableId.toNat
  extension := word (c.header.getD 0 0) (c.header.getD 1 0)
  version := field (c.header.getD 2 0) 1 5
  current := flag (c.header.getD 2 0) 0
  number := (c.header.getD 3 0).toNat
  lastNumber := (c.header.getD 4 0).toNat

theorem parse_bytes (c : Content) (more : Bytes) :
    SectionHeader.parse (c.bytes ++ more) = .ok c.sectionHeader := by
  rcases c with ⟨tableId, lengthHigh, lengthLow, header, entries, hheader⟩
  rcases header with _ | ⟨a, _ | ⟨b, _ | ⟨c, _ | ⟨d, _ | ⟨e, _ | ⟨f, rest⟩⟩⟩⟩⟩⟩
  case cons.cons.cons.cons.cons.nil => rfl
  all_goals
    simp only [List.length_cons, List.length_nil, sectionHeaderSize] at hheader
    lia

section Length

variable (c : Content) {kept : List Entry} (h : 9 + 4 * kept.length < 0x1000)

include h

theorem lengthField_withEntries :
    lengthField (c.withEntries kept).lengthHigh (c.withEntries kept).lengthLow =
      9 + 4 * kept.length :=
  lengthField_lowByte (field c.lengthHigh 4 4) h

theorem field_withEntries :
    field (c.withEntries kept).lengthHigh 4 4 = field c.lengthHigh 4 4 := by
  apply field_lowByte (field_lt c.lengthHigh 4 4)
  lia

theorem withEntries_withEntries (other : List Entry) :
    (c.withEntries kept).withEntries other = c.withEntries other := by
  ext1
  · rfl
  · show lowByte (field (c.withEntries kept).lengthHigh 4 4 * 16 + _) = _
    rw [field_withEntries c h]
    rfl
  · rfl
  · rfl
  · rfl

end Length

/-- The length determines both of its bytes, but for the four bits beside it. -/
theorem withEntries_self {c : Content}
    (h : lengthField c.lengthHigh c.lengthLow = 9 + 4 * c.entries.length) :
    c.withEntries c.entries = c := by
  have hhigh := c.lengthHigh.toNat_lt
  have hlow := c.lengthLow.toNat_lt
  simp only [lengthField, word] at h
  ext1
  · rfl
  · rw [← UInt8.toNat_inj]
    simp only [withEntries, field, lowByte, UInt8.toNat_ofNat']
    lia
  · rw [← UInt8.toNat_inj]
    simp only [withEntries, lowByte, UInt8.toNat_ofNat']
    lia
  · rfl
  · rfl

end Content

/-!
## The layout of a section
-/

structure Layout extends Content where
  stray : Bytes
  trailer : Bytes
  length_stray : stray.length < 4
  length_trailer : trailer.length = trailerSize
  lengthField_eq :
    lengthField lengthHigh lengthLow = 9 + 4 * entries.length + stray.length

namespace Layout

def bytes (l : Layout) : Bytes :=
  l.toContent.bytes ++ (l.stray ++ l.trailer)

theorem eq_of_content {l l' : Layout} (hcontent : l.toContent = l'.toContent)
    (hstray : l.stray = l'.stray) (htrailer : l.trailer = l'.trailer) :
    l = l' := by
  cases l
  cases l'
  cases hcontent
  cases hstray
  cases htrailer
  rfl

theorem length_bytes (l : Layout) :
    l.bytes.length = 12 + 4 * l.entries.length + l.stray.length := by
  rw [bytes, List.length_append, List.length_append, l.toContent.length_bytes,
    l.length_trailer, trailerSize]
  lia

theorem announcedSize?_bytes (l : Layout) :
    announcedSize? l.bytes = some l.bytes.length := by
  show some (lengthField l.lengthHigh l.lengthLow + 3) = _
  rw [l.lengthField_eq, l.length_bytes]
  congr 1
  lia

theorem isSection_bytes (l : Layout) : IsSection l.bytes := by
  refine ⟨l.announcedSize?_bytes, ?_⟩
  rw [l.length_bytes]
  simp only [sectionHeaderSize, trailerSize]
  lia

theorem bytes_eq_append (l : Layout) :
    l.bytes = (l.tableId :: l.lengthHigh :: l.lengthLow :: l.header) ++
      (l.entries.flatMap Entry.bytes ++ l.stray ++ l.trailer) := by
  simp only [bytes, Content.bytes, List.cons_append, List.append_assoc]

theorem take_bytes (l : Layout) :
    l.bytes.take sectionHeaderSize = l.tableId :: l.lengthHigh :: l.lengthLow ::
      l.header := by
  rw [bytes_eq_append]
  exact List.take_left' (congrArg (· + 3) l.length_header)

theorem drop_bytes (l : Layout) :
    l.bytes.drop sectionHeaderSize = l.entries.flatMap Entry.bytes ++ l.stray ++
      l.trailer := by
  rw [bytes_eq_append]
  exact List.drop_left' (congrArg (· + 3) l.length_header)

theorem entryBytes_bytes (l : Layout) :
    entryBytes l.bytes = l.entries.flatMap Entry.bytes ++ l.stray := by
  have hlength : l.bytes.length - sectionHeaderSize - trailerSize =
      (l.entries.flatMap Entry.bytes ++ l.stray).length := by
    rw [l.length_bytes, List.length_append, length_flatMap_bytes]
    simp only [sectionHeaderSize, trailerSize]
    lia
  rw [entryBytes, hlength, drop_bytes, List.take_left]

theorem entries_entryBytes (l : Layout) :
    Pat.entries (entryBytes l.bytes) = l.entries := by
  rw [entryBytes_bytes, entries_flatMap_bytes, entries_of_short l.length_stray,
    List.append_nil]

theorem decode_bytes (l : Layout) :
    decode l.bytes =
      if l.tableId = Pat.tableId then
        .ok ⟨l.toContent.sectionHeader, l.entries.map Entry.association⟩
      else .error (.malformed .notPat) := by
  have hhead : l.bytes.head? = some l.tableId := rfl
  have hparse := l.toContent.parse_bytes (l.stray ++ l.trailer)
  rw [decode, if_neg (Nat.not_lt.mpr l.isSection_bytes.right), hhead,
    entries_entryBytes]
  by_cases hpat : l.tableId = Pat.tableId
  · rw [if_pos hpat, if_neg (not_not_intro (congrArg some hpat)), bytes, hparse]
    rfl
  · rw [if_neg hpat, if_pos]
    exact fun heq => hpat (Option.some.inj heq)

/-- Every section that is long enough has a layout. -/
theorem exists_of_isSection {old : Bytes} (h : IsSection old) :
    exists l : Layout, l.bytes = old := by
  rcases h with ⟨hsize, hlong⟩
  rcases exists_header_of_length hlong with
    ⟨tableId, hi, lo, extensionHigh, extensionLow, version, number, lastNumber,
      rest, rfl, hrest⟩
  rcases exists_stray (rest.take (rest.length - trailerSize)) with
    ⟨stray, hstray, hentries⟩
  have hlength := congrArg List.length hentries
  rw [List.length_append, length_flatMap_bytes, List.length_take] at hlength
  simp only [announcedSize?, List.length_cons, Option.some.injEq] at hsize
  have hheader : trailerSize = 4 := rfl
  refine ⟨⟨⟨tableId, hi, lo, [extensionHigh, extensionLow, version, number,
    lastNumber], Pat.entries (rest.take (rest.length - trailerSize)), rfl⟩,
    stray, rest.drop (rest.length - trailerSize), hstray, ?_, ?_⟩, ?_⟩
  · rw [List.length_drop]
    lia
  · dsimp only
    lia
  · simp only [bytes, Content.bytes, List.cons_append, List.nil_append]
    rw [← List.append_assoc, hentries, List.take_append_drop]

theorem isIntact_bytes_iff {l : Layout} :
    Crc.isIntact l.bytes = true ↔
      l.trailer = Crc.trailer (crc (l.toContent.bytes ++ l.stray)) := by
  rw [bytes, ← List.append_assoc]
  exact Crc.isIntact_append_iff l.length_trailer

end Layout
end Pat
end TransportStream
