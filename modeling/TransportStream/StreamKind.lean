import TransportStream.Bits

/-!
# Kinds of elementary streams
-/

namespace TransportStream

inductive StreamKind where
  | mpeg2Video
  | aacAdts
  | other (code : UInt8)
  deriving DecidableEq, Repr

namespace StreamKind

def ofCode (code : UInt8) : StreamKind :=
  if code = 0x02 then .mpeg2Video
  else if code = 0x0F then .aacAdts
  else .other code

def code : StreamKind -> UInt8
  | .mpeg2Video => 0x02
  | .aacAdts => 0x0F
  | .other code => code

def name : StreamKind -> String
  | .mpeg2Video => "MPEG-2 Video"
  | .aacAdts => "AAC"
  | .other _ => "unk"

@[simp] theorem code_ofCode (c : UInt8) : (ofCode c).code = c := by
  unfold ofCode
  split
  · simp_all [code]
  · split
    · simp_all [code]
    · rfl

end StreamKind
end TransportStream
