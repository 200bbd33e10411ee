import TransportStream.Bits

/-!
# Descriptor loops

A descriptor is a tag, the number of bytes in its body, and the body.
Descriptors stand one behind the other; the first one that is cut short ends
them.
-/

namespace TransportStream

structure Descriptor where
  tag : UInt8
  body : Bytes
  deriving DecidableEq, Repr

structure DescriptorLoop where
  bytes : Bytes
  deriving DecidableEq, Repr

namespace Descriptor

/-- The complete descriptors at the front of a byte string, and the bytes behind
them. -/
def scan : Bytes -> List Descriptor × Bytes
  | tag :: length :: rest =>
      if rest.length < length.toNat then ([], tag :: length :: rest)
      else
        let later := scan (rest.drop length.toNat)
        (⟨tag, rest.take length.toNat⟩ :: later.1, later.2)
  | short => ([], short)
termination_by bytes => bytes.length
decreasing_by
  rw [List.length_drop]
  simp only [List.length_cons]
  omega

end Descriptor

namespace DescriptorLoop

def descriptors (loop : DescriptorLoop) : List Descriptor :=
  (Descriptor.scan loop.bytes).1

def isEmpty (loop : DescriptorLoop) : Bool :=
  loop.bytes.isEmpty

end DescriptorLoop
end TransportStream
