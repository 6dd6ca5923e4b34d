import MinSeq.Core.LittleEndian
import MinSeq.Core.Memory

/-!
# The fixed-memory serializers

`FixedMemReadSerializer` and `FixedMemWriteSerializer` of `utils/serialization.h`, with
`DEBUG_SERIALIZATION` on as the header ships it.  Neither knows how large its buffer is, and neither
reports an error: the writer stores and the reader loads at `memPtr`, and both move on.

**Objects.**  A trivially copyable object is its object representation, `Pod size`; a `uint32_t` is
the `Pod 4` holding its little-endian bytes.  `StringHolder`, whose header is not part of this
repository, is a trivial pair of a 32-bit `length` and a pointer `data`.  The bytes it points at
live in the same memory the serializers work on, so a string read from a buffer aliases that buffer,
as `datum.data = (char*)memPtr` makes it.

**Memory and counters.**  A serializer carries the memory its `memPtr` points into, since the writer
changes it.  `sizeof(Type)` is added to the 32-bit `bytesCount` with wrap-around; the pointer is a
number and never wraps.

**Assertions.**  `ASSERT_MSG` is not part of this repository either, and what it does when a
condition fails is not known here.  The reader records the conditions it is given while it works on
one buffer, so a failed comparison is visible and reading goes on.

`Serializer` collects what a message's `serialize` template uses of the serializer it is
instantiated with.
-/

namespace MinSeq

open Memory LittleEndian

/-- **The object representation** of a trivially copyable type of `size` bytes, which is all that
`memcpy` sees of an object. -/
abbrev Pod (size : ℕ) := { bytes : List UInt8 // bytes.length = size }

/-- A `uint32_t` as the object `memcpy` copies. -/
def Pod.ofU32 (x : UInt32) : Pod 4 := ⟨bytesOfU32 x, length_bytesOfU32 x⟩

/-- The `uint32_t` an object representation of four bytes holds. -/
def Pod.toU32 (x : Pod 4) : UInt32 := u32OfBytes x.1

@[simp] lemma Pod.val_ofU32 (x : UInt32) : (Pod.ofU32 x).1 = bytesOfU32 x := rfl

/-- **A string by reference**: its length and the address of its bytes, which belong to somebody
else. -/
structure StringHolder where
  length : UInt32
  data : ℕ
deriving DecidableEq, Repr

/-! ## The reader -/

/-- **The reader.**  Its members, the memory that `memPtr` points into, and a record of what it has
asserted, which the class does not keep. -/
structure FixedMemReadSerializer where
  dataVersion : UInt32
  integrityCounter : UInt32
  memPtr : ℕ
  bytesCount : UInt32
  mem : Mem UInt8
  /-- The conditions handed to `ASSERT_MSG` since `resetBuffers`, oldest first. -/
  asserts : List Bool

namespace FixedMemReadSerializer

/-- `serialize(std::true_type, Type &)`: the next bytes, whatever they are, become the object. -/
def serializePod (size : ℕ) (s : FixedMemReadSerializer) : Pod size × FixedMemReadSerializer :=
  (⟨load s.mem s.memPtr size, length_load⟩,
    { s with bytesCount := s.bytesCount + UInt32.ofNat size, memPtr := s.memPtr + size })

/-- `serialize(std::true_type, StringHolder &)`: the holder is pointed into the buffer, so no byte
of the string is copied and the buffer must outlive it. -/
def serializeStringHolder (s : FixedMemReadSerializer) :
    StringHolder × FixedMemReadSerializer :=
  let r := s.serializePod 4
  let len := r.1.toU32
  let s := r.2
  (⟨len, s.memPtr⟩,
    { s with bytesCount := s.bytesCount + len, memPtr := s.memPtr + len.toNat })

/-- The version is the caller's to know: reading it from the buffer is commented out, and so is the
check against the latest one. -/
def setVersion (dataVer : UInt32) (s : FixedMemReadSerializer) : FixedMemReadSerializer :=
  { s with dataVersion := dataVer }

def resetBuffers (ptr : ℕ) (s : FixedMemReadSerializer) : FixedMemReadSerializer :=
  { s with memPtr := ptr, integrityCounter := 0, bytesCount := 0, asserts := [] }

/-- Reads back a counter that the writer put there, and compares it with the number of such checks
so far.  The counter moves on whatever the comparison says. -/
def checkIntegrity (checkAdded : UInt32) (s : FixedMemReadSerializer) : FixedMemReadSerializer :=
  if s.dataVersion ≥ checkAdded then
    let r := s.serializePod 4
    let check := r.1.toU32
    let s := r.2
    { s with
      asserts := s.asserts ++ [check == s.integrityCounter]
      integrityCounter := s.integrityCounter + 1 }
  else s

end FixedMemReadSerializer

/-! ## The writer -/

/-- **The writer.**  The same members; nothing is asserted while writing. -/
structure FixedMemWriteSerializer where
  dataVersion : UInt32
  integrityCounter : UInt32
  memPtr : ℕ
  bytesCount : UInt32
  mem : Mem UInt8

namespace FixedMemWriteSerializer

/-- `serialize(std::true_type, Type &)`: the bytes of the object go to where the pointer is. -/
def serializePod {size : ℕ} (datum : Pod size) (s : FixedMemWriteSerializer) :
    FixedMemWriteSerializer :=
  { s with
    bytesCount := s.bytesCount + UInt32.ofNat size
    mem := store s.mem s.memPtr datum.1
    memPtr := s.memPtr + size }

/-- `serialize(std::true_type, StringHolder &)`: the length, and then the bytes it is the length of.
They are copied with `memcpy`, which asks for two extents that do not overlap. -/
def serializeStringHolder (datum : StringHolder) (s : FixedMemWriteSerializer) :
    FixedMemWriteSerializer :=
  let len := datum.length
  let s := s.serializePod (Pod.ofU32 len)
  { s with
    bytesCount := s.bytesCount + len
    mem := store s.mem s.memPtr (load s.mem datum.data len.toNat)
    memPtr := s.memPtr + len.toNat }

def setVersion (latestVersion : UInt32) (s : FixedMemWriteSerializer) : FixedMemWriteSerializer :=
  { s with dataVersion := latestVersion }

def resetBuffers (ptr : ℕ) (s : FixedMemWriteSerializer) : FixedMemWriteSerializer :=
  { s with memPtr := ptr, integrityCounter := 0, bytesCount := 0 }

/-- Stores how many checks there were before this one, from the version on that added the check. -/
def checkIntegrity (checkAdded : UInt32) (s : FixedMemWriteSerializer) :
    FixedMemWriteSerializer :=
  if s.dataVersion ≥ checkAdded then
    let check := s.integrityCounter
    let s := s.serializePod (Pod.ofU32 check)
    { s with integrityCounter := s.integrityCounter + 1 }
  else s

end FixedMemWriteSerializer

/-! ## The common face

A message's `serialize` is a template over the serializer, and takes every member by reference: a
member goes in with its present value and comes out with the value the serializer leaves there.
-/

/-- **What the templates of this header use of a serializer**: its data version, the two overloads
for trivial types, and the check. -/
class Serializer (S : Type) where
  dataVersion : S → UInt32
  serializePod : {size : ℕ} → Pod size → S → Pod size × S
  serializeStringHolder : StringHolder → S → StringHolder × S
  checkIntegrity : UInt32 → S → S

/-- Reading overwrites the member. -/
instance : Serializer FixedMemReadSerializer where
  dataVersion := FixedMemReadSerializer.dataVersion
  serializePod := fun {size} _ s => s.serializePod size
  serializeStringHolder := fun _ s => s.serializeStringHolder
  checkIntegrity := FixedMemReadSerializer.checkIntegrity

/-- Writing leaves the member as it is. -/
instance : Serializer FixedMemWriteSerializer where
  dataVersion := FixedMemWriteSerializer.dataVersion
  serializePod := fun datum s => (datum, s.serializePod datum)
  serializeStringHolder := fun datum s => (datum, s.serializeStringHolder datum)
  checkIntegrity := FixedMemWriteSerializer.checkIntegrity

end MinSeq
