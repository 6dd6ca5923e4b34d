import MinSeq.Core.CppTypes
import MinSeq.Serialization.Format

/-!
# `std::string` members

The two `std::string` specialisations do not agree on what the length prefix counts: the writer
sends `size()` bytes, the reader resizes its target to one more than the prefix says, "to be sure",
and fills only the prefix's worth.  The extra element is part of the string from then on, as a
`std::string` keeps its terminating NUL itself and counts what it is given.

* `Hop.run_eq` — a string comes back with one byte appended: a NUL, or whatever the target held at
  that place before.  At `2 ^ 32 - 1` bytes the 32-bit `len+1` is zero and the copy runs past the
  string.
* **`string_round_trip_never`** — so no string comes back as it was sent, re-writing it gives other
  bytes, and forwarding it any number of times but zero changes its encoding.

**Hops.**  A hop is a writer and the reader behind it, with the object that is read into, and a list
of hops is a string that is passed on from one program to the next.  Each of them adds a byte, so
the string grows along the way until its length no longer fits.
-/

namespace MinSeq

open Memory LittleEndian Cpp

/-- **`FixedMemWriteSerializer::serialize(std::false_type, std::string &)`**: the number of bytes
that the string has, and those bytes. -/
def FixedMemWriteSerializer.serializeString (datum : StdString) (s : FixedMemWriteSerializer) :
    FixedMemWriteSerializer :=
  let len := UInt32.ofNat datum.length
  let s := s.serializePod (Pod.ofU32 len)
  { s with
    bytesCount := s.bytesCount + len
    mem := store s.mem s.memPtr (datum.take len.toNat)
    memPtr := s.memPtr + len.toNat }

/-- **`FixedMemReadSerializer::serialize(std::false_type, std::string &)`.**  The sum `len + 1` is
one of 32 bits.  The `memcpy` into the string is undefined, here `none`, when it is longer than the
string was made. -/
def FixedMemReadSerializer.serializeString (datum : StdString) (s : FixedMemReadSerializer) :
    Option (StdString × FixedMemReadSerializer) :=
  let r := s.serializePod 4
  let len := r.1.toU32
  let s := r.2
  let datum := datum.resize (len + 1).toNat
  let s := { s with bytesCount := s.bytesCount + len }
  if len.toNat ≤ datum.length then
    some (load s.mem s.memPtr len.toNat ++ datum.drop len.toNat,
      { s with memPtr := s.memPtr + len.toNat })
  else none

/-- One hop of a string: a writer and a reader in any state, and the string object it is read
into.  The reader reads the writer's memory at the place it was written. -/
structure Hop where
  writer : FixedMemWriteSerializer
  reader : FixedMemReadSerializer
  target : StdString

/-- Write a string and read it back from where it was written. -/
def Hop.run (hop : Hop) (str : StdString) : Option StdString :=
  let written := hop.writer.serializeString str
  let reader := { hop.reader with mem := written.mem, memPtr := hop.writer.memPtr }
  (reader.serializeString hop.target).map Prod.fst

/-- **Forward a string through a list of hops**, as long as none of them is undefined. -/
def forward : List Hop → StdString → Option StdString
  | [], str => some str
  | hop :: hops, str => (hop.run str).bind (forward hops)

/-- The bytes a writer puts into its buffer for a string. -/
def encodingOf (w : FixedMemWriteSerializer) (str : StdString) : List UInt8 :=
  load (w.serializeString str).mem w.memPtr ((w.serializeString str).memPtr - w.memPtr)

/-! ## What is written -/

section

variable {str : StdString}

lemma FixedMemWriteSerializer.serializeString_eq_emit (h : str.length < 2 ^ 32)
    (w : FixedMemWriteSerializer) :
    w.serializeString str
      = w.emit (bytesOfU32 (UInt32.ofNat str.length) ++ str) w.integrityCounter := by
  have hlen : (UInt32.ofNat str.length).toNat = str.length := UInt32.toNat_ofNat_of_lt' h
  have hlength := w.serializePod_eq_emit (Pod.ofU32 (UInt32.ofNat str.length))
  simp only [serializeString, hlength, hlen, List.take_length]
  rw [← w.emit_emit _ _ w.integrityCounter]
  simp [emit]

/-- The length prefix and the string: two strings of different lengths are encoded differently. -/
lemma encodingOf_eq (h : str.length < 2 ^ 32) (w : FixedMemWriteSerializer) :
    encodingOf w str = bytesOfU32 (UInt32.ofNat str.length) ++ str := by
  simp only [encodingOf, FixedMemWriteSerializer.serializeString_eq_emit h,
    FixedMemWriteSerializer.emit_memPtr, Nat.add_sub_cancel_left]
  exact load_store_same _

lemma length_encodingOf (h : str.length < 2 ^ 32) (w : FixedMemWriteSerializer) :
    (encodingOf w str).length = 4 + str.length := by
  rw [encodingOf_eq h, List.length_append, length_bytesOfU32]

/-! ## What is read back -/

/-- **What a hop makes of a string.**  One byte longer, or undefined for the longest string. -/
lemma Hop.run_eq (h : str.length < 2 ^ 32) (hop : Hop) :
    hop.run str
      = if str.length + 1 < 2 ^ 32 then
          some (str ++ (hop.target.resize (str.length + 1)).drop str.length)
        else none := by
  have hload : load (hop.writer.serializeString str).mem hop.writer.memPtr (4 + str.length)
      = bytesOfU32 (UInt32.ofNat str.length) ++ str := by
    have henc := encodingOf_eq h hop.writer
    rw [encodingOf, hop.writer.serializeString_eq_emit h] at henc
    rw [hop.writer.serializeString_eq_emit h]
    simpa using henc
  obtain ⟨hlength, htext⟩ := load_eq_append (length_bytesOfU32 _) hload
  have hlen : (UInt32.ofNat str.length).toNat = str.length := UInt32.toNat_ofNat_of_lt' h
  have hnext : (UInt32.ofNat str.length + 1).toNat = (str.length + 1) % 2 ^ 32 := by
    rw [UInt32.toNat_add, hlen]
    rfl
  simp only [Hop.run, FixedMemReadSerializer.serializeString,
    FixedMemReadSerializer.serializePod, Pod.toU32, hlength, htext, u32OfBytes_bytesOfU32, hlen,
    StdString.length_resize, hnext]
  by_cases hlt : str.length + 1 < 2 ^ 32
  · rw [Nat.mod_eq_of_lt hlt, if_pos (by omega), if_pos hlt]
    rfl
  · -- the longest string: `len+1` wraps to zero, and the copy does not fit
    have hwrap : (str.length + 1) % 2 ^ 32 = 0 := by omega
    rw [hwrap, if_neg (by omega), if_neg hlt]
    rfl

lemma Hop.length_of_run (h : str.length < 2 ^ 32) {hop : Hop} {d : StdString}
    (hrun : hop.run str = some d) : d.length = str.length + 1 ∧ d.length < 2 ^ 32 := by
  rw [hop.run_eq h] at hrun
  split at hrun
  · obtain rfl := Option.some.inj hrun
    simp
    omega
  · cases hrun

/-- Every hop adds one byte.  By induction on the hops. -/
lemma length_of_forward (hops : List Hop) (h : str.length < 2 ^ 32) {d : StdString}
    (hrun : forward hops str = some d) :
    d.length = str.length + hops.length ∧ d.length < 2 ^ 32 := by
  induction hops generalizing str with
  | nil =>
      obtain rfl := Option.some.inj hrun
      exact ⟨rfl, h⟩
  | cons hop hops ih =>
      obtain ⟨mid, hmid, hrest⟩ := Option.bind_eq_some_iff.mp hrun
      obtain ⟨hlen, hlt⟩ := Hop.length_of_run h hmid
      obtain ⟨hlen', hlt'⟩ := ih hlt hrest
      exact ⟨by rw [hlen', hlen, List.length_cons]; omega, hlt'⟩

end

/-- **No string survives a round trip**, at any position and into any target: it is not read back
equal, re-writing what was read gives other bytes, and so does forwarding it through any list of
hops but the empty one. -/
theorem string_round_trip_never (str : StdString) (h : str.length < 2 ^ 32) :
    (∀ hop : Hop, hop.run str ≠ some str) ∧
      (∀ (hop : Hop) (w : FixedMemWriteSerializer) (d : StdString), hop.run str = some d →
        encodingOf w d ≠ encodingOf w str) ∧
      (∀ (hops : List Hop) (w : FixedMemWriteSerializer) (d : StdString), hops ≠ [] →
        forward hops str = some d → encodingOf w d ≠ encodingOf w str) := by
  have hforward : ∀ (hops : List Hop) (w : FixedMemWriteSerializer) (d : StdString), hops ≠ [] →
      forward hops str = some d → encodingOf w d ≠ encodingOf w str := by
    intro hops w d hne hrun heq
    obtain ⟨hlen, hlt⟩ := length_of_forward hops h hrun
    have hpos : 0 < hops.length := List.length_pos_iff.mpr hne
    have := congrArg List.length heq
    rw [length_encodingOf hlt, length_encodingOf h] at this
    omega
  refine ⟨fun hop hrun => ?_, fun hop w d hrun => ?_, hforward⟩
  · have := (Hop.length_of_run h hrun).1
    omega
  · exact hforward [hop] w d (by simp) (by simp [forward, hrun])

/-- The word "hi". -/
theorem string_round_trip_never_hi :
    (∀ hop : Hop, hop.run [104, 105] ≠ some [104, 105]) ∧
      (∀ (hop : Hop) (w : FixedMemWriteSerializer) (d : StdString),
        hop.run [104, 105] = some d → encodingOf w d ≠ encodingOf w [104, 105]) ∧
      (∀ (hops : List Hop) (w : FixedMemWriteSerializer) (d : StdString), hops ≠ [] →
        forward hops [104, 105] = some d → encodingOf w d ≠ encodingOf w [104, 105]) :=
  string_round_trip_never [104, 105] (by decide)

/-- "hi" comes back as "hi" and a NUL into an empty target, and takes a left-over byte along from a
longer one. -/
theorem string_hi_comes_back_longer :
    let w : FixedMemWriteSerializer := ⟨1, 0, 100, 0, fun _ => 0⟩
    let r : FixedMemReadSerializer := ⟨1, 0, 0, 0, fun _ => 0, []⟩
    (Hop.mk w r []).run [104, 105] = some [104, 105, 0] ∧
      (Hop.mk w r [65, 66, 67, 68]).run [104, 105] = some [104, 105, 67] ∧
      encodingOf w [104, 105] = [2, 0, 0, 0, 104, 105] ∧
      encodingOf w [104, 105, 0] = [3, 0, 0, 0, 104, 105, 0] ∧
      ¬ ∀ hop : Hop, hop.run [104, 105] = some [104, 105] := by
  intro w r
  refine ⟨by decide, by decide, by decide, by decide, fun h => ?_⟩
  exact absurd (h ⟨w, r, []⟩) (by decide)

end MinSeq
