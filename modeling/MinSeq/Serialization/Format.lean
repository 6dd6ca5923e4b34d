import MinSeq.Serialization.Message

/-!
# The wire format, and that the writer produces it

The format of a message at a data version, as a function of the message alone: `Schema.encode` lists
the bytes, `Schema.counterAfter` the integrity counter behind them, `Schema.settle` what the object
holds afterwards.  No serializer, no pointer and no counter of bytes occurs in these.  Everything
that is said about messages later is said about the format first and carried over to the serializers
by the theorem of this module for the writer and the one of the next for the reader.

**Strings.**  The bytes of a string are not part of the message but of the memory that it points
into.  So the format takes a memory as well, and `Schema.copied` lists the strings through which it
looks at it.  The writer changes that memory while it works.  This makes no difference as long as
the strings that are still to be copied lie outside the extent that is written.

* **`addPreprocessed_eq_emit`** — running a body with `FixedMemWriteSerializer` stores exactly
  `encode` at `memPtr` and moves the pointer and the counters past it, provided the bytes of the
  strings it copies lie outside the extent it writes (`memcpy` asks for that).
* `encode_congr` — the encoding depends on memory only through the strings it copies.
-/

namespace MinSeq

open Memory LittleEndian

/-! ## The format -/

namespace Schema

/-- **The integrity counter** behind an object, given the one before it.  Checks inside a nested
record count as well, as they run on the same serializer. -/
def counterAfter (v : UInt32) : {trivial : Bool} → {α : Type} → Schema trivial α → UInt32 → UInt32
  | _, _, Schema.pod _, c => c
  | _, _, Schema.stringHolder, c => c
  | _, _, Schema.done, c => c
  | _, _, Schema.field code type rest, c =>
      if code.live v then rest.counterAfter v (type.counterAfter v c) else rest.counterAfter v c
  | _, _, Schema.checkIntegrity checkAdded rest, c =>
      if checkAdded ≤ v then rest.counterAfter v (c + 1) else rest.counterAfter v c

/-- **The bytes of an object** at data version `v`, from integrity counter `c` on.  Strings are read
out of `mem`.  There is nothing between the fields and nothing at the end: which bytes belong to
which field follows from the schema, the version and the lengths of the strings before it. -/
def encode (v : UInt32) (mem : Mem UInt8) :
    {trivial : Bool} → {α : Type} → Schema trivial α → α → UInt32 → List UInt8
  | _, _, Schema.pod _, datum, _ => datum.1
  | _, _, Schema.stringHolder, datum, _ =>
      bytesOfU32 datum.length ++ load mem datum.data datum.length.toNat
  | _, _, Schema.done, _, _ => []
  | _, _, Schema.field code type rest, datum, c =>
      if code.live v then
        type.encode v mem (code.source datum.1) c ++
          rest.encode v mem datum.2 (type.counterAfter v c)
      else rest.encode v mem datum.2 c
  | _, _, Schema.checkIntegrity checkAdded rest, datum, c =>
      if checkAdded ≤ v then bytesOfU32 c ++ rest.encode v mem datum (c + 1)
      else rest.encode v mem datum c

/-- **The number of bytes** of an object at data version `v`.  Of a string it takes the length, and
nothing of the bytes. -/
def size (v : UInt32) : {trivial : Bool} → {α : Type} → Schema trivial α → α → ℕ
  | _, _, Schema.pod n, _ => n
  | _, _, Schema.stringHolder, datum => 4 + datum.length.toNat
  | _, _, Schema.done, _ => 0
  | _, _, Schema.field code type rest, datum =>
      if code.live v then type.size v (code.source datum.1) + rest.size v datum.2
      else rest.size v datum.2
  | _, _, Schema.checkIntegrity checkAdded rest, datum =>
      if checkAdded ≤ v then 4 + rest.size v datum else rest.size v datum

/-- The strings whose bytes are copied into the buffer at data version `v`, in the order in which
they are.  A removed field counts with its default, as that is what is copied then. -/
def copied (v : UInt32) : {trivial : Bool} → {α : Type} → Schema trivial α → α → List StringHolder
  | _, _, Schema.pod _, _ => []
  | _, _, Schema.stringHolder, datum => [datum]
  | _, _, Schema.done, _ => []
  | _, _, Schema.field code type rest, datum =>
      if code.live v then type.copied v (code.source datum.1) ++ rest.copied v datum.2
      else rest.copied v datum.2
  | _, _, Schema.checkIntegrity _ rest, datum => rest.copied v datum

/-- **The object as writing leaves it**: a slot that was not sent holds its default, because the
macro assigns it in the writer as well. -/
def settle (v : UInt32) : {trivial : Bool} → {α : Type} → Schema trivial α → α → α
  | _, _, Schema.pod _, datum => datum
  | _, _, Schema.stringHolder, datum => datum
  | _, _, Schema.done, datum => datum
  | _, _, Schema.field code type rest, datum =>
      if code.live v then (type.settle v (code.source datum.1), rest.settle v datum.2)
      else (code.unsent datum.1, rest.settle v datum.2)
  | _, _, Schema.checkIntegrity _ rest, datum => rest.settle v datum

variable {trivial : Bool} {α : Type} {v : UInt32}

@[simp] lemma length_encode (mem : Mem UInt8) (B : Schema trivial α) (datum : α) (c : UInt32) :
    (B.encode v mem datum c).length = B.size v datum := by
  induction B generalizing c with
  | pod n => exact datum.2
  | stringHolder => simp [encode, size]
  | done => rfl
  | field code type rest iht ihr =>
      simp only [encode, size]
      split
      · rw [List.length_append, iht, ihr]
      · exact ihr _ _
  | checkIntegrity checkAdded rest ih =>
      simp only [encode, size]
      split
      · rw [List.length_append, length_bytesOfU32, ih]
      · exact ih _ _

/-- The encoding sees memory only through the strings it copies. -/
lemma encode_congr {mem mem' : Mem UInt8} (B : Schema trivial α) (datum : α) (c : UInt32)
    (h : ∀ str ∈ B.copied v datum,
      load mem str.data str.length.toNat = load mem' str.data str.length.toNat) :
    B.encode v mem datum c = B.encode v mem' datum c := by
  induction B generalizing c with
  | pod n => rfl
  | stringHolder =>
      rw [encode, encode, h datum (by simp [copied])]
  | done => rfl
  | field code type rest iht ihr =>
      simp only [encode, copied] at h ⊢
      split
      · rename_i hlive
        rw [if_pos hlive] at h
        rw [iht _ _ fun str hs => h str (List.mem_append_left _ hs),
          ihr _ _ fun str hs => h str (List.mem_append_right _ hs)]
      · rename_i hlive
        rw [if_neg hlive] at h
        exact ihr _ _ h
  | checkIntegrity checkAdded rest ih =>
      simp only [encode]
      rw [ih _ _ h, ih _ _ h]

end Schema

/-! ## The writer produces the format -/

namespace FixedMemWriteSerializer

/-- **The writer after storing `bytes`** at its pointer, with the integrity counter then at `c`.
Whatever a writer does to a message is one such emission, and two in a row are one. -/
def emit (bytes : List UInt8) (c : UInt32) (s : FixedMemWriteSerializer) :
    FixedMemWriteSerializer :=
  { s with
    mem := store s.mem s.memPtr bytes
    memPtr := s.memPtr + bytes.length
    bytesCount := s.bytesCount + UInt32.ofNat bytes.length
    integrityCounter := c }

variable (s : FixedMemWriteSerializer)

@[simp] lemma emit_dataVersion (bytes : List UInt8) (c : UInt32) :
    (s.emit bytes c).dataVersion = s.dataVersion := rfl

@[simp] lemma emit_integrityCounter (bytes : List UInt8) (c : UInt32) :
    (s.emit bytes c).integrityCounter = c := rfl

@[simp] lemma emit_memPtr (bytes : List UInt8) (c : UInt32) :
    (s.emit bytes c).memPtr = s.memPtr + bytes.length := rfl

@[simp] lemma emit_mem (bytes : List UInt8) (c : UInt32) :
    (s.emit bytes c).mem = store s.mem s.memPtr bytes := rfl

@[simp] lemma emit_bytesCount (bytes : List UInt8) (c : UInt32) :
    (s.emit bytes c).bytesCount = s.bytesCount + UInt32.ofNat bytes.length := rfl

@[simp] lemma emit_nil : s.emit [] s.integrityCounter = s := by
  simp [emit]

lemma emit_emit (xs ys : List UInt8) (c d : UInt32) :
    (s.emit xs c).emit ys d = s.emit (xs ++ ys) d := by
  simp [emit, store_append, Nat.add_assoc, UInt32.add_assoc, UInt32.ofNat_add]

lemma serializePod_eq_emit {size : ℕ} (datum : Pod size) :
    s.serializePod datum = s.emit datum.1 s.integrityCounter := by
  simp only [serializePod, emit, datum.2]

/-- A string apart from the extent it is copied to.  The length is stored before the bytes are
loaded, so the bytes must be apart from where the length goes as well. -/
lemma serializeStringHolder_eq_emit (datum : StringHolder)
    (h : Apart datum.data datum.length.toNat s.memPtr (4 + datum.length.toNat)) :
    s.serializeStringHolder datum
      = s.emit (bytesOfU32 datum.length ++ load s.mem datum.data datum.length.toNat)
          s.integrityCounter := by
  have hlength : s.serializePod (Pod.ofU32 datum.length)
      = s.emit (bytesOfU32 datum.length) s.integrityCounter :=
    s.serializePod_eq_emit _
  have hload : load (s.emit (bytesOfU32 datum.length) s.integrityCounter).mem datum.data
      datum.length.toNat = load s.mem datum.data datum.length.toNat :=
    load_store_apart (by simpa using h.head)
  rw [← s.emit_emit _ _ s.integrityCounter]
  simp only [serializeStringHolder, hlength, hload]
  simp [emit]

lemma checkIntegrity_live {checkAdded : UInt32} (h : checkAdded ≤ s.dataVersion) :
    s.checkIntegrity checkAdded
      = s.emit (bytesOfU32 s.integrityCounter) (s.integrityCounter + 1) := by
  rw [checkIntegrity, if_pos h]
  simp [serializePod, emit]

lemma checkIntegrity_not_live {checkAdded : UInt32} (h : ¬ checkAdded ≤ s.dataVersion) :
    s.checkIntegrity checkAdded = s := if_neg h

variable {trivial : Bool} {α : Type}

/-- **The writer stores the format.**  By induction on the body, with the writer generalised: what
is already written is apart from the strings still to be copied, so the encoding of the rest may be
taken in the memory as it was at the start. -/
theorem addPreprocessed_eq_emit (B : Schema trivial α) (datum : α) (s : FixedMemWriteSerializer)
    (h : ∀ str ∈ B.copied s.dataVersion datum,
      Apart str.data str.length.toNat s.memPtr (B.size s.dataVersion datum)) :
    B.addPreprocessed datum s
      = (B.settle s.dataVersion datum,
          s.emit (B.encode s.dataVersion s.mem datum s.integrityCounter)
            (B.counterAfter s.dataVersion s.integrityCounter)) := by
  induction B generalizing s with
  | pod n =>
      exact congrArg (Prod.mk datum) (s.serializePod_eq_emit datum)
  | stringHolder =>
      exact congrArg (Prod.mk datum)
        (s.serializeStringHolder_eq_emit datum (h datum (by simp [Schema.copied])))
  | done =>
      exact congrArg (Prod.mk datum) s.emit_nil.symm
  | field code type rest iht ihr =>
      cases hlive : code.live s.dataVersion
      · simp only [Schema.copied, Schema.size, hlive] at h
        rw [Schema.addPreprocessed_not_live rfl hlive, ihr datum.2 s h]
        simp only [Schema.settle, Schema.encode, Schema.counterAfter, hlive]
        rfl
      · simp only [Schema.copied, Schema.size, hlive, if_true, List.mem_append] at h
        have ht := iht (code.source datum.1) s fun str hs => (h str (Or.inl hs)).head
        set bytes := type.encode s.dataVersion s.mem (code.source datum.1) s.integrityCounter
        set c := type.counterAfter s.dataVersion s.integrityCounter
        have hlen : bytes.length = type.size s.dataVersion (code.source datum.1) :=
          Schema.length_encode _ _ _ _
        have hr := ihr datum.2 (s.emit bytes c) fun str hs => by
          simpa [hlen] using (h str (Or.inr hs)).tail
        have hmem : rest.encode s.dataVersion (s.emit bytes c).mem datum.2 c
            = rest.encode s.dataVersion s.mem datum.2 c :=
          Schema.encode_congr _ _ _ fun str hs =>
            load_store_apart (by simpa [hlen] using (h str (Or.inr hs)).head)
        rw [Schema.addPreprocessed_live rfl hlive, ht, hr]
        simp only [emit_dataVersion, emit_integrityCounter, hmem, emit_emit]
        simp only [Schema.settle, Schema.encode, Schema.counterAfter, hlive, if_true]
        rfl
  | checkIntegrity checkAdded rest ih =>
      have hcheck : Serializer.checkIntegrity checkAdded s = s.checkIntegrity checkAdded := rfl
      by_cases hlive : checkAdded ≤ s.dataVersion
      · simp only [Schema.copied, Schema.size, hlive, if_true] at h
        set bytes := bytesOfU32 s.integrityCounter
        set c := s.integrityCounter + 1
        have hr := ih datum (s.emit bytes c) fun str hs => by
          simpa [bytes] using (h str hs).tail
        have hmem : rest.encode s.dataVersion (s.emit bytes c).mem datum c
            = rest.encode s.dataVersion s.mem datum c :=
          Schema.encode_congr _ _ _ fun str hs =>
            load_store_apart (by simpa [bytes] using (h str hs).head)
        rw [Schema.addPreprocessed_checkIntegrity, hcheck, s.checkIntegrity_live hlive, hr]
        simp only [emit_dataVersion, emit_integrityCounter, hmem, emit_emit]
        simp only [Schema.settle, Schema.encode, Schema.counterAfter, hlive, if_true]
        rfl
      · simp only [Schema.copied, Schema.size, hlive, if_false] at h
        rw [Schema.addPreprocessed_checkIntegrity, hcheck, s.checkIntegrity_not_live hlive,
          ih datum s h]
        simp only [Schema.settle, Schema.encode, Schema.counterAfter, hlive, if_false]

end FixedMemWriteSerializer

end MinSeq
