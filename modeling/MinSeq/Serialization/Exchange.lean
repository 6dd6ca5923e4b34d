import MinSeq.Serialization.Reading

/-!
# One message through a buffer

`writeMessage` and `readMessage` are the two calls a program makes: set the data version, point the
serializer at a buffer, run the message's own body.  The results of the two modules before this one
are put together here, once for all that follows.

* `writeMessage_eq`, `load_writeMessage` — what a write leaves in the buffer.
* **`readMessage_writeMessage`** — reading the buffer back with any body that has the same
  statements on the wire ends where the writer ended, with every integrity comparison held.

**What the caller must see to.**  The buffer has to be large enough and must not overlap the bytes
of the strings that are copied into it.  Neither serializer can check this, as both are given a
pointer and no size, so it is a hypothesis wherever something is written.
-/

namespace MinSeq

open Memory LittleEndian

variable {α : Type} {v : UInt32} {B B' : Schema false α}

/-- **Serialize a message** into the buffer at `p`: `setVersion`, `resetBuffers`, then its own
body. -/
def writeMessage (B : Schema false α) (v : UInt32) (p : ℕ) (datum : α)
    (w : FixedMemWriteSerializer) : α × FixedMemWriteSerializer :=
  B.addPreprocessed datum ((w.setVersion v).resetBuffers p)

/-- **Read a message** from the buffer at `p`, over the object `old`.  What was in the object
survives in the slots that this code does not name. -/
def readMessage (B : Schema false α) (v : UInt32) (p : ℕ) (old : α)
    (r : FixedMemReadSerializer) : α × FixedMemReadSerializer :=
  B.addPreprocessed old ((r.setVersion v).resetBuffers p)

/-- **Two strings hold the same text**, each in its own memory, wherever it may lie there. -/
def SameText (mem mem' : Mem UInt8) (x y : StringHolder) : Prop :=
  y.length = x.length ∧
    load mem' y.data y.length.toNat = load mem x.data x.length.toNat

variable {datum : α} {w : FixedMemWriteSerializer} {p capacity : ℕ}

/-- What a write does: the object settles, the buffer holds the encoding. -/
lemma writeMessage_eq (hfit : B.size v datum ≤ capacity)
    (hsep : ∀ str ∈ B.copied v datum, Apart str.data str.length.toNat p capacity) :
    writeMessage B v p datum w
      = (B.settle v datum, ((w.setVersion v).resetBuffers p).emit (B.encode v w.mem datum 0)
          (B.counterAfter v 0)) := by
  refine FixedMemWriteSerializer.addPreprocessed_eq_emit B datum
    ((w.setVersion v).resetBuffers p) fun str hs => (hsep str hs).sub (Nat.le_refl p) ?_
  exact Nat.add_le_add_left hfit p

/-- The pointer ends behind the encoding, so a program can tell from it how much was written. -/
lemma writeMessage_memPtr (hfit : B.size v datum ≤ capacity)
    (hsep : ∀ str ∈ B.copied v datum, Apart str.data str.length.toNat p capacity) :
    (writeMessage B v p datum w).2.memPtr = p + B.size v datum := by
  rw [writeMessage_eq hfit hsep]
  exact congrArg (p + ·) (Schema.length_encode _ _ _ _)

/-- The counter says the same, as far as 32 bits go. -/
lemma writeMessage_bytesCount (hfit : B.size v datum ≤ capacity)
    (hsep : ∀ str ∈ B.copied v datum, Apart str.data str.length.toNat p capacity) :
    (writeMessage B v p datum w).2.bytesCount = UInt32.ofNat (B.size v datum) := by
  rw [writeMessage_eq hfit hsep]
  simp [FixedMemWriteSerializer.resetBuffers]

/-- The buffer holds the encoding, with the strings as they were before the write. -/
lemma load_writeMessage (hfit : B.size v datum ≤ capacity)
    (hsep : ∀ str ∈ B.copied v datum, Apart str.data str.length.toNat p capacity) :
    load (writeMessage B v p datum w).2.mem p (B.size v datum) = B.encode v w.mem datum 0 := by
  rw [writeMessage_eq hfit hsep, ← Schema.length_encode w.mem B datum 0]
  exact load_store_same _

/-- **The reader `r'` went through the same extent** as the writer `w'`, passing `n` comparisons and
failing none. -/
structure Matches (r' : FixedMemReadSerializer) (w' : FixedMemWriteSerializer) (n : ℕ) :
    Prop where
  asserts : r'.asserts = List.replicate n true
  memPtr : r'.memPtr = w'.memPtr
  bytesCount : r'.bytesCount = w'.bytesCount

/-- **The reader ends where the writer ended**, every comparison having held, if the two bodies put
the same statements on the wire. -/
theorem readMessage_writeMessage (hwire : B.SameWire v B') (datum old : α)
    (w : FixedMemWriteSerializer) (r : FixedMemReadSerializer)
    (hfit : B.size v datum ≤ capacity)
    (hsep : ∀ str ∈ B.copied v datum, Apart str.data str.length.toNat p capacity) :
    Matches
      (readMessage B' v p old { r with mem := (writeMessage B v p datum w).2.mem }).2
      (writeMessage B v p datum w).2 (B.checks v) := by
  have hread := FixedMemReadSerializer.addPreprocessed_eq_consume hwire w.mem datum old
    ((({ r with mem := (writeMessage B v p datum w).2.mem } :
      FixedMemReadSerializer).setVersion v).resetBuffers p) rfl (load_writeMessage hfit hsep)
  constructor
  · rw [readMessage, hread]
    rfl
  · rw [readMessage, hread, writeMessage_memPtr hfit hsep]
    rfl
  · rw [readMessage, hread, writeMessage_bytesCount hfit hsep]
    simp [FixedMemReadSerializer.resetBuffers]

end MinSeq
