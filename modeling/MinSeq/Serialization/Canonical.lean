import MinSeq.Serialization.Exchange

/-!
# Encoding undoes decoding

`addPreprocessed_sound` says that what was consumed is the encoding of what was read.  Writing the
object just read into a separate buffer therefore reproduces the consumed bytes, and the encoding is
canonical: two accepted buffers that decode to the same values hold the same bytes.  So a message
may be compared, hashed or signed by its bytes.

**Accepted** means that the reader stayed inside the buffer and that every integrity comparison
held.  Nothing else about the bytes is assumed; a length prefix may say anything that keeps the
reader inside.

This needs a body without `remove`, whose value is dropped by the reader and replaced by a default
by the writer.

* **`encode_undoes_decode`** — for every accepted buffer, and together with it that the encoding is
  canonical.
-/

namespace MinSeq

open Memory LittleEndian

/-- **The two objects agree** on every field that is on the wire at data version `v`, strings by
their text.  The other fields may hold anything. -/
def Schema.SameValues (v : UInt32) (mem mem' : Mem UInt8) :
    {trivial : Bool} → {α : Type} → Schema trivial α → α → α → Prop
  | _, _, Schema.pod _, x, y => y = x
  | _, _, Schema.stringHolder, x, y => SameText mem mem' x y
  | _, _, Schema.done, _, _ => True
  | _, _, Schema.field code type rest, x, y =>
      (code.live v = true → type.SameValues v mem mem' x.1 y.1) ∧
      rest.SameValues v mem mem' x.2 y.2
  | _, _, Schema.checkIntegrity _ rest, x, y => rest.SameValues v mem mem' x y

/-- The encoding depends on nothing but the values that are on the wire. -/
lemma Schema.encode_eq_of_sameValues {trivial : Bool} {α : Type} {v : UInt32}
    {mem mem' : Mem UInt8} {B : Schema trivial α} (hB : B.NoRemove) {x y : α}
    (h : B.SameValues v mem mem' x y) (c : UInt32) :
    B.encode v mem' y c = B.encode v mem x c := by
  induction B generalizing c with
  | pod n => exact congrArg Subtype.val h
  | stringHolder =>
      obtain ⟨hlength, htext⟩ := h
      rw [Schema.encode, Schema.encode, htext, hlength]
  | done => rfl
  | field code type rest iht ihr =>
      obtain ⟨hremove, htype, hrest⟩ := hB
      obtain ⟨hx, hy⟩ := h
      simp only [Schema.encode, FieldCode.source_eq hremove]
      split
      · rename_i hl
        rw [iht htype (hx hl), ihr hrest hy]
      · exact ihr hrest hy c
  | checkIntegrity checkAdded rest ih =>
      simp only [Schema.encode]
      rw [ih hB h, ih hB h]

variable {α : Type} {B : Schema false α} {v : UInt32} {p stop : ℕ}

/-- Reading a message stayed inside the buffer that ends at `stop`, and every integrity comparison
held. -/
structure Accepted (stop : ℕ) (r' : FixedMemReadSerializer) : Prop where
  inside : r'.memPtr ≤ stop
  asserts : ∀ ok ∈ r'.asserts, ok = true

/-- What an accepted buffer holds, and where the strings read from it lie. -/
lemma readMessage_accepted (hB : B.NoRemove) {old : α} {r : FixedMemReadSerializer}
    (h : Accepted stop (readMessage B v p old r).2) :
    (readMessage B v p old r).2.memPtr = p + B.size v (readMessage B v p old r).1 ∧
      load r.mem p (B.size v (readMessage B v p old r).1)
        = B.encode v r.mem (readMessage B v p old r).1 0 ∧
      ∀ str ∈ B.copied v (readMessage B v p old r).1,
        p ≤ str.data ∧ str.data + str.length.toNat ≤ stop := by
  obtain ⟨outcomes, hread⟩ := FixedMemReadSerializer.addPreprocessed_sound hB old
    ((r.setVersion v).resetBuffers p)
  have hstate : (readMessage B v p old r).2 = _ := hread.state
  have hend : (readMessage B v p old r).2.memPtr
      = p + B.size v (readMessage B v p old r).1 := by
    rw [hstate]; rfl
  have hasserts : (readMessage B v p old r).2.asserts = outcomes := by
    rw [hstate]; rfl
  refine ⟨hend, hread.bytes (hasserts ▸ h.asserts), fun str hs => ?_⟩
  obtain ⟨hlo, hhi⟩ := hread.strings str hs
  have hstop := h.inside
  rw [hend] at hstop
  exact ⟨hlo, Nat.le_trans hhi hstop⟩

/-- **Encode undoes decode on every accepted buffer, and the encoding is canonical.**  The buffer is
`[p, stop)` and holds arbitrary bytes; the fresh one is `[q, q + capacity)`.  The reader consumes
exactly the size of what it decoded, so neither side can meet the rest by doing nothing. -/
theorem encode_undoes_decode (hB : B.NoRemove) (old : α) (r : FixedMemReadSerializer)
    (haccept : Accepted stop (readMessage B v p old r).2) :
    let decoded := readMessage B v p old r
    let consumed := decoded.2.memPtr - p
    consumed = B.size v decoded.1 ∧
    (∀ (w : FixedMemWriteSerializer) (q capacity : ℕ), consumed ≤ capacity →
      Apart p (stop - p) q capacity →
      let written := writeMessage B v q decoded.1 { w with mem := r.mem }
      written.2.memPtr - q = consumed ∧
        load written.2.mem q (written.2.memPtr - q) = load r.mem p consumed) ∧
    (∀ (old' : α) (r' : FixedMemReadSerializer) (p' stop' : ℕ),
      Accepted stop' (readMessage B v p' old' r').2 →
      let decoded' := readMessage B v p' old' r'
      let consumed' := decoded'.2.memPtr - p'
      B.SameValues v r.mem r'.mem decoded.1 decoded'.1 →
      consumed' = consumed ∧ load r'.mem p' consumed' = load r.mem p consumed) := by
  intro decoded consumed
  obtain ⟨hend, hbytes, hstrings⟩ := readMessage_accepted hB haccept
  have hconsumed : consumed = B.size v decoded.1 := by
    change (readMessage B v p old r).2.memPtr - p = _
    rw [hend, Nat.add_sub_cancel_left]
  refine ⟨hconsumed, ?_, ?_⟩
  · intro w q capacity hfit hsep written
    have hcopied : ∀ str ∈ B.copied v decoded.1,
        Apart str.data str.length.toNat q capacity := fun str hs => by
      obtain ⟨hlo, hhi⟩ := hstrings str hs
      exact (hsep.symm.sub hlo (by omega)).symm
    have hlength : written.2.memPtr - q = B.size v decoded.1 := by
      rw [writeMessage_memPtr (hconsumed ▸ hfit) hcopied, Nat.add_sub_cancel_left]
    rw [hlength, hconsumed, hbytes]
    exact ⟨rfl, load_writeMessage (hconsumed ▸ hfit) hcopied⟩
  · intro old' r' p' stop' haccept' decoded' consumed' hsame
    obtain ⟨hend', hbytes', -⟩ := readMessage_accepted hB haccept'
    have hconsumed' : consumed' = B.size v decoded'.1 := by
      change (readMessage B v p' old' r').2.memPtr - p' = _
      rw [hend', Nat.add_sub_cancel_left]
    have hencode := Schema.encode_eq_of_sameValues hB hsame 0
    have hsize : B.size v decoded'.1 = B.size v decoded.1 := by
      rw [← Schema.length_encode r'.mem B decoded'.1 0, hencode, Schema.length_encode]
    exact ⟨by rw [hconsumed', hconsumed, hsize],
      by rw [hconsumed', hconsumed, hbytes', hbytes, hencode]⟩

/-- A word, an integrity value and a string of two bytes, in a memory that is zero but for the
length. -/
theorem encode_undoes_decode_sample :
    let B := Schema.field (FieldCode.add 1 (Pod.ofU32 0)) (Schema.pod 4)
      (Schema.checkIntegrity 1
        (Schema.field (FieldCode.add 1 ⟨0, 0⟩) Schema.stringHolder Schema.done))
    let r : FixedMemReadSerializer := ⟨0, 0, 0, 0, fun a => if a = 108 then 2 else 0, []⟩
    let decoded := readMessage B 1 100 (Pod.ofU32 0, ⟨0, 0⟩, ()) r
    let consumed := decoded.2.memPtr - 100
    consumed = B.size 1 decoded.1 ∧
    (∀ (w : FixedMemWriteSerializer) (q capacity : ℕ), consumed ≤ capacity →
      Apart 100 (120 - 100) q capacity →
      let written := writeMessage B 1 q decoded.1 { w with mem := r.mem }
      written.2.memPtr - q = consumed ∧
        load written.2.mem q (written.2.memPtr - q) = load r.mem 100 consumed) ∧
    (∀ old' (r' : FixedMemReadSerializer) (p' stop' : ℕ),
      Accepted stop' (readMessage B 1 p' old' r').2 →
      let decoded' := readMessage B 1 p' old' r'
      let consumed' := decoded'.2.memPtr - p'
      B.SameValues 1 r.mem r'.mem decoded.1 decoded'.1 →
      consumed' = consumed ∧ load r'.mem p' consumed' = load r.mem 100 consumed) := by
  intro B r
  have hB : B.NoRemove := ⟨rfl, trivial, rfl, trivial, trivial⟩
  exact encode_undoes_decode hB _ r ⟨by decide, by decide⟩

end MinSeq
