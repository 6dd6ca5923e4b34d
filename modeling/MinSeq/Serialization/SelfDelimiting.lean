import MinSeq.Serialization.Canonical

/-!
# The wire format is self-delimiting

Messages follow one another in a buffer with nothing between them, and a string is as long as its
own length word says.  So the format must tell by itself where a message ends and which values it
holds, whatever bytes come behind it.  A reader that is handed the start of a stream then needs
nothing but the type and the version to find the second message in it.

* `Schema.sameValues_of_encode_append` — with anything behind them, equal bytes hold equal values.
* **`written_isPrefix_iff`** — what one writer stored begins what another one stored exactly when
  the two wrote the same values: no message is cut short by another one of its type.

**Why it holds.**  At every point of the body both encodings have read the same values so far, so
they are at the same statement, and what comes next is of a fixed length or says its length first.
A slot under `remove` is left out, its value being replaced by a default before it is written.
-/

namespace MinSeq

open Memory LittleEndian

variable {v : UInt32} {mem mem' : Mem UInt8}

/-- Two strings with something behind each: the length words are compared first, and from then on
the texts have the same length. -/
lemma sameText_of_append {x y : StringHolder} {xs ys : List UInt8}
    (h : bytesOfU32 x.length ++ load mem x.data x.length.toNat ++ xs
      = bytesOfU32 y.length ++ load mem' y.data y.length.toNat ++ ys) :
    SameText mem mem' x y ∧ xs = ys := by
  rw [List.append_assoc, List.append_assoc] at h
  obtain ⟨hwords, hbehind⟩ := List.append_inj h (by simp)
  have hlength : y.length = x.length := (bytesOfU32_injective hwords).symm
  obtain ⟨htext, hrest⟩ := List.append_inj hbehind (by simp [hlength])
  exact ⟨⟨hlength, htext.symm⟩, hrest⟩

/-- **Equal bytes hold equal values, whatever comes behind them.**  By induction on the body; both
sides are at the same integrity counter throughout, as it does not depend on the values. -/
lemma Schema.sameValues_of_encode_append {trivial : Bool} {α : Type} {B : Schema trivial α}
    (hB : B.NoRemove) {x y : α} {xs ys : List UInt8} {c : UInt32}
    (h : B.encode v mem x c ++ xs = B.encode v mem' y c ++ ys) :
    B.SameValues v mem mem' x y ∧ xs = ys := by
  induction B generalizing xs ys c with
  | pod n =>
      obtain ⟨hdatum, hrest⟩ := List.append_inj h (x.2.trans y.2.symm)
      exact ⟨(Subtype.ext hdatum).symm, hrest⟩
  | stringHolder => exact sameText_of_append h
  | done => exact ⟨True.intro, h⟩
  | field code type rest iht ihr =>
      obtain ⟨hremove, htype, hrest⟩ := hB
      simp only [Schema.encode, FieldCode.source_eq hremove] at h
      by_cases hlive : code.live v = true
      · rw [if_pos hlive, if_pos hlive, List.append_assoc, List.append_assoc] at h
        obtain ⟨hx, hbehind⟩ := iht htype h
        obtain ⟨hy, hend⟩ := ihr hrest hbehind
        exact ⟨⟨fun _ => hx, hy⟩, hend⟩
      · rw [if_neg hlive, if_neg hlive] at h
        obtain ⟨hy, hend⟩ := ihr hrest h
        exact ⟨⟨fun h' => absurd h' hlive, hy⟩, hend⟩
  | checkIntegrity checkAdded rest ih =>
      simp only [Schema.encode] at h
      by_cases hlive : checkAdded ≤ v
      · rw [if_pos hlive, if_pos hlive, List.append_assoc, List.append_assoc] at h
        exact ih hB (List.append_cancel_left h)
      · rw [if_neg hlive, if_neg hlive] at h
        exact ih hB h

/-- One encoding begins another exactly when the two hold the same values. -/
lemma Schema.encode_isPrefix_iff {trivial : Bool} {α : Type} {B : Schema trivial α}
    (hB : B.NoRemove) {x y : α} {c : UInt32} :
    B.encode v mem x c <+: B.encode v mem' y c ↔ B.SameValues v mem mem' x y := by
  constructor
  · rintro ⟨behind, h⟩
    exact (Schema.sameValues_of_encode_append hB (h.trans (List.append_nil _).symm)).1
  · intro h
    exact (Schema.encode_eq_of_sameValues hB h c).symm ▸ List.prefix_rfl

variable {α : Type} {B : Schema false α}

/-- **The bytes a writer has behind it** after a message written into the buffer at `p`: from where
it began to where its pointer is. -/
def writtenBytes (B : Schema false α) (v : UInt32) (p : ℕ) (datum : α)
    (w : FixedMemWriteSerializer) : List UInt8 :=
  let written := writeMessage B v p datum w
  load written.2.mem p (written.2.memPtr - p)

/-- They are the encoding, with the strings as they were in the writer's memory before. -/
lemma writtenBytes_eq {datum : α} {w : FixedMemWriteSerializer} {p capacity : ℕ}
    (hfit : B.size v datum ≤ capacity)
    (hsep : ∀ str ∈ B.copied v datum, Apart str.data str.length.toNat p capacity) :
    writtenBytes B v p datum w = B.encode v w.mem datum 0 := by
  rw [writtenBytes, writeMessage_memPtr hfit hsep, Nat.add_sub_cancel_left,
    load_writeMessage hfit hsep]

/-- **No message begins another one of its type**, unless the two hold the same values.  Each writer
has its own memory and its own buffer. -/
theorem written_isPrefix_iff (hB : B.NoRemove) (x y : α) (w w' : FixedMemWriteSerializer)
    (p p' capacity capacity' : ℕ)
    (hfit : B.size v x ≤ capacity)
    (hsep : ∀ str ∈ B.copied v x, Apart str.data str.length.toNat p capacity)
    (hfit' : B.size v y ≤ capacity')
    (hsep' : ∀ str ∈ B.copied v y, Apart str.data str.length.toNat p' capacity') :
    writtenBytes B v p x w <+: writtenBytes B v p' y w' ↔ B.SameValues v w.mem w'.mem x y := by
  rw [writtenBytes_eq hfit hsep, writtenBytes_eq hfit' hsep']
  exact Schema.encode_isPrefix_iff hB

/-- Two strings of one byte and of two, the shorter one's text beginning the longer one's. -/
theorem written_isPrefix_iff_strings :
    let B := Schema.field (FieldCode.add 1 ⟨0, 0⟩) Schema.stringHolder
      (Schema.checkIntegrity 1 Schema.done)
    let w : FixedMemWriteSerializer := ⟨0, 0, 0, 0, fun _ => 7⟩
    writtenBytes B 1 100 (⟨10, 1⟩, ()) w <+: writtenBytes B 1 200 (⟨10, 2⟩, ()) w ↔
      B.SameValues 1 w.mem w.mem (⟨10, 1⟩, ()) (⟨10, 2⟩, ()) := by
  intro B w
  have hB : B.NoRemove := ⟨rfl, trivial, trivial⟩
  exact written_isPrefix_iff hB _ _ w w 100 200 20 20 (by decide) (by decide) (by decide)
    (by decide)

end MinSeq
