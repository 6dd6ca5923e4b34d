import MinSeq.Serialization.Format

/-!
# What the reader consumes

Two results about `FixedMemReadSerializer` on a body, one for each direction.

**Complete.**  If the buffer holds what some body `B` encodes, then reading it with a body that has
the same statements on the wire, `Schema.SameWire`, consumes exactly those bytes and passes every
integrity comparison.  The two bodies need not be the same: presence decided alike on both sides is
all it takes.  This is what two generations of a message rely on.

**Sound.**  Whatever the buffer holds, what a body consumed while its comparisons held is the
encoding of the object it read.  There is no buffer that a reader accepts and no writer can produce.
It needs a body without `remove`: a removed field is read and dropped, so the object says nothing
about the bytes that were there.

* **`addPreprocessed_eq_consume`** — the reader is complete.
* **`addPreprocessed_sound`** — and sound.

Both are inductions on the body with the reader generalised, as a string that was read decides where
the rest of the message lies.  `consume` plays the part that `emit` plays for the writer.
-/

namespace MinSeq

open Memory LittleEndian

/-- **The statement is a call of `remove`**, the only one that serializes something other than the
slot itself. -/
def FieldCode.isRemove {α : Type} : FieldCode α → Bool
  | FieldCode.remove _ _ _ => true
  | _ => false

/-- Any other statement serializes the slot, with the value that it has. -/
lemma FieldCode.source_eq {α : Type} {code : FieldCode α} (h : code.isRemove = false) (var : α) :
    code.source var = var := by
  cases code with
  | remove _ _ _ => exact absurd h (by simp [FieldCode.isRemove])
  | _ => rfl

namespace Schema

/-- **The number of integrity values** on the wire at data version `v`, nested records included. -/
def checks (v : UInt32) : {trivial : Bool} → {α : Type} → Schema trivial α → ℕ
  | _, _, Schema.pod _ => 0
  | _, _, Schema.stringHolder => 0
  | _, _, Schema.done => 0
  | _, _, Schema.field code type rest =>
      if code.live v then type.checks v + rest.checks v else rest.checks v
  | _, _, Schema.checkIntegrity checkAdded rest =>
      if checkAdded ≤ v then 1 + rest.checks v else rest.checks v

/-- **Two bodies put the same statements on the wire** at data version `v`: they agree, slot by
slot, on what is live, and on the live checkpoints.  Nothing is asked of the rest.  A checkpoint
that is not live may stand on one side only, and a slot that is not live may have a different type
on each. -/
inductive SameWire (v : UInt32) :
    {trivial : Bool} → {α : Type} → Schema trivial α → Schema trivial α → Prop where
  | pod (n : ℕ) : SameWire v (Schema.pod n) (Schema.pod n)
  | stringHolder : SameWire v Schema.stringHolder Schema.stringHolder
  | done : SameWire v Schema.done Schema.done
  | live {t : Bool} {α β : Type} {code code' : FieldCode α} {type type' : Schema t α}
      {rest rest' : Schema false β} (h : code.live v = true) (h' : code'.live v = true)
      (ht : SameWire v type type') (hr : SameWire v rest rest') :
      SameWire v (Schema.field code type rest) (Schema.field code' type' rest')
  | absent {t t' : Bool} {α β : Type} {code code' : FieldCode α} {type : Schema t α}
      {type' : Schema t' α} {rest rest' : Schema false β} (h : code.live v = false)
      (h' : code'.live v = false) (hr : SameWire v rest rest') :
      SameWire v (Schema.field code type rest) (Schema.field code' type' rest')
  | check {β : Type} {a : UInt32} {rest rest' : Schema false β} (h : a ≤ v)
      (hr : SameWire v rest rest') :
      SameWire v (Schema.checkIntegrity a rest) (Schema.checkIntegrity a rest')
  | skipLeft {β : Type} {a : UInt32} {rest rest' : Schema false β} (h : ¬ a ≤ v)
      (hr : SameWire v rest rest') : SameWire v (Schema.checkIntegrity a rest) rest'
  | skipRight {β : Type} {a : UInt32} {rest rest' : Schema false β} (h : ¬ a ≤ v)
      (hr : SameWire v rest rest') : SameWire v rest (Schema.checkIntegrity a rest')

lemma SameWire.refl {trivial : Bool} {α : Type} {v : UInt32} (B : Schema trivial α) :
    SameWire v B B := by
  induction B with
  | pod n => exact SameWire.pod n
  | stringHolder => exact SameWire.stringHolder
  | done => exact SameWire.done
  | field code type rest iht ihr =>
      cases hlive : code.live v
      · exact SameWire.absent hlive hlive ihr
      · exact SameWire.live hlive hlive iht ihr
  | checkIntegrity a rest ih =>
      by_cases ha : a ≤ v
      · exact SameWire.check ha ih
      · exact SameWire.skipLeft ha (SameWire.skipRight ha ih)

/-- **No statement of the body**, at any depth, is a call of `remove`. -/
def NoRemove : {trivial : Bool} → {α : Type} → Schema trivial α → Prop
  | _, _, Schema.pod _ => True
  | _, _, Schema.stringHolder => True
  | _, _, Schema.done => True
  | _, _, Schema.field code type rest =>
      code.isRemove = false ∧ type.NoRemove ∧ rest.NoRemove
  | _, _, Schema.checkIntegrity _ rest => rest.NoRemove

end Schema

namespace FixedMemReadSerializer

/-- **The reader past `n` bytes**, with the integrity counter then at `c` and `outcomes` asserted on
the way.  Whatever a reader does with a message is one such consumption. -/
def consume (n : ℕ) (c : UInt32) (outcomes : List Bool) (s : FixedMemReadSerializer) :
    FixedMemReadSerializer :=
  { s with
    memPtr := s.memPtr + n
    bytesCount := s.bytesCount + UInt32.ofNat n
    integrityCounter := c
    asserts := s.asserts ++ outcomes }

variable (s : FixedMemReadSerializer)

@[simp] lemma consume_dataVersion (n : ℕ) (c : UInt32) (outcomes : List Bool) :
    (s.consume n c outcomes).dataVersion = s.dataVersion := rfl

@[simp] lemma consume_integrityCounter (n : ℕ) (c : UInt32) (outcomes : List Bool) :
    (s.consume n c outcomes).integrityCounter = c := rfl

@[simp] lemma consume_memPtr (n : ℕ) (c : UInt32) (outcomes : List Bool) :
    (s.consume n c outcomes).memPtr = s.memPtr + n := rfl

@[simp] lemma consume_mem (n : ℕ) (c : UInt32) (outcomes : List Bool) :
    (s.consume n c outcomes).mem = s.mem := rfl

@[simp] lemma consume_bytesCount (n : ℕ) (c : UInt32) (outcomes : List Bool) :
    (s.consume n c outcomes).bytesCount = s.bytesCount + UInt32.ofNat n := rfl

@[simp] lemma consume_asserts (n : ℕ) (c : UInt32) (outcomes : List Bool) :
    (s.consume n c outcomes).asserts = s.asserts ++ outcomes := rfl

@[simp] lemma consume_zero : s.consume 0 s.integrityCounter [] = s := by
  simp [consume]

lemma consume_consume (n k : ℕ) (c d : UInt32) (xs ys : List Bool) :
    (s.consume n c xs).consume k d ys = s.consume (n + k) d (xs ++ ys) := by
  simp [consume, Nat.add_assoc, UInt32.add_assoc, UInt32.ofNat_add]

/-! ## One access

The three functions that touch the buffer, each as one consumption.  The reader changes no memory,
so what it finds is always what was there at the start.
-/

lemma serializePod_snd (n : ℕ) : (s.serializePod n).2 = s.consume n s.integrityCounter [] := by
  simp [serializePod, consume]

lemma serializeStringHolder_fst :
    (s.serializeStringHolder).1 = ⟨u32OfBytes (load s.mem s.memPtr 4), s.memPtr + 4⟩ := rfl

lemma serializeStringHolder_snd :
    (s.serializeStringHolder).2
      = s.consume (4 + (u32OfBytes (load s.mem s.memPtr 4)).toNat) s.integrityCounter [] := by
  simp [serializeStringHolder, serializePod, consume, Pod.toU32, Nat.add_assoc,
    UInt32.add_assoc, UInt32.ofNat_add]

lemma checkIntegrity_live {checkAdded : UInt32} (h : checkAdded ≤ s.dataVersion) :
    s.checkIntegrity checkAdded
      = s.consume 4 (s.integrityCounter + 1)
          [u32OfBytes (load s.mem s.memPtr 4) == s.integrityCounter] := by
  rw [checkIntegrity, if_pos h]
  simp [serializePod, consume, Pod.toU32]

lemma checkIntegrity_not_live {checkAdded : UInt32} (h : ¬ checkAdded ≤ s.dataVersion) :
    s.checkIntegrity checkAdded = s := if_neg h

/-! ## Whole bodies -/

variable {trivial : Bool} {α : Type}

/-- **Reading back what a body with the same statements on the wire encodes.**  By induction on
`SameWire`: at each statement the bytes split where the encoder joined them, and the two integrity
counters stay equal. -/
theorem addPreprocessed_eq_consume {B B' : Schema trivial α} {v : UInt32} (hwire : B.SameWire v B')
    (mem : Mem UInt8) (datum old : α) (s : FixedMemReadSerializer) (hv : s.dataVersion = v)
    (h : load s.mem s.memPtr (B.size v datum) = B.encode v mem datum s.integrityCounter) :
    (B'.addPreprocessed old s).2
      = s.consume (B.size v datum) (B.counterAfter v s.integrityCounter)
          (List.replicate (B.checks v) true) := by
  induction hwire generalizing s with
  | pod n => exact s.serializePod_snd n
  | stringHolder =>
      simp only [Schema.size, Schema.encode] at h
      have hlen : load s.mem s.memPtr 4 = bytesOfU32 datum.length :=
        (load_eq_append (length_bytesOfU32 _) h).1
      refine s.serializeStringHolder_snd.trans ?_
      rw [hlen, u32OfBytes_bytesOfU32]
      rfl
  | done => exact s.consume_zero.symm
  | @live t α β code code' type type' rest rest' hl hl' ht hr iht ihr =>
      simp only [Schema.size, Schema.encode, Schema.counterAfter, Schema.checks, hl, if_true]
        at h ⊢
      obtain ⟨hhead, htail⟩ := load_eq_append (Schema.length_encode _ _ _ _) h
      have htype := iht (code.source datum.1) (code'.source old.1) s hv hhead
      have hrest := ihr datum.2 old.2 (s.consume _ (type.counterAfter v _)
        (List.replicate (type.checks v) true)) hv htail
      rw [Schema.addPreprocessed_live hv hl', htype, hrest, consume_consume,
        consume_integrityCounter, List.replicate_append_replicate]
  | absent hl hl' hr ih =>
      simp only [Schema.size, Schema.encode, Schema.counterAfter, Schema.checks, hl] at h ⊢
      rw [Schema.addPreprocessed_not_live hv hl']
      exact ih datum.2 old.2 s hv h
  | @check β a rest rest' ha hr ih =>
      simp only [Schema.size, Schema.encode, Schema.counterAfter, Schema.checks, ha, if_true]
        at h ⊢
      obtain ⟨hhead, htail⟩ := load_eq_append (length_bytesOfU32 _) h
      have hcheck : Serializer.checkIntegrity a s
          = s.consume 4 (s.integrityCounter + 1) [true] := by
        refine (s.checkIntegrity_live (hv ▸ ha)).trans ?_
        rw [hhead, u32OfBytes_bytesOfU32, beq_self_eq_true]
      have hrest := ih datum old (s.consume 4 (s.integrityCounter + 1) [true]) hv htail
      rw [Schema.addPreprocessed_checkIntegrity, hcheck, hrest, consume_consume,
        consume_integrityCounter, ← List.replicate_one, List.replicate_append_replicate]
  | skipLeft ha hr ih =>
      simp only [Schema.size, Schema.encode, Schema.counterAfter, Schema.checks, ha, if_false]
        at h ⊢
      exact ih datum old s hv h
  | @skipRight β a rest rest' ha hr ih =>
      have hcheck : Serializer.checkIntegrity a s = s := s.checkIntegrity_not_live (hv ▸ ha)
      rw [Schema.addPreprocessed_checkIntegrity, hcheck, ih datum old s hv h]

/-- **What is known of a read** of `datum` by `B` that took the reader from `s` to `s'`: how far it
went, what it saw if every comparison on the way held, and where the strings it produced lie.  One
lemma for each constructor of a body carries it from the parts to the whole. -/
structure Consumed (B : Schema trivial α) (s : FixedMemReadSerializer) (datum : α)
    (s' : FixedMemReadSerializer) (outcomes : List Bool) : Prop where
  state : s' = s.consume (B.size s.dataVersion datum)
    (B.counterAfter s.dataVersion s.integrityCounter) outcomes
  bytes : (∀ b ∈ outcomes, b = true) → load s.mem s.memPtr (B.size s.dataVersion datum)
    = B.encode s.dataVersion s.mem datum s.integrityCounter
  strings : ∀ str ∈ B.copied s.dataVersion datum, s.memPtr ≤ str.data ∧
    str.data + str.length.toNat ≤ s.memPtr + B.size s.dataVersion datum

namespace Consumed

variable {β : Type} {type : Schema trivial α} {rest : Schema false β}
  {s s₁ s₂ : FixedMemReadSerializer} {x : α} {y : β} {outcomes outcomes' : List Bool}

/-- A slot that is not live leaves no trace, neither in the bytes nor among the strings. -/
lemma absent {code : FieldCode α} (hl : code.live s.dataVersion = false)
    (h : Consumed rest s y s₂ outcomes) :
    Consumed (Schema.field code type rest) s (x, y) s₂ outcomes := by
  constructor
  · simpa [Schema.size, Schema.counterAfter, hl] using h.state
  · simpa [Schema.size, Schema.encode, hl] using h.bytes
  · simpa [Schema.size, Schema.copied, hl] using h.strings

/-- A live slot and then the rest of the body: the two extents lie one behind the other. -/
lemma live {code : FieldCode α} (hl : code.live s.dataVersion = true) (hx : code.source x = x)
    (h : Consumed type s x s₁ outcomes) (h' : Consumed rest s₁ y s₂ outcomes') :
    Consumed (Schema.field code type rest) s (x, y) s₂ (outcomes ++ outcomes') := by
  obtain rfl := h.state
  have hsize : (Schema.field code type rest).size s.dataVersion (x, y)
      = type.size s.dataVersion x + rest.size s.dataVersion y := by
    simp [Schema.size, hl, hx]
  constructor
  · rw [hsize, h'.state, consume_consume]
    simp [Schema.counterAfter, hl]
  · intro hok
    have hhead := h.bytes fun b hb => hok b (List.mem_append_left _ hb)
    have htail := h'.bytes fun b hb => hok b (List.mem_append_right _ hb)
    rw [hsize, load_add, hhead]
    refine (congrArg _ htail).trans ?_
    simp [Schema.encode, hl, hx]
  · intro str hs
    simp only [Schema.copied, hl, if_true, hx, List.mem_append] at hs
    rw [hsize]
    rcases hs with hs | hs
    · have := h.strings str hs
      omega
    · have := h'.strings str hs
      simp only [consume_dataVersion, consume_memPtr] at this
      omega

/-- An integrity value and then the rest of the body. -/
lemma check {checkAdded : UInt32} (ha : checkAdded ≤ s.dataVersion)
    (h : Consumed rest (s.checkIntegrity checkAdded) y s₂ outcomes) :
    Consumed (Schema.checkIntegrity checkAdded rest) s y s₂
      ((u32OfBytes (load s.mem s.memPtr 4) == s.integrityCounter) :: outcomes) := by
  rw [s.checkIntegrity_live ha] at h
  have hsize : (Schema.checkIntegrity checkAdded rest).size s.dataVersion y
      = 4 + rest.size s.dataVersion y := by
    simp [Schema.size, ha]
  constructor
  · rw [hsize, h.state, consume_consume]
    simp [Schema.counterAfter, ha]
  · intro hok
    have hcheck : u32OfBytes (load s.mem s.memPtr 4) = s.integrityCounter :=
      eq_of_beq (hok _ List.mem_cons_self)
    have hhead : load s.mem s.memPtr 4 = bytesOfU32 s.integrityCounter := by
      rw [← hcheck, bytesOfU32_u32OfBytes length_load]
    have htail := h.bytes fun b hb => hok b (List.mem_cons_of_mem _ hb)
    rw [hsize, load_add, hhead]
    refine (congrArg _ htail).trans ?_
    simp [Schema.encode, ha]
  · intro str hs
    have := h.strings str hs
    simp only [consume_dataVersion, consume_memPtr] at this
    rw [hsize]
    omega

/-- A checkpoint that is not live leaves no trace. -/
lemma skip {checkAdded : UInt32} (ha : ¬ checkAdded ≤ s.dataVersion)
    (h : Consumed rest (s.checkIntegrity checkAdded) y s₂ outcomes) :
    Consumed (Schema.checkIntegrity checkAdded rest) s y s₂ outcomes := by
  rw [s.checkIntegrity_not_live ha] at h
  constructor
  · simpa [Schema.size, Schema.counterAfter, ha] using h.state
  · simpa [Schema.size, Schema.encode, ha] using h.bytes
  · simpa [Schema.size, Schema.copied, ha] using h.strings

end Consumed

/-- **What was consumed is the encoding of what was read.**  By induction on the body, for arbitrary
bytes: a length prefix that was read decides where the rest lies, and the encoding of the object
read says the same. -/
theorem addPreprocessed_sound {B : Schema trivial α} (hB : B.NoRemove) (old : α)
    (s : FixedMemReadSerializer) :
    ∃ outcomes, Consumed B s (B.addPreprocessed old s).1 (B.addPreprocessed old s).2 outcomes := by
  induction B generalizing s with
  | pod n =>
      exact ⟨[], s.serializePod_snd n, fun _ => rfl, fun str hs => by simp [Schema.copied] at hs⟩
  | stringHolder =>
      have hread : (Schema.stringHolder.addPreprocessed old s).1
          = ⟨u32OfBytes (load s.mem s.memPtr 4), s.memPtr + 4⟩ := rfl
      refine ⟨[], s.serializeStringHolder_snd, fun _ => ?_, fun str hs => ?_⟩
      · rw [hread, Schema.size, Schema.encode, bytesOfU32_u32OfBytes length_load, load_add]
      · rw [hread, Schema.copied, List.mem_singleton] at hs
        subst hs
        exact ⟨Nat.le_add_right _ _, Nat.le_of_eq (Nat.add_assoc _ _ _)⟩
  | done =>
      exact ⟨[], s.consume_zero.symm, fun _ => rfl, fun str hs => by simp [Schema.copied] at hs⟩
  | field code type rest iht ihr =>
      obtain ⟨hremove, htype, hrest⟩ := hB
      cases hl : code.live s.dataVersion
      · obtain ⟨outcomes, h⟩ := ihr hrest old.2 s
        rw [Schema.addPreprocessed_not_live rfl hl]
        exact ⟨outcomes, h.absent hl⟩
      · obtain ⟨outcomes, h⟩ := iht htype old.1 s
        obtain ⟨outcomes', h'⟩ := ihr hrest old.2 (type.addPreprocessed old.1 s).2
        rw [Schema.addPreprocessed_live rfl hl, FieldCode.source_eq hremove]
        exact ⟨outcomes ++ outcomes', h.live hl (FieldCode.source_eq hremove _) h'⟩
  | checkIntegrity checkAdded rest ih =>
      obtain ⟨outcomes, h⟩ := ih hB old (s.checkIntegrity checkAdded)
      by_cases ha : checkAdded ≤ s.dataVersion
      · exact ⟨_, h.check ha⟩
      · exact ⟨_, h.skip ha⟩

end FixedMemReadSerializer

end MinSeq
