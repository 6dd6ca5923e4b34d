import MinSeq.Serialization.Exchange

/-!
# Counting the size of a message

The generated code of a message also counts its size before it is written, field by field, with the
`SERIALIZATION_COUNT` macros.  `FlatMessage` describes a message of trivially copyable fields and
strings; `FlatMessage.schema` is its `serialize` body and `FlatMessage.count` its counting body,
each made of the macros that belong together.

The serializers carry no end pointer, so the count is all that keeps a write inside its buffer.  It
is a second description of the same message, kept in step by hand or by a generator, and nothing at
run time compares the two.

* **`count_agrees`** — the count, the writer's advance, the reader's advance and `bytesCount` on
  both sides are one number, as long as it fits in 32 bits.
-/

namespace MinSeq

open Memory LittleEndian

/-! ## The counting macros

`_sizeVar` is a 32-bit variable; `sizeof` and the sum with a string's length are of type `size_t`
and are cut to 32 bits when they are added to it.
-/

section

variable {S : Type} [Serializer S]

/-- **`SERIALIZATION_COUNT_POD`**, for a type of `sizeof` bytes.  It makes the same comparison as
`SERIALIZATION_ADD`, which is what keeps the two in step. -/
def serializationCountPod (serializer : S) (version sizeVar : UInt32) (sizeof : ℕ) : UInt32 :=
  if Serializer.dataVersion serializer ≥ version then sizeVar + UInt32.ofNat sizeof else sizeVar

/-- **`SERIALIZATION_COUNT_STRING`**: the length word, and as many bytes as it says. -/
def serializationCountString (serializer : S) (version sizeVar : UInt32) (var : StringHolder) :
    UInt32 :=
  if Serializer.dataVersion serializer ≥ version then
    sizeVar + UInt32.ofNat (4 + var.length.toNat)
  else sizeVar

/-- `SERIALIZATION_COUNT_POD_NO_VERSIONING` counts at every data version. -/
def serializationCountPodNoVersioning (sizeVar : UInt32) (sizeof : ℕ) : UInt32 :=
  sizeVar + UInt32.ofNat sizeof

/-- `SERIALIZATION_COUNT_STRING_NO_VERSIONING` does so for a string. -/
def serializationCountStringNoVersioning (sizeVar : UInt32) (var : StringHolder) : UInt32 :=
  sizeVar + UInt32.ofNat (4 + var.length.toNat)

end

/-! ## Messages that can be counted -/

/-- Whether a field uses the versioned pair of macros or the `_NO_VERSIONING` pair. -/
inductive Versioning where
  | versioned (version : UInt32)
  | unversioned

/-- **A message of trivially copyable fields and strings**, with integrity checkpoints in between.
There is no counting macro for a nested record, a `std::string` or a removed field. -/
inductive FlatMessage : Type → Type 1 where
  | done : FlatMessage Unit
  | pod {β : Type} (size : ℕ) (versioning : Versioning) (defaultValue : Pod size)
      (rest : FlatMessage β) : FlatMessage (Pod size × β)
  | string {β : Type} (versioning : Versioning) (defaultValue : StringHolder)
      (rest : FlatMessage β) : FlatMessage (StringHolder × β)
  | checkpoint {β : Type} (checkAdded : UInt32) (rest : FlatMessage β) : FlatMessage β

/-- The macro of `serialize` for a field. -/
def Versioning.fieldCode {α : Type} (defaultValue : α) : Versioning → FieldCode α
  | Versioning.versioned version => FieldCode.add version defaultValue
  | Versioning.unversioned => FieldCode.addNoVersioning

namespace FlatMessage

/-- **The `serialize` body** of the message, one statement for each entry. -/
def schema : {α : Type} → FlatMessage α → Schema false α
  | _, FlatMessage.done => Schema.done
  | _, FlatMessage.pod size versioning defaultValue rest =>
      Schema.field (versioning.fieldCode defaultValue) (Schema.pod size) rest.schema
  | _, FlatMessage.string versioning defaultValue rest =>
      Schema.field (versioning.fieldCode defaultValue) Schema.stringHolder rest.schema
  | _, FlatMessage.checkpoint checkAdded rest => Schema.checkIntegrity checkAdded rest.schema

/-- **The counting body** of the message; a checkpoint counts as a `uint32_t` added at its version.
A default is never counted, as the macro for it does not look at the member. -/
def count {S : Type} [Serializer S] (serializer : S) :
    {α : Type} → FlatMessage α → α → UInt32 → UInt32
  | _, FlatMessage.done, _, sizeVar => sizeVar
  | _, FlatMessage.pod size (Versioning.versioned version) _ rest, datum, sizeVar =>
      rest.count serializer datum.2 (serializationCountPod serializer version sizeVar size)
  | _, FlatMessage.pod size Versioning.unversioned _ rest, datum, sizeVar =>
      rest.count serializer datum.2 (serializationCountPodNoVersioning sizeVar size)
  | _, FlatMessage.string (Versioning.versioned version) _ rest, datum, sizeVar =>
      rest.count serializer datum.2 (serializationCountString serializer version sizeVar datum.1)
  | _, FlatMessage.string Versioning.unversioned _ rest, datum, sizeVar =>
      rest.count serializer datum.2 (serializationCountStringNoVersioning sizeVar datum.1)
  | _, FlatMessage.checkpoint checkAdded rest, datum, sizeVar =>
      rest.count serializer datum (serializationCountPod serializer checkAdded sizeVar 4)

variable {α : Type}

/-- **Counting adds the size of the format**, wrapped to 32 bits. -/
lemma count_eq {S : Type} [Serializer S] (serializer : S) (M : FlatMessage α) (datum : α)
    (sizeVar : UInt32) :
    M.count serializer datum sizeVar
      = sizeVar + UInt32.ofNat (M.schema.size (Serializer.dataVersion serializer) datum) := by
  induction M generalizing sizeVar with
  | done => simp [count, schema, Schema.size]
  | pod size versioning d rest ih =>
      cases versioning with
      | versioned version =>
          simp only [count, ih, serializationCountPod, schema, Schema.size, Versioning.fieldCode,
            FieldCode.live, decide_eq_true_eq]
          split <;> simp [UInt32.ofNat_add, UInt32.add_assoc]
      | unversioned =>
          simp [count, ih, serializationCountPodNoVersioning, schema, Schema.size,
            Versioning.fieldCode, FieldCode.live, UInt32.add_assoc]
  | string versioning d rest ih =>
      cases versioning with
      | versioned version =>
          simp only [count, ih, serializationCountString, schema, Schema.size,
            Versioning.fieldCode, FieldCode.live, decide_eq_true_eq]
          split <;> simp [UInt32.ofNat_add, UInt32.add_assoc, FieldCode.source]
      | unversioned =>
          simp [count, ih, serializationCountStringNoVersioning, schema, Schema.size,
            Versioning.fieldCode, FieldCode.live, FieldCode.source, UInt32.add_assoc]
  | checkpoint checkAdded rest ih =>
      simp only [count, ih, serializationCountPod, schema, Schema.size]
      split <;> simp [UInt32.ofNat_add, UInt32.add_assoc]

end FlatMessage

/-- **Four computations of one size.**  For a message whose size fits in 32 bits: the count, how far
the writer moves, how far the reader of its output moves, and `bytesCount` on both sides. -/
theorem count_agrees {α : Type} (M : FlatMessage α) (datum old : α) (v : UInt32)
    (w : FixedMemWriteSerializer) (r : FixedMemReadSerializer) (p capacity : ℕ)
    (hsize : M.schema.size v datum < 2 ^ 32) (hfit : M.schema.size v datum ≤ capacity)
    (hsep : ∀ str ∈ M.schema.copied v datum, Apart str.data str.length.toNat p capacity) :
    let total := M.count (w.setVersion v) datum 0
    let written := writeMessage M.schema v p datum w
    let decoded := readMessage M.schema v p old { r with mem := written.2.mem }
    total.toNat = written.2.memPtr - p ∧ total.toNat = decoded.2.memPtr - p ∧
      written.2.bytesCount = total ∧ decoded.2.bytesCount = total := by
  intro total written decoded
  have htotal : total = UInt32.ofNat (M.schema.size v datum) := by
    change M.count (w.setVersion v) datum 0 = _
    rw [FlatMessage.count_eq, UInt32.zero_add]
    rfl
  have hread := readMessage_writeMessage (Schema.SameWire.refl M.schema) datum old w r hfit hsep
  have hmemPtr : written.2.memPtr = p + M.schema.size v datum := writeMessage_memPtr hfit hsep
  have hadvance : total.toNat = written.2.memPtr - p := by
    rw [htotal, UInt32.toNat_ofNat_of_lt' hsize, hmemPtr, Nat.add_sub_cancel_left]
  have hcount : written.2.bytesCount = total :=
    (writeMessage_bytesCount hfit hsep).trans htotal.symm
  exact ⟨hadvance, hread.memPtr ▸ hadvance, hcount, hread.bytesCount.trans hcount⟩

/-- A versioned word, a checkpoint and an unversioned string of three bytes. -/
theorem count_agrees_sample :
    let M := FlatMessage.pod 4 (Versioning.versioned 1) (Pod.ofU32 0)
      (FlatMessage.checkpoint 2
        (FlatMessage.string Versioning.unversioned ⟨0, 0⟩ FlatMessage.done))
    let datum := (Pod.ofU32 7, (⟨3, 40⟩ : StringHolder), ())
    let w : FixedMemWriteSerializer := ⟨0, 0, 0, 0, fun a => UInt8.ofNat a⟩
    let r : FixedMemReadSerializer := ⟨0, 0, 0, 0, fun _ => 0, []⟩
    let total := M.count (w.setVersion 2) datum 0
    let written := writeMessage M.schema 2 100 datum w
    let decoded := readMessage M.schema 2 100 datum { r with mem := written.2.mem }
    total.toNat = written.2.memPtr - 100 ∧ total.toNat = decoded.2.memPtr - 100 ∧
      written.2.bytesCount = total ∧ decoded.2.bytesCount = total :=
  count_agrees _ _ _ 2 _ _ 100 15 (by decide) (by decide) (by decide)

end MinSeq
