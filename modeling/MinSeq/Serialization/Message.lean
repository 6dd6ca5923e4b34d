import MinSeq.Serialization.Serializers

/-!
# Messages: what the generated `serialize` templates do

A message type serializes itself by running a list of statements over its members: a
`SERIALIZATION_ADD`, a `SERIALIZATION_ADD_NO_VERSIONING`, a call of `remove`, a `checkIntegrity`.
The templates themselves are generated and not part of the repository, but what they may contain is,
since the header defines the macros and functions they are made of.  `Schema` is the syntax of such
a body and `Schema.addPreprocessed` runs it.

**Trivial and not.**  A schema is indexed by what `std::is_trivial<Type>()` yields for its type,
which is what `addPreprocessed` dispatches on, and by the Lean type of the objects.  A trivially
copyable type and `StringHolder` take the `std::true_type` overloads, a record runs its own body.  A
record object is the tuple of its member slots, in the order of the statements about them.

**One body for both.**  A body serves reader and writer, exactly as the template does.  Reading and
writing can therefore only disagree where the two serializers do, and that is what the modules after
this one look at: once for the bytes, once for the pointer, once for the counters.
-/

namespace MinSeq

variable {S α : Type} [Serializer S]

/-! ## The macros and `remove`

Each takes the `addPreprocessed` of the member's type as its first argument.
-/

/-- **`SERIALIZATION_ADD`.**  Its else branch assigns the default, whichever serializer it is used
with, so writing an old version changes the object as well.  The commented-out function `add` of the
writer has no such branch. -/
def serializationAdd (addPreprocessed : α → S → α × S) (version : UInt32) (var defaultValue : α)
    (s : S) : α × S :=
  if Serializer.dataVersion s ≥ version then addPreprocessed var s else (defaultValue, s)

/-- **`SERIALIZATION_ADD_NO_VERSIONING`** is given a version and a default too, and uses neither. -/
def serializationAddNoVersioning (addPreprocessed : α → S → α × S) (var : α) (s : S) : α × S :=
  addPreprocessed var s

/-- `remove<Type>`, the same text in both serializers; the first component is what it returns. -/
def remove (addPreprocessed : α → S → α × S) (fieldAdded fieldRemoved : UInt32)
    (defaultValue : α) (s : S) : α × S :=
  let field := defaultValue
  if Serializer.dataVersion s ≥ fieldAdded ∧ Serializer.dataVersion s < fieldRemoved then
    addPreprocessed field s
  else (field, s)

/-! ## Schemas -/

/-- **What a body does about one member slot.**  The slot of a removed field is the variable that
receives the result of `remove`; `skip` is the slot of a field this code does not name at all, as
one generation of a message does not name what a later one adds. -/
inductive FieldCode (α : Type) where
  | add (version : UInt32) (defaultValue : α)
  | addNoVersioning
  | remove (fieldAdded fieldRemoved : UInt32) (defaultValue : α)
  | skip

/-- **How a type serializes itself.**  A record whose type is trivial is copied byte by byte and
never runs a body of its own, so it is a `pod` here; the record schemas, made of `done`, `field` and
`checkIntegrity`, stand for types that are not trivial. -/
inductive Schema : Bool → Type → Type 1 where
  | pod (size : ℕ) : Schema true (Pod size)
  | stringHolder : Schema true StringHolder
  | done : Schema false Unit
  | field {trivial : Bool} {α β : Type} (code : FieldCode α) (type : Schema trivial α)
      (rest : Schema false β) : Schema false (α × β)
  | checkIntegrity {β : Type} (checkAdded : UInt32) (rest : Schema false β) : Schema false β

/-- Runs the statement about one member slot, with `addPreprocessed` for the member's type. -/
def FieldCode.run (addPreprocessed : α → S → α × S) : FieldCode α → α → S → α × S
  | FieldCode.add version defaultValue, var, s =>
      serializationAdd addPreprocessed version var defaultValue s
  | FieldCode.addNoVersioning, var, s => serializationAddNoVersioning addPreprocessed var s
  | FieldCode.remove fieldAdded fieldRemoved defaultValue, _, s =>
      MinSeq.remove addPreprocessed fieldAdded fieldRemoved defaultValue s
  | FieldCode.skip, slot, s => (slot, s)

/-- **`addPreprocessed`**: dispatch on `std::is_trivial`, where a type that is not trivial runs its
own `serialize`.  The object goes in by reference, so its new value comes out.  The recursion
follows the body and, at each field, the schema of the field's own type. -/
def Schema.addPreprocessed : {trivial : Bool} → {α : Type} → Schema trivial α → α → S → α × S
  | _, _, Schema.pod _, datum, s => Serializer.serializePod datum s
  | _, _, Schema.stringHolder, datum, s => Serializer.serializeStringHolder datum s
  | _, _, Schema.done, datum, s => (datum, s)
  | _, _, Schema.field code type rest, datum, s =>
      let r := code.run (fun x s => type.addPreprocessed x s) datum.1 s
      let r' := rest.addPreprocessed datum.2 r.2
      ((r.1, r'.1), r'.2)
  | _, _, Schema.checkIntegrity checkAdded rest, datum, s =>
      rest.addPreprocessed datum (Serializer.checkIntegrity checkAdded s)

/-! ## When a slot is on the wire

Whatever the statement, a slot is either serialized or given a value without touching the buffer;
the data version alone decides which.
-/

/-- **The slot is serialized** at data version `v`.  For a removed field these are the versions from
the one that added it up to the one that removed it. -/
def FieldCode.live (v : UInt32) : FieldCode α → Bool
  | FieldCode.add version _ => v ≥ version
  | FieldCode.addNoVersioning => true
  | FieldCode.remove fieldAdded fieldRemoved _ => v ≥ fieldAdded ∧ v < fieldRemoved
  | FieldCode.skip => false

/-- The object handed to `addPreprocessed` for a live slot.  A removed field has no member any more,
and `remove` hands over its default instead. -/
def FieldCode.source : FieldCode α → α → α
  | FieldCode.remove _ _ defaultValue, _ => defaultValue
  | _, var => var

/-- What a slot holds after the statement when it is not live: the default where the statement names
one, and whatever it held before where it does not. -/
def FieldCode.unsent : FieldCode α → α → α
  | FieldCode.add _ defaultValue, _ => defaultValue
  | FieldCode.remove _ _ defaultValue, _ => defaultValue
  | _, var => var

/-- A statement about a live slot comes down to one call of `addPreprocessed`. -/
lemma FieldCode.run_live {code : FieldCode α} {f : α → S → α × S} {var : α} {s : S}
    (h : code.live (Serializer.dataVersion s) = true) :
    code.run f var s = f (code.source var) s := by
  cases code with
  | add version defaultValue =>
      exact if_pos (of_decide_eq_true h)
  | addNoVersioning => rfl
  | remove fieldAdded fieldRemoved defaultValue =>
      exact if_pos (of_decide_eq_true h)
  | skip => exact absurd h (by simp [FieldCode.live])

/-- A statement about any other slot comes down to an assignment. -/
lemma FieldCode.run_not_live {code : FieldCode α} {f : α → S → α × S} {var : α} {s : S}
    (h : code.live (Serializer.dataVersion s) = false) :
    code.run f var s = (code.unsent var, s) := by
  cases code with
  | add version defaultValue =>
      exact if_neg (of_decide_eq_false h)
  | addNoVersioning => exact absurd h (by simp [FieldCode.live])
  | remove fieldAdded fieldRemoved defaultValue =>
      exact if_neg (of_decide_eq_false h)
  | skip => rfl

section

variable {trivial : Bool} {β : Type} {code : FieldCode α} {type : Schema trivial α}
  {rest : Schema false β} {datum : α × β} {s : S} {v : UInt32}

/-- A live slot is serialized, and the rest of the body goes on from there. -/
lemma Schema.addPreprocessed_live (hv : Serializer.dataVersion s = v) (h : code.live v = true) :
    (Schema.field code type rest).addPreprocessed datum s
      = (((type.addPreprocessed (code.source datum.1) s).1,
            (rest.addPreprocessed datum.2 (type.addPreprocessed (code.source datum.1) s).2).1),
          (rest.addPreprocessed datum.2 (type.addPreprocessed (code.source datum.1) s).2).2) := by
  subst hv
  rw [Schema.addPreprocessed, FieldCode.run_live h]

/-- A slot that is not live does not touch the serializer. -/
lemma Schema.addPreprocessed_not_live (hv : Serializer.dataVersion s = v)
    (h : code.live v = false) :
    (Schema.field code type rest).addPreprocessed datum s
      = ((code.unsent datum.1, (rest.addPreprocessed datum.2 s).1),
          (rest.addPreprocessed datum.2 s).2) := by
  subst hv
  rw [Schema.addPreprocessed, FieldCode.run_not_live h]

lemma Schema.addPreprocessed_checkIntegrity {checkAdded : UInt32} {datum : β} :
    (Schema.checkIntegrity checkAdded rest).addPreprocessed datum s
      = rest.addPreprocessed datum (Serializer.checkIntegrity checkAdded s) := rfl

end

end MinSeq
