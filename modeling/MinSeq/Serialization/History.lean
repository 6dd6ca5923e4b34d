import MinSeq.Serialization.Exchange

/-!
# Schema histories and the code of each generation

A message type evolves: fields are added at a version, perhaps removed at a later one, and integrity
checkpoints are put in between.  `History` is the list of everything that ever was in the type;
`History.codeAt g` is the body that the code of generation `g` runs.  A program of generation 5
still has to read what one of generation 3 wrote, and the other way round.

**No tags.**  The format carries no tags and no field lengths, so two generations understand each
other only if they decide alike what is present.  They do, for every data version both of them know.
The notion this rests on is `memberAt`: a field is on the wire at data version `v` exactly when it
is a member of the type in generation `v`, no matter which later generation's code is running.

**Nested records** have histories of their own, and each generation's code runs the nested body of
the same generation.

* **`sameWire_codeAt`** — for `v ≤ g` and `v ≤ h` the two bodies put the same statements on the
  wire.
* **`cross_generation_round_trip`** — generation `h` reads what generation `g` wrote: every
  comparison holds, the reader ends where the writer ended, and every field is delivered.
-/

namespace MinSeq

open Memory LittleEndian

/-- **Everything that was ever part of a type**, in order.  A field that was removed was removed
after it was added, which is part of the type here. -/
inductive History : Bool → Type → Type 1 where
  | pod (size : ℕ) : History true (Pod size)
  | stringHolder : History true StringHolder
  | nil : History false Unit
  | field {trivial : Bool} {α β : Type} (added : UInt32)
      (removed : Option { r : UInt32 // added < r }) (defaultValue : α)
      (type : History trivial α) (rest : History false β) : History false (α × β)
  | checkpoint {β : Type} (added : UInt32) (rest : History false β) : History false β

section

variable {α : Type} {added : UInt32} {removed : Option { r : UInt32 // added < r }}
  {g h v : UInt32}

/-- **The field is a member** of the type in generation `g`: added by then, and not removed yet. -/
def memberAt (g added : UInt32) (removed : Option { r : UInt32 // added < r }) : Bool :=
  decide (added ≤ g) && removed.all fun r => decide (g < r.1)

/-- **What the code of generation `g` does about a field**: it adds a member, calls `remove` for one
that it has no more, and knows nothing of one that is still to come. -/
def fieldCodeAt (g added : UInt32) (removed : Option { r : UInt32 // added < r })
    (defaultValue : α) : FieldCode α :=
  if added ≤ g then
    match removed with
    | some r =>
        if r.1 ≤ g then FieldCode.remove added r.1 defaultValue
        else FieldCode.add added defaultValue
    | none => FieldCode.add added defaultValue
  else FieldCode.skip

/-- **A field is on the wire at data version `v` exactly when it is a member in generation `v`**, no
matter which later generation's code is running. -/
lemma live_fieldCodeAt (removed : Option { r : UInt32 // added < r }) (d : α) (hv : v ≤ g) :
    (fieldCodeAt g added removed d).live v = memberAt v added removed := by
  rw [UInt32.le_iff_toNat_le] at hv
  cases removed with
  | none =>
      simp only [fieldCodeAt, memberAt, UInt32.le_iff_toNat_le]
      split
      · simp [FieldCode.live, UInt32.le_iff_toNat_le]
      · simp [FieldCode.live]
        omega
  | some r =>
      have hr := UInt32.lt_iff_toNat_lt.mp r.2
      simp only [fieldCodeAt, memberAt, UInt32.le_iff_toNat_le]
      split
      · split
        · simp [FieldCode.live, UInt32.le_iff_toNat_le, UInt32.lt_iff_toNat_lt]
        · simp [FieldCode.live, UInt32.le_iff_toNat_le, UInt32.lt_iff_toNat_lt]
          omega
      · simp [FieldCode.live, UInt32.lt_iff_toNat_lt]
        omega

lemma added_le_of_memberAt (hm : memberAt g added removed = true) : added ≤ g :=
  of_decide_eq_true (Bool.and_eq_true_iff.1 hm).1

/-- What goes on the wire: the member if there is one, the default of `remove` if not. -/
lemma source_fieldCodeAt {d : α} (x : α) (hg : added ≤ g) :
    (fieldCodeAt g added removed d).source x = if memberAt g added removed then x else d := by
  cases removed with
  | none => simp [fieldCodeAt, memberAt, hg, FieldCode.source]
  | some r =>
      by_cases hr : r.1 ≤ g
      · simp [fieldCodeAt, memberAt, hg, hr, FieldCode.source, UInt32.not_lt.mpr hr]
      · simp [fieldCodeAt, memberAt, hg, hr, FieldCode.source, UInt32.not_le.mp hr]

/-- What a field that the code knows holds if it was not on the wire: its default, whether it is a
member or not. -/
lemma unsent_fieldCodeAt {d : α} (x : α) (hg : added ≤ g) :
    (fieldCodeAt g added removed d).unsent x = d := by
  cases removed with
  | none => simp [fieldCodeAt, hg, FieldCode.unsent]
  | some r => by_cases hr : r.1 ≤ g <;> simp [fieldCodeAt, hg, hr, FieldCode.unsent]

end

namespace History

/-- **The body that the code of generation `g` runs**: the statements about all the fields that it
knows of, in the order of the history. -/
def codeAt (g : UInt32) : {trivial : Bool} → {α : Type} → History trivial α → Schema trivial α
  | _, _, History.pod n => Schema.pod n
  | _, _, History.stringHolder => Schema.stringHolder
  | _, _, History.nil => Schema.done
  | _, _, History.field added removed defaultValue type rest =>
      Schema.field (fieldCodeAt g added removed defaultValue) (type.codeAt g) (rest.codeAt g)
  | _, _, History.checkpoint added rest =>
      if added ≤ g then Schema.checkIntegrity added (rest.codeAt g) else rest.codeAt g

/-- What generation `h` should hold after reading, at data version `v`, the object `x` that
generation `g` wrote.  Every field it has code for holds, if it was on the wire, what `g` had: its
member, or its default if `g` had removed the field already; and the default if it was not on the
wire.  For a field `h` has removed this is the value `remove` returns. -/
def Delivered (g h v : UInt32) (mem mem' : Mem UInt8) :
    {trivial : Bool} → {α : Type} → History trivial α → α → α → Prop
  | _, _, History.pod _, x, y => y = x
  | _, _, History.stringHolder, x, y => SameText mem mem' x y
  | _, _, History.nil, _, _ => True
  | _, _, History.field added removed defaultValue type rest, x, y =>
      (added ≤ h →
        if memberAt v added removed then
          type.Delivered g h v mem mem'
            (if memberAt g added removed then x.1 else defaultValue) y.1
        else y.1 = defaultValue) ∧
      rest.Delivered g h v mem mem' x.2 y.2
  | _, _, History.checkpoint _ rest, x, y => rest.Delivered g h v mem mem' x y

variable {trivial : Bool} {α : Type} {g h v : UInt32}

/-- **Two generations put the same statements on the wire** at every data version both know. -/
theorem sameWire_codeAt (hg : v ≤ g) (hh : v ≤ h) (H : History trivial α) :
    (H.codeAt g).SameWire v (H.codeAt h) := by
  induction H with
  | pod n => exact Schema.SameWire.pod n
  | stringHolder => exact Schema.SameWire.stringHolder
  | nil => exact Schema.SameWire.done
  | field added removed d type rest iht ihr =>
      have hlive := live_fieldCodeAt removed d hg
      have hlive' := live_fieldCodeAt removed d hh
      cases hm : memberAt v added removed
      · exact Schema.SameWire.absent (hlive.trans hm) (hlive'.trans hm) ihr
      · exact Schema.SameWire.live (hlive.trans hm) (hlive'.trans hm) iht ihr
  | checkpoint added rest ih =>
      simp only [codeAt]
      by_cases hav : added ≤ v
      · rw [if_pos (UInt32.le_trans hav hg), if_pos (UInt32.le_trans hav hh)]
        exact Schema.SameWire.check hav ih
      · -- a checkpoint newer than the data is on neither side's wire, whoever has code for it
        split_ifs
        · exact Schema.SameWire.skipLeft hav (Schema.SameWire.skipRight hav ih)
        · exact Schema.SameWire.skipLeft hav ih
        · exact Schema.SameWire.skipRight hav ih
        · exact ih

/-- Reading with generation `h` the bytes generation `g` encodes delivers every field.  By induction
on the history; `addPreprocessed_eq_consume` says where the reader stands after each entry. -/
theorem delivered_of_load (hg : v ≤ g) (hh : v ≤ h) (H : History trivial α) (mem : Mem UInt8)
    (x old : α) (s : FixedMemReadSerializer) (hv : s.dataVersion = v)
    (hload : load s.mem s.memPtr ((H.codeAt g).size v x)
      = (H.codeAt g).encode v mem x s.integrityCounter) :
    H.Delivered g h v mem s.mem x ((H.codeAt h).addPreprocessed old s).1 := by
  induction H generalizing s with
  | pod n => exact Subtype.ext hload
  | stringHolder =>
      obtain ⟨hlen, htext⟩ := load_eq_append (length_bytesOfU32 _) hload
      have hread : ((History.stringHolder.codeAt h).addPreprocessed old s).1
          = ⟨x.length, s.memPtr + 4⟩ := by
        refine s.serializeStringHolder_fst.trans ?_
        rw [hlen, u32OfBytes_bytesOfU32]
      rw [hread]
      exact ⟨rfl, htext⟩
  | nil => trivial
  | field added removed d type rest iht ihr =>
      have hlive := live_fieldCodeAt removed d hg
      have hlive' := live_fieldCodeAt removed d hh
      cases hm : memberAt v added removed
      · rw [hm] at hlive hlive'
        simp only [codeAt, Schema.size, Schema.encode, hlive] at hload
        simp only [codeAt, Schema.addPreprocessed_not_live (s := s) hv hlive', Delivered, hm,
          Bool.false_eq_true, if_false]
        exact ⟨fun ha => unsent_fieldCodeAt _ ha, ihr x.2 old.2 s hv hload⟩
      · rw [hm] at hlive hlive'
        simp only [codeAt, Schema.size, Schema.encode, hlive, if_true] at hload
        obtain ⟨hhead, htail⟩ := load_eq_append (Schema.length_encode _ _ _ _) hload
        have hag : added ≤ g := UInt32.le_trans (added_le_of_memberAt hm) hg
        have hstep := s.addPreprocessed_eq_consume (sameWire_codeAt hg hh type) mem _
          ((fieldCodeAt h added removed d).source old.1) hv hhead
        have htype := iht _ ((fieldCodeAt h added removed d).source old.1) s hv hhead
        have hrest := ihr x.2 old.2 (s.consume _ ((type.codeAt g).counterAfter v _)
          (List.replicate ((type.codeAt g).checks v) true)) hv htail
        rw [source_fieldCodeAt x.1 hag] at htype
        simp only [codeAt, Schema.addPreprocessed_live (s := s) hv hlive', Delivered, hm, if_true]
        refine ⟨fun _ => htype, ?_⟩
        rw [hstep]
        exact hrest
  | checkpoint added rest ih =>
      by_cases hav : added ≤ v
      · simp only [codeAt, if_pos (UInt32.le_trans hav hg), Schema.size, Schema.encode,
          if_pos hav] at hload
        obtain ⟨-, htail⟩ := load_eq_append (length_bytesOfU32 _) hload
        have hcheck : Serializer.checkIntegrity added s = s.consume 4 (s.integrityCounter + 1)
            [u32OfBytes (load s.mem s.memPtr 4) == s.integrityCounter] :=
          s.checkIntegrity_live (hv ▸ hav)
        have hrest := ih x old (s.consume 4 (s.integrityCounter + 1)
          [u32OfBytes (load s.mem s.memPtr 4) == s.integrityCounter]) hv htail
        simp only [codeAt, if_pos (UInt32.le_trans hav hh)]
        rw [Schema.addPreprocessed_checkIntegrity, hcheck]
        exact hrest
      · have hwriter : load s.mem s.memPtr ((rest.codeAt g).size v x)
            = (rest.codeAt g).encode v mem x s.integrityCounter := by
          simp only [codeAt] at hload
          split at hload
          · simpa only [Schema.size, Schema.encode, if_neg hav] using hload
          · exact hload
        have hrest := ih x old s hv hwriter
        have hcheck : Serializer.checkIntegrity added s = s :=
          s.checkIntegrity_not_live (hv ▸ hav)
        simp only [codeAt]
        split
        · rw [Schema.addPreprocessed_checkIntegrity, hcheck]
          exact hrest
        · exact hrest

end History

variable {α : Type} {g h v : UInt32}

/-- **Cross-generation round trip.**  Generation `g` writes a message at data version `v`, and
generation `h` reads the buffer back at the same `v`, which both know.  Every integrity comparison
of the reader holds, it ends where the writer ended, having counted as many bytes, and every field
is delivered. -/
theorem cross_generation_round_trip (H : History false α) (hg : v ≤ g) (hh : v ≤ h)
    (datum old : α) (w : FixedMemWriteSerializer) (r : FixedMemReadSerializer) (p capacity : ℕ)
    (hfit : (H.codeAt g).size v datum ≤ capacity)
    (hsep : ∀ str ∈ (H.codeAt g).copied v datum, Apart str.data str.length.toNat p capacity) :
    let written := writeMessage (H.codeAt g) v p datum w
    let decoded := readMessage (H.codeAt h) v p old { r with mem := written.2.mem }
    decoded.2.asserts = List.replicate ((H.codeAt g).checks v) true ∧
      decoded.2.memPtr = written.2.memPtr ∧
      decoded.2.bytesCount = written.2.bytesCount ∧
      H.Delivered g h v w.mem written.2.mem datum decoded.1 := by
  intro written decoded
  have hread := readMessage_writeMessage (History.sameWire_codeAt hg hh H) datum old w r hfit hsep
  refine ⟨hread.asserts, hread.memPtr, hread.bytesCount, ?_⟩
  exact History.delivered_of_load hg hh H w.mem datum old
    ((({ r with mem := written.2.mem } : FixedMemReadSerializer).setVersion v).resetBuffers p)
    rfl (load_writeMessage hfit hsep)

/-- A type with a nested record, a removed string and a checkpoint, from generation 2 to
generation 3, at data version 1. -/
theorem cross_generation_round_trip_sample :
    let inner := History.field 1 none (Pod.ofU32 5) (History.pod 4)
      (History.field 2 none ⟨0, 0⟩ History.stringHolder History.nil)
    let H := History.field 1 none (Pod.ofU32 5, ⟨0, 0⟩, ()) inner
      (History.checkpoint 1
        (History.field 0 (some ⟨3, by decide⟩) ⟨2, 40⟩ History.stringHolder History.nil))
    let datum := ((Pod.ofU32 9, ⟨1, 50⟩, ()), ⟨3, 60⟩, ())
    let w : FixedMemWriteSerializer := ⟨0, 0, 0, 0, fun a => UInt8.ofNat a⟩
    let r : FixedMemReadSerializer := ⟨0, 0, 0, 0, fun _ => 0, []⟩
    let written := writeMessage (H.codeAt 2) 1 100 datum w
    let decoded := readMessage (H.codeAt 3) 1 100 datum { r with mem := written.2.mem }
    decoded.2.asserts = List.replicate ((H.codeAt 2).checks 1) true ∧
      decoded.2.memPtr = written.2.memPtr ∧
      decoded.2.bytesCount = written.2.bytesCount ∧
      H.Delivered 2 3 1 w.mem written.2.mem datum decoded.1 :=
  cross_generation_round_trip _ (by decide) (by decide) _ _ _ _ 100 16 (by decide) (by decide)

end MinSeq
