import MinSeq.Serialization.Exchange
import Mathlib.Data.List.Perm.Basic

/-!
# When writing leaves the message alone

One `SERIALIZATION_ADD` expands into both serializers, and its `else` branch assigns the default to
the member.  For the reader that is what is wanted; the writer, too, overwrites every member that is
not on the wire at the version being served, so one object served at several versions is not served
from its original value.  A server with an old client and a new one sends the new client a default
where it has a value.

**The condition** is one on the object: it must hold the default already wherever a member is not on
the wire.  Then no order of the requests makes a difference, and if it does not, the very first
request that finds another value changes it.

* `Schema.AtDefaults` — every member that is not on the wire already holds its default.
* **`serveAll_readOnly_iff`** — serving one object at a list of versions leaves it alone and gives
  every receiver what a single write from the original would, in every order of the requests,
  exactly when it is at its defaults for each of the versions.
-/

namespace MinSeq

open Memory

/-- **The object is at its defaults** for data version `v`: every member that is not on the wire,
here or inside a record that is on the wire, holds the value the statement about it would assign. -/
def Schema.AtDefaults (v : UInt32) : {trivial : Bool} → {α : Type} → Schema trivial α → α → Prop
  | _, _, Schema.pod _, _ => True
  | _, _, Schema.stringHolder, _ => True
  | _, _, Schema.done, _ => True
  | _, _, Schema.field code type rest, datum =>
      (if code.live v then type.AtDefaults v datum.1 else code.unsent datum.1 = datum.1) ∧
      rest.AtDefaults v datum.2
  | _, _, Schema.checkIntegrity _ rest, datum => rest.AtDefaults v datum

/-- Settling changes nothing exactly on the objects that are at their defaults. -/
lemma Schema.settle_eq_self_iff {trivial : Bool} {α : Type} {v : UInt32} {B : Schema trivial α}
    (hB : B.NoRemove) (datum : α) : B.settle v datum = datum ↔ B.AtDefaults v datum := by
  induction B with
  | pod n => exact iff_of_true rfl True.intro
  | stringHolder => exact iff_of_true rfl True.intro
  | done => exact iff_of_true rfl True.intro
  | field code type rest iht ihr =>
      obtain ⟨hremove, htype, hrest⟩ := hB
      simp only [Schema.settle, Schema.AtDefaults, FieldCode.source_eq hremove]
      split
      · rw [Prod.ext_iff, iht htype, ihr hrest]
      · rw [Prod.ext_iff, ihr hrest]
  | checkIntegrity checkAdded rest ih => exact ih hB datum

/-! ## Serving one object several times -/

/-- **One write of the object**: the data version to serve, and the buffer to use. -/
structure Request where
  version : UInt32
  buffer : ℕ
  capacity : ℕ

variable {α : Type}

/-- The object after one write, and the bytes the write put into the buffer, as far as the pointer
moved. -/
def serve (B : Schema false α) (rq : Request) (datum : α) (w : FixedMemWriteSerializer) :
    α × List UInt8 :=
  let written := writeMessage B rq.version rq.buffer datum w
  (written.1, load written.2.mem rq.buffer (written.2.memPtr - rq.buffer))

/-- **Serve one object to a list of requests**, one write after the other, each from the object that
the one before has left. -/
def serveAll (B : Schema false α) : List Request → α → FixedMemWriteSerializer →
    List (α × List UInt8)
  | [], _, _ => []
  | rq :: rqs, datum, w =>
      let written := writeMessage B rq.version rq.buffer datum w
      serve B rq datum w :: serveAll B rqs written.1 written.2

/-- Every write leaves the object as it was, and its buffer holds what a single write of the
original object would have put there. -/
def ReadOnly (B : Schema false α) (rqs : List Request) (datum : α)
    (w : FixedMemWriteSerializer) : Prop :=
  serveAll B rqs datum w = rqs.map fun rq => (datum, (serve B rq datum w).2)

/-- **The buffer of every request** has room for the object and keeps clear of the strings that any
of the requests copies.  Two requests may use the same buffer. -/
def FreshBuffers (B : Schema false α) (rqs : List Request) (datum : α) : Prop :=
  ∀ rq ∈ rqs, B.size rq.version datum ≤ rq.capacity ∧
    ∀ rq' ∈ rqs, ∀ str ∈ B.copied rq'.version datum,
      Apart str.data str.length.toNat rq.buffer rq.capacity

variable {B : Schema false α} {datum : α} {rq : Request} {rqs : List Request}
  {w w₀ : FixedMemWriteSerializer}

/-- One write settles the object and puts its encoding into the buffer. -/
lemma serve_eq (hfit : B.size rq.version datum ≤ rq.capacity)
    (hsep : ∀ str ∈ B.copied rq.version datum,
      Apart str.data str.length.toNat rq.buffer rq.capacity) :
    serve B rq datum w
      = (B.settle rq.version datum, B.encode rq.version w.mem datum 0) := by
  rw [serve, writeMessage_memPtr hfit hsep, Nat.add_sub_cancel_left, load_writeMessage hfit hsep,
    writeMessage_eq hfit hsep]

/-- The strings of the object read alike in the two memories. -/
def SameStrings (B : Schema false α) (rqs : List Request) (datum : α) (mem mem' : Mem UInt8) :
    Prop :=
  ∀ rq ∈ rqs, ∀ str ∈ B.copied rq.version datum,
    load mem str.data str.length.toNat = load mem' str.data str.length.toNat

/-- From an object at its defaults every write starts from the original.  By induction on the
requests; the memory may change between them, but not where the strings are. -/
lemma serveAll_of_atDefaults (hB : B.NoRemove) (all : List Request)
    (hbuf : FreshBuffers B all datum) (hsub : ∀ rq ∈ rqs, rq ∈ all)
    (hmem : SameStrings B all datum w.mem w₀.mem)
    (hdef : ∀ rq ∈ rqs, B.AtDefaults rq.version datum) :
    serveAll B rqs datum w = rqs.map fun rq => (datum, (serve B rq datum w₀).2) := by
  induction rqs generalizing w with
  | nil => rfl
  | cons rq rqs ih =>
      have hrq := hsub rq List.mem_cons_self
      obtain ⟨hfit, hsep⟩ := hbuf rq hrq
      have hsettle : B.settle rq.version datum = datum :=
        (Schema.settle_eq_self_iff hB datum).mpr (hdef rq List.mem_cons_self)
      have hobject : (writeMessage B rq.version rq.buffer datum w).1 = datum := by
        rw [writeMessage_eq hfit (hsep rq hrq), hsettle]
      have hstrings : SameStrings B all datum
          (writeMessage B rq.version rq.buffer datum w).2.mem w₀.mem := by
        intro rq' hrq' str hs
        rw [← hmem rq' hrq' str hs, writeMessage_eq hfit (hsep rq hrq)]
        refine load_store_apart ((hsep rq' hrq' str hs).sub (Nat.le_refl _) ?_)
        rw [Schema.length_encode]
        exact Nat.add_le_add_left hfit _
      have hhead : serve B rq datum w = (datum, (serve B rq datum w₀).2) := by
        rw [serve_eq hfit (hsep rq hrq), serve_eq hfit (hsep rq hrq), hsettle,
          Schema.encode_congr B datum 0 (hmem rq hrq)]
      rw [serveAll, List.map_cons, hhead, hobject]
      exact congrArg _ (ih (fun rq' h => hsub rq' (List.mem_cons_of_mem _ h)) hstrings
        fun rq' h => hdef rq' (List.mem_cons_of_mem _ h))

/-- If no write changes the object, it was at its defaults for every version served. -/
lemma atDefaults_of_serveAll (hB : B.NoRemove) (all : List Request)
    (hbuf : FreshBuffers B all datum) (hsub : ∀ rq ∈ rqs, rq ∈ all)
    (h : ∀ out ∈ serveAll B rqs datum w, out.1 = datum) :
    ∀ rq ∈ rqs, B.AtDefaults rq.version datum := by
  induction rqs generalizing w with
  | nil => simp
  | cons rq rqs ih =>
      have hrq := hsub rq List.mem_cons_self
      obtain ⟨hfit, hsep⟩ := hbuf rq hrq
      have hobject : (writeMessage B rq.version rq.buffer datum w).1 = datum :=
        h _ List.mem_cons_self
      have hwrite := writeMessage_eq (w := w) hfit (hsep rq hrq)
      have hsettle : B.settle rq.version datum = datum :=
        (congrArg Prod.fst hwrite).symm.trans hobject
      intro rq' hrq'
      rcases List.mem_cons.mp hrq' with rfl | hrq'
      · exact (Schema.settle_eq_self_iff hB datum).mp hsettle
      · refine ih (w := (writeMessage B rq.version rq.buffer datum w).2)
          (fun rq' h => hsub rq' (List.mem_cons_of_mem _ h)) (fun out hout => ?_) rq' hrq'
        refine h out (List.mem_cons_of_mem _ ?_)
        rwa [hobject]

/-- **Writing is read-only, in every order of the requests, exactly when the object is at its
defaults for every version served.** -/
theorem serveAll_readOnly_iff (hB : B.NoRemove) (datum : α) (rqs : List Request)
    (w : FixedMemWriteSerializer) (hbuf : FreshBuffers B rqs datum) :
    (∀ rqs', rqs'.Perm rqs → ReadOnly B rqs' datum w) ↔
      ∀ rq ∈ rqs, B.AtDefaults rq.version datum := by
  constructor
  · intro h
    refine atDefaults_of_serveAll (w := w) hB rqs hbuf (fun _ hrq => hrq) fun out hout => ?_
    rw [h rqs (List.Perm.refl rqs), List.mem_map] at hout
    obtain ⟨rq, -, rfl⟩ := hout
    rfl
  · intro h rqs' hperm
    exact serveAll_of_atDefaults hB rqs hbuf (fun rq hrq => hperm.mem_iff.mp hrq)
      (fun _ _ _ _ => rfl) fun rq hrq => h rq (hperm.mem_iff.mp hrq)

/-- A word and a string added at version 1, the string at its default, served at versions 1 and
0. -/
theorem serveAll_readOnly_iff_sample :
    let B := Schema.field (FieldCode.add 0 (Pod.ofU32 0)) (Schema.pod 4)
      (Schema.field (FieldCode.add 1 ⟨2, 40⟩) Schema.stringHolder Schema.done)
    let datum := (Pod.ofU32 7, (⟨2, 40⟩ : StringHolder), ())
    let rqs : List Request := [⟨1, 100, 16⟩, ⟨0, 200, 16⟩]
    let w : FixedMemWriteSerializer := ⟨0, 0, 0, 0, fun a => UInt8.ofNat a⟩
    (∀ rqs', rqs'.Perm rqs → ReadOnly B rqs' datum w) ↔
      ∀ rq ∈ rqs, B.AtDefaults rq.version datum := by
  intro B datum rqs w
  have hB : B.NoRemove := ⟨rfl, trivial, rfl, trivial, trivial⟩
  exact serveAll_readOnly_iff hB datum rqs w (by unfold FreshBuffers; decide)

/-- A word added at version 2, served at version 1 and then at version 2: the first write sets it to
its default, and the second sends 0 where 7 was stored. -/
theorem serveAll_not_readOnly :
    let B := Schema.field (FieldCode.add 2 (Pod.ofU32 0)) (Schema.pod 4) Schema.done
    let rqs : List Request := [⟨1, 100, 4⟩, ⟨2, 200, 4⟩]
    let w : FixedMemWriteSerializer := ⟨0, 0, 0, 0, fun _ => 0⟩
    FreshBuffers B rqs (Pod.ofU32 7, ()) ∧
      serveAll B rqs (Pod.ofU32 7, ()) w
        = [((Pod.ofU32 0, ()), []), ((Pod.ofU32 0, ()), [0, 0, 0, 0])] ∧
      (serve B ⟨2, 200, 4⟩ (Pod.ofU32 7, ()) w).2 = [7, 0, 0, 0] ∧
      ¬ ReadOnly B rqs (Pod.ofU32 7, ()) w := by
  unfold FreshBuffers ReadOnly
  decide

end MinSeq
