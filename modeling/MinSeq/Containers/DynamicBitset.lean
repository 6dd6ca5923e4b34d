import Mathlib.Tactic.Ring
import MinSeq.Core.ByteBits
import MinSeq.Core.Runs

/-!
# The dynamic bitset

`dynamic_bitset` of `utils/dynamic_bitset.h`: a number of bits, kept in a vector of bytes.
`operator[]` of the vector checks nothing, so an access past the storage is a fault, and `none`
here.  A number of bits or bytes is a `size_t` in the source and a natural number here; a vector has
fewer bytes than a `size_t` has values.

**Two specifications.**  The class keeps bits that it does not count: those behind the last one that
share its byte.  Some members change them and `resize` may show them, so what the class does cannot
be said of the counted bits alone.

`Bits` says it without bytes, for every use: the number of bits, the size of the storage, and a bit
for every position of the storage.  A vector of bits says what the class is for, and for which uses
it is that.  The two are connected by a second simulation, which knows nothing of bytes either.

* **`answers_of_new`** — over every run the class answers as `Bits` does, and faults exactly where a
  position is outside the storage.  The constructor compares a number of bits with the number of
  bytes of a `uint64_t`, and writes past its storage for 8 to 56 bits.
* **`answers_eq_boolVector`** — a caller that stays below the last bit and cuts only where nothing
  is set behind the cut sees a plain vector of bits, if it asked the constructor for fewer than 8
  bits or more than 56, and for a value that fits into them.
* **`resize_fills_iff`** — what a cut elsewhere does.
* **`new_of_toUllong`**, **`toString_numeral`** — out to a number or a text, and back.

**How the proofs go.**  Two functions touch a byte, `get` and `set`, and one lemma for each says
which bit they look at or change.  Every other member is a loop over the counted bits; the loops are
of three shapes, and each shape has a lemma.  From there on nothing but bits and positions occurs.
`Covered` is the invariant that keeps the loops inside the storage.
-/

namespace MinSeq

open ByteBits Runs

/-- **The bitset**: the two members of the class. -/
structure DynamicBitset where
  numBits : ℕ
  data : List UInt8
deriving DecidableEq, Repr

namespace DynamicBitset

/-- **`_data[i] = v`** in the constructor's loops.  The vector does not check the index, so a write
past its end is not one that the model can do. -/
def assign (data : List UInt8) (i : ℕ) (v : UInt8) : Option (List UInt8) :=
  if i < data.length then some (data.set i v) else none

/-- `num_bytes`, computed alike by the constructor and by `resize`: one byte at least, also for no
bit at all. -/
def numBytes (nbits : ℕ) : ℕ := if nbits < 8 then 1 else 1 + (nbits - 1) / 8

/-- **The constructor**; `sizeof(uint64_t)` is 8.  The test below it is one of bits against bytes:
with fewer than 8 bits the value is masked, and to one bit too many, and with 8 or more all eight
bytes of the value are written, whether the storage has as many or not. -/
def new (nbits : ℕ) (value : UInt64) : Option DynamicBitset := do
  let data := List.replicate (numBytes nbits) (0 : UInt8)
  let data ←
    if nbits < 8 then
      let maskedValue := value.toNat &&& (1 <<< (nbits + 1) - 1)
      (List.range data.length).foldlM
        (fun data i => assign data i (UInt8.ofNat ((maskedValue >>> (i * 8)) &&& 0xff))) data
    else
      (List.range 8).foldlM
        (fun data i => assign data i (UInt8.ofNat ((value.toNat >>> (i * 8)) &&& 0xff))) data
  return ⟨nbits, data⟩

/-- **`operator[]`**: the byte, shifted down by the offset in it.  A position past the last bit is
answered as long as there is a byte for it. -/
def get (b : DynamicBitset) (pos : ℕ) : Option Bool :=
  b.data[pos / 8]?.map fun byte => (byte.toNat >>> (pos % 8)) &&& 1 != 0

/-- **`set`**, which reads the byte, turns one bit on or off, and writes it back. -/
def set (b : DynamicBitset) (pos : ℕ) (value : Bool) : Option DynamicBitset := do
  let byteLoc := pos / 8
  let bitfield := UInt8.ofNat (1 <<< (pos % 8))
  let byte ← b.data[byteLoc]?
  if value then return { b with data := b.data.set byteLoc (byte ||| bitfield) }
  else return { b with data := b.data.set byteLoc (byte &&& ~~~bitfield) }

/-- The three tests return early, so a later access that would fault may not happen; `anyM` and
`allM` do the same. -/
def any (b : DynamicBitset) : Option Bool := (List.range b.numBits).anyM b.get

def all (b : DynamicBitset) : Option Bool := (List.range b.numBits).allM b.get

def none (b : DynamicBitset) : Option Bool :=
  (List.range b.numBits).allM fun i => do return !(← b.get i)

/-- **`flip()`**, one bit after the other, so that each test sees the flips before it. -/
def flip (b : DynamicBitset) : Option DynamicBitset :=
  (List.range b.numBits).foldlM (fun b i => do b.set i (if ← b.get i then false else true)) b

/-- `flip(size_t pos)`. -/
def flipAt (b : DynamicBitset) (pos : ℕ) : Option DynamicBitset := do
  b.set pos (if ← b.get pos then false else true)

def setall (b : DynamicBitset) (value : Bool) : Option DynamicBitset :=
  (List.range b.numBits).foldlM (fun b i => b.set i value) b

/-- `reset` clears the storage, and with it the bits behind the last one. -/
def reset (b : DynamicBitset) : DynamicBitset :=
  { b with data := List.replicate b.data.length 0 }

/-- **`resize`**; the vector fills up with zeros, and drops bytes from its end.  What is left of the
last byte is not touched. -/
def resize (b : DynamicBitset) (nbits : ℕ) : DynamicBitset :=
  ⟨nbits, b.data.take (numBytes nbits)
    ++ List.replicate (numBytes nbits - b.data.length) 0⟩

/-- `count`, in a `uint32_t`, which wraps. -/
def count (b : DynamicBitset) : Option UInt32 :=
  (List.range b.numBits).foldlM (fun c i => do return c + if ← b.get i then 1 else 0) 0

def test (b : DynamicBitset) (pos : ℕ) : Option Bool := b.get pos

/-- **`to_string`**, from the highest bit down. -/
def toString (b : DynamicBitset) : Option String :=
  (List.range b.numBits).foldlM
    (fun ss i => do return ss ++ if ← b.get (b.numBits - i - 1) then "1" else "0") ""

/-- **`to_ulong`**: the first 32 bits, or as many as there are. -/
def toUlong (b : DynamicBitset) : Option UInt32 :=
  (List.range (min b.numBits 32)).foldlM
    (fun value i => do return value ||| ((← b.get i).toUInt32 <<< UInt32.ofNat i)) 0

/-- **`to_ullong`**: the first 64 bits. -/
def toUllong (b : DynamicBitset) : Option UInt64 :=
  (List.range (min b.numBits 64)).foldlM
    (fun value i => do return value ||| ((← b.get i).toUInt64 <<< UInt64.ofNat i)) 0

def size (b : DynamicBitset) : ℕ := b.numBits

def storageSize (b : DynamicBitset) : ℕ := b.data.length

end DynamicBitset

/-! ## What it stores

The bytes are left behind here: from now on a bitset is known by its bits.
-/

/-- **What the class stores**: the number of bits, the size of the storage in bytes, and every
stored bit, counted or not.  Two bitsets with the same bits cannot be told apart by any sequence of
calls. -/
@[ext] structure Bits where
  numBits : ℕ
  bytes : ℕ
  bit : ℕ → Bool

namespace DynamicBitset

variable {b : DynamicBitset} {pos n : ℕ} {value : Bool}

/-- The bits of a bitset; past the storage they are off. -/
def bits (b : DynamicBitset) : Bits := ⟨b.numBits, b.data.length, bit b.data⟩

/-- **The storage covers the bits.**  This is the invariant of the class: the constructor and
`resize` compute the size of the storage from the number of bits, and nothing else changes either of
them.  It is all that the loops need, and it says nothing about the bits behind the last one. -/
def Covered (b : DynamicBitset) : Prop := b.numBits ≤ 8 * b.data.length

instance : Decidable b.Covered := inferInstanceAs (Decidable (_ ≤ _))

/-! ## One access

The two functions that touch a byte.  Whether they fault depends on the storage, and not on the
number of bits.
-/

lemma get_of_lt (h : pos / 8 < b.data.length) : b.get pos = some (bit b.data pos) := by
  rw [get, List.getElem?_eq_getElem h, Option.map_some, bit, List.getD_eq_getElem?_getD,
    List.getElem?_eq_getElem h, Option.getD_some, Nat.testBit, Nat.and_comm]

lemma get_of_le (h : b.data.length ≤ pos / 8) : b.get pos = Option.none := by
  rw [get, List.getElem?_eq_none h, Option.map_none]

lemma set_of_lt (h : pos / 8 < b.data.length) (value : Bool) :
    ∃ b', b.set pos value = some b'
      ∧ b'.bits = { b.bits with bit := Function.update b.bits.bit pos value } := by
  have hbyte : b.data[pos / 8]? = some (b.data.getD (pos / 8) 0) := by
    rw [List.getD_eq_getElem?_getD, List.getElem?_eq_getElem h, Option.getD_some]
  cases value with
  | true =>
      refine ⟨{ b with data := b.data.set (pos / 8) (b.data.getD (pos / 8) 0 ||| mask (pos % 8)) },
        by rw [set, hbyte]; rfl, ?_⟩
      refine Bits.ext rfl (by simp [bits]) (funext fun j => ?_)
      exact (bit_turnOn h).trans (Function.update_apply _ _ _ _).symm
  | false =>
      refine ⟨{ b with
          data := b.data.set (pos / 8) (b.data.getD (pos / 8) 0 &&& ~~~mask (pos % 8)) },
        by rw [set, hbyte]; rfl, ?_⟩
      refine Bits.ext rfl (by simp [bits]) (funext fun j => ?_)
      exact (bit_turnOff h).trans (Function.update_apply _ _ _ _).symm

lemma set_of_le (h : b.data.length ≤ pos / 8) (value : Bool) : b.set pos value = Option.none := by
  rw [set, List.getElem?_eq_none h]
  rfl

/-! ## Loops

Every other member is a loop over the counted bits, and while the storage covers these, no access in
it faults.  So a loop over accesses that may fault is a loop over bits.
-/

/-- **A loop that looks at the bits** sees what is stored, as no access in it faults.  The positions
need not be in order, since the loop of `to_string` goes downwards. -/
lemma foldlM_get {α : Type} (f : α → ℕ → Bool → α) (at_ : ℕ → ℕ) (init : α)
    (h : ∀ i < n, at_ i / 8 < b.data.length) :
    (List.range n).foldlM (fun acc i => do return f acc i (← b.get (at_ i))) init
      = some ((List.range n).foldl (fun acc i => f acc i (bit b.data (at_ i))) init) := by
  induction n with
  | zero => rfl
  | succ n ih =>
      rw [List.range_succ, List.foldlM_append, List.foldl_append, ih fun i hi => h i (by omega)]
      simp [get_of_lt (h n (by omega))]

/-- **A loop that sets the bits** one after another, each from what was there.  No step undoes or
repeats the work of another, since each touches a position of its own. -/
lemma foldlM_set (f : Bool → Bool) {body : DynamicBitset → ℕ → Option DynamicBitset}
    (hbody : ∀ b i, i / 8 < b.data.length → body b i = b.set i (f (bit b.data i)))
    (h : n ≤ 8 * b.data.length) :
    ∃ b', (List.range n).foldlM body b = some b'
      ∧ b'.bits = { b.bits with
          bit := fun i => if i < n then f (b.bits.bit i) else b.bits.bit i } := by
  induction n with
  | zero => exact ⟨b, rfl, by simp⟩
  | succ n ih =>
      rcases ih (by omega) with ⟨b₁, hloop, hbits⟩
      have hlength : b₁.data.length = b.data.length := congrArg Bits.bytes hbits
      have hbit : bit b₁.data n = bit b.data n := by
        have hn := congrFun (congrArg Bits.bit hbits) n
        simpa [bits] using hn
      have hn : n / 8 < b₁.data.length := by omega
      rcases set_of_lt hn (f (bit b.data n)) with ⟨b₂, hset, hbits₂⟩
      refine ⟨b₂, ?_, ?_⟩
      · rw [List.range_succ, List.foldlM_append, hloop]
        simp [hbody b₁ n (by omega), hbit, hset]
      · rw [hbits₂, hbits]
        refine Bits.ext rfl rfl (funext fun j => ?_)
        show Function.update (fun i => if i < n then f (b.bits.bit i) else b.bits.bit i) n
          (f (bit b.data n)) j = if j < n + 1 then f (b.bits.bit j) else b.bits.bit j
        rw [Function.update_apply]
        rcases Nat.lt_trichotomy j n with hj | rfl | hj
        · rw [if_neg hj.ne, if_pos hj, if_pos (Nat.lt_succ_of_lt hj)]
        · rw [if_pos rfl, if_pos (Nat.lt_succ_self j)]
          rfl
        · rw [if_neg hj.ne', if_neg (by omega), if_neg (by omega)]

/-- Loops with an early return, where no access faults: it does not matter how far they get, and the
answer is that of the loop that goes to the end. -/
lemma anyM_eq {p : ℕ → Option Bool} {q : ℕ → Bool} {is : List ℕ} (h : ∀ i ∈ is, p i = some (q i)) :
    is.anyM p = some (is.any q) := by
  induction is with
  | nil => rfl
  | cons i is ih =>
      have htail := ih fun j hj => h j (List.mem_cons_of_mem i hj)
      rw [List.anyM, h i List.mem_cons_self, List.any_cons]
      cases hq : q i <;> simp [htail]

lemma allM_eq {p : ℕ → Option Bool} {q : ℕ → Bool} {is : List ℕ} (h : ∀ i ∈ is, p i = some (q i)) :
    is.allM p = some (is.all q) := by
  induction is with
  | nil => rfl
  | cons i is ih =>
      have htail := ih fun j hj => h j (List.mem_cons_of_mem i hj)
      rw [List.allM, h i List.mem_cons_self, List.all_cons]
      cases hq : q i <;> simp [htail]

/-! ## What the loops compute

The results as numbers and texts, without the loop.
-/

/-- The counter is a `uint32_t` and wraps at 2³², which takes half a gigabyte of bits. -/
lemma foldl_count (f : ℕ → Bool) (n : ℕ) :
    ((List.range n).foldl (fun (c : UInt32) i => c + if f i then 1 else 0) 0).toNat
      = (List.range n).countP f % 2 ^ 32 := by
  induction n with
  | zero => rfl
  | succ n ih =>
      rw [List.range_succ, List.foldl_append, List.countP_append, List.foldl_cons, List.foldl_nil,
        UInt32.toNat_add, ih]
      cases hf : f n <;> simp [hf]

/-- The text has one character for each turn of the loop, in the order of the turns. -/
lemma foldl_text (f : ℕ → Bool) (n : ℕ) :
    (List.range n).foldl (fun ss i => ss ++ if f i then "1" else "0") ""
      = String.ofList ((List.range n).map fun i => if f i then '1' else '0') := by
  induction n with
  | zero => rfl
  | succ n ih =>
      rw [List.range_succ, List.foldl_append, List.map_append, String.ofList_append, ih]
      cases hf : f n <;> simp [hf]

/-- A machine word in which each step sets one more bit.  The steps never touch the same bit, so
that `|=` puts them side by side. -/
lemma foldl_word {V : Type} (toNat : V → ℕ) (f : ℕ → Bool) (g : V → ℕ → V) {v : V}
    (hv : toNat v = 0)
    (hg : ∀ v, ∀ i < n, toNat (g v i) = toNat v ||| (f i).toNat <<< i) :
    toNat ((List.range n).foldl g v) = word f n := by
  induction n with
  | zero => exact hv
  | succ n ih =>
      rw [List.range_succ, List.foldl_append, List.foldl_cons, List.foldl_nil,
        hg _ n (Nat.lt_succ_self n), ih fun v i hi => hg v i (Nat.lt_succ_of_lt hi), word]

/-- A single bit, shifted inside a word, does not leave it. -/
lemma shiftLeft_lt {w i : ℕ} (x : Bool) (hi : i < w) : x.toNat <<< i < 2 ^ w := by
  rw [Nat.shiftLeft_eq]
  calc x.toNat * 2 ^ i ≤ 1 * 2 ^ i := Nat.mul_le_mul_right _ x.toNat_le
    _ < 2 ^ w := by
        rw [Nat.one_mul]
        exact Nat.pow_lt_pow_right (by decide) hi

/-- The loop of `to_ulong` puts the bits together. -/
lemma foldl_word32 (f : ℕ → Bool) (hn : n ≤ 32) :
    ((List.range n).foldl (fun v i => v ||| ((f i).toUInt32 <<< UInt32.ofNat i)) 0).toNat
      = word f n := by
  refine foldl_word UInt32.toNat f _ rfl fun v i hi => ?_
  have hbit : (f i).toUInt32.toNat = (f i).toNat := by cases f i <;> rfl
  have hi32 : i % 2 ^ 32 % 32 = i := by omega
  rw [UInt32.toNat_or, UInt32.toNat_shiftLeft, UInt32.toNat_ofNat', hi32, hbit,
    Nat.mod_eq_of_lt (shiftLeft_lt (f i) (hi.trans_le hn))]

lemma foldl_word64 (f : ℕ → Bool) (hn : n ≤ 64) :
    ((List.range n).foldl (fun v i => v ||| ((f i).toUInt64 <<< UInt64.ofNat i)) 0).toNat
      = word f n := by
  refine foldl_word UInt64.toNat f _ rfl fun v i hi => ?_
  have hbit : (f i).toUInt64.toNat = (f i).toNat := by cases f i <;> rfl
  have hi64 : i % 2 ^ 64 % 64 = i := by omega
  rw [UInt64.toNat_or, UInt64.toNat_shiftLeft, UInt64.toNat_ofNat', hi64, hbit,
    Nat.mod_eq_of_lt (shiftLeft_lt (f i) (hi.trans_le hn))]

/-! ## One member after another

What each member does to the bits, for a bitset whose storage covers them.
-/

section Members

lemma flipAt_eq (pos : ℕ) : b.flipAt pos = (b.get pos).bind fun x => b.set pos !x := by
  rw [flipAt]
  cases b.get pos with
  | none => rfl
  | some x => cases x <;> rfl

/-- **`reset` turns every stored bit off**, also those behind the last one that `setall(false)`
would leave. -/
lemma bits_reset : b.reset.bits = { b.bits with bit := fun _ => false } :=
  Bits.ext rfl (by simp [bits, reset]) (funext fun _ => bit_replicate_zero)

/-- **`resize` keeps every stored bit** that the new storage has a byte for, and turns the others
off.  Where it keeps a part of a byte's bits, it keeps the byte. -/
lemma bits_resize (nbits : ℕ) :
    (b.resize nbits).bits
      = ⟨nbits, numBytes nbits, fun i => decide (i < 8 * numBytes nbits) && b.bits.bit i⟩ := by
  refine Bits.ext rfl ?_ (funext fun _ => bit_resize)
  simp [bits, resize]
  omega

lemma Covered.lt (hcovered : b.Covered) {i : ℕ} (hi : i < b.numBits) : i / 8 < b.data.length := by
  unfold Covered at hcovered
  omega

variable (hcovered : b.Covered)
include hcovered

lemma get_eq {i : ℕ} (hi : i ∈ List.range b.numBits) : b.get i = some (bit b.data i) :=
  get_of_lt (hcovered.lt (List.mem_range.1 hi))

/-- Every counted bit changes, and no other. -/
lemma flip_eq :
    ∃ b', b.flip = some b'
      ∧ b'.bits = { b.bits with
          bit := fun i => if i < b.numBits then !b.bits.bit i else b.bits.bit i } := by
  refine foldlM_set (fun x => !x) (fun b i hi => ?_) hcovered
  rw [get_of_lt hi]
  cases bit b.data i <;> rfl

/-- Every counted bit becomes the value, and no other changes.  So growing after `setall(true)` may
show bits that it did not set. -/
lemma setall_eq (value : Bool) :
    ∃ b', b.setall value = some b'
      ∧ b'.bits = { b.bits with bit := fun i => if i < b.numBits then value else b.bits.bit i } :=
  foldlM_set (fun _ => value) (fun _ _ _ => rfl) hcovered

lemma any_eq : b.any = some (decide (∃ i < b.numBits, bit b.data i = true)) := by
  rw [any, anyM_eq fun i hi => get_eq hcovered hi, Option.some_inj, Bool.eq_iff_iff]
  simp

lemma all_eq : b.all = some (decide (∀ i < b.numBits, bit b.data i = true)) := by
  rw [all, allM_eq fun i hi => get_eq hcovered hi, Option.some_inj, Bool.eq_iff_iff]
  simp

lemma none_eq : b.none = some (decide (∀ i < b.numBits, bit b.data i = false)) := by
  have hnot : ∀ i ∈ List.range b.numBits, (do return !(← b.get i)) = some (!bit b.data i) := by
    intro i hi
    rw [get_eq hcovered hi]
    rfl
  rw [none, allM_eq hnot, Option.some_inj, Bool.eq_iff_iff]
  simp

lemma count_eq :
    ∃ c, b.count = some c ∧ c.toNat = (List.range b.numBits).countP (bit b.data) % 2 ^ 32 :=
  ⟨_, foldlM_get (fun c _ x => c + if x then 1 else 0) id 0 fun _ hi => hcovered.lt hi,
    foldl_count (bit b.data) b.numBits⟩

/-- The digits of the text, the highest bit first. -/
lemma toString_eq :
    b.toString = some (String.ofList ((List.range b.numBits).map fun i =>
      if bit b.data (b.numBits - i - 1) then '1' else '0')) := by
  have hin : ∀ i < b.numBits, (b.numBits - i - 1) / 8 < b.data.length := by
    intro i hi
    exact hcovered.lt (by omega)
  have hloop := foldlM_get (fun ss _ x => ss ++ if x then "1" else "0") (fun i => b.numBits - i - 1)
    "" hin
  rwa [foldl_text fun i => bit b.data (b.numBits - i - 1)] at hloop

lemma toUlong_eq :
    ∃ v, b.toUlong = some v ∧ v.toNat = word (bit b.data) (min b.numBits 32) :=
  ⟨_, foldlM_get (fun v i x => v ||| (x.toUInt32 <<< UInt32.ofNat i)) id 0
      fun _ hi => hcovered.lt (hi.trans_le (min_le_left _ _)),
    foldl_word32 (bit b.data) (min_le_right _ _)⟩

lemma toUllong_eq :
    ∃ v, b.toUllong = some v ∧ v.toNat = word (bit b.data) (min b.numBits 64) :=
  ⟨_, foldlM_get (fun v i x => v ||| (x.toUInt64 <<< UInt64.ofNat i)) id 0
      fun _ hi => hcovered.lt (hi.trans_le (min_le_left _ _)),
    foldl_word64 (bit b.data) (min_le_right _ _)⟩

end Members

end DynamicBitset

/-! ## Runs

The members as one step function, so that a sequence of calls is a run.  Two machines are put side
by side here, the class and its specification `Bits`, and one lemma shows that they answer alike and
fault alike.
-/

/-- **A call of a member**, with its arguments. -/
inductive BitsetCall where
  | set (pos : ℕ) (value : Bool)
  | flip
  | flipAt (pos : ℕ)
  | setall (value : Bool)
  | reset
  | resize (nbits : ℕ)
  | any
  | all
  | none
  | count
  | test (pos : ℕ)
  | toString
  | toUlong
  | toUllong
  | size
  | storageSize

/-- **What a call returns**; the setters return nothing that a caller could not have known. -/
inductive BitsetAnswer where
  | nothing
  | truth (b : Bool)
  | number (n : ℕ)
  | text (s : String)
deriving DecidableEq

namespace DynamicBitset

/-- **The class as a machine**: one call, with what it returns, or a fault. -/
def step (b : DynamicBitset) : BitsetCall → Option (BitsetAnswer × DynamicBitset)
  | .set pos value => do return (.nothing, ← b.set pos value)
  | .flip => do return (.nothing, ← b.flip)
  | .flipAt pos => do return (.nothing, ← b.flipAt pos)
  | .setall value => do return (.nothing, ← b.setall value)
  | .reset => some (.nothing, b.reset)
  | .resize nbits => some (.nothing, b.resize nbits)
  | .any => do return (.truth (← b.any), b)
  | .all => do return (.truth (← b.all), b)
  | .none => do return (.truth (← b.none), b)
  | .count => do return (.number (← b.count).toNat, b)
  | .test pos => do return (.truth (← b.test pos), b)
  | .toString => do return (.text (← b.toString), b)
  | .toUlong => do return (.number (← b.toUlong).toNat, b)
  | .toUllong => do return (.number (← b.toUllong).toNat, b)
  | .size => some (.number b.size, b)
  | .storageSize => some (.number b.storageSize, b)

end DynamicBitset

namespace Bits

/-- **What each member is for**, said of the bits.  A position faults when it lies outside the
storage; nothing else does. -/
def step (s : Bits) : BitsetCall → Option (BitsetAnswer × Bits)
  | .set pos value =>
      if pos / 8 < s.bytes then some (.nothing, { s with bit := Function.update s.bit pos value })
      else Option.none
  | .flip => some (.nothing, { s with bit := fun i => if i < s.numBits then !s.bit i else s.bit i })
  | .flipAt pos =>
      if pos / 8 < s.bytes then
        some (.nothing, { s with bit := Function.update s.bit pos !s.bit pos })
      else Option.none
  | .setall value =>
      some (.nothing, { s with bit := fun i => if i < s.numBits then value else s.bit i })
  | .reset => some (.nothing, { s with bit := fun _ => false })
  | .resize nbits =>
      some (.nothing, ⟨nbits, DynamicBitset.numBytes nbits,
        fun i => decide (i < 8 * DynamicBitset.numBytes nbits) && s.bit i⟩)
  | .any => some (.truth (decide (∃ i < s.numBits, s.bit i = true)), s)
  | .all => some (.truth (decide (∀ i < s.numBits, s.bit i = true)), s)
  | .none => some (.truth (decide (∀ i < s.numBits, s.bit i = false)), s)
  | .count => some (.number ((List.range s.numBits).countP s.bit % 2 ^ 32), s)
  | .test pos => if pos / 8 < s.bytes then some (.truth (s.bit pos), s) else Option.none
  | .toString =>
      some (.text (String.ofList ((List.range s.numBits).map fun i =>
        if s.bit (s.numBits - i - 1) then '1' else '0')), s)
  | .toUlong => some (.number (word s.bit (min s.numBits 32)), s)
  | .toUllong => some (.number (word s.bit (min s.numBits 64)), s)
  | .size => some (.number s.numBits, s)
  | .storageSize => some (.number s.bytes, s)

end Bits

namespace DynamicBitset

variable {b : DynamicBitset}

/-- **The bitset stores the bits**, and has storage for them: the relation that every call keeps. -/
structure Stores (b : DynamicBitset) (s : Bits) : Prop where
  bits_eq : b.bits = s
  covered : b.Covered

/-- As many bytes as `num_bytes` says cover the bits. -/
lemma le_numBytes (nbits : ℕ) : nbits ≤ 8 * numBytes nbits := by
  unfold numBytes
  split_ifs <;> omega

/-- A call that leaves the sizes alone keeps the storage covering the bits; only `resize` does not,
and it covers them anew. -/
lemma Covered.keep {s' : Bits} {b' : DynamicBitset} (hcovered : b.Covered) (hbits : b'.bits = s')
    (hnumBits : s'.numBits = b.numBits) (hbytes : s'.bytes = b.data.length) : b'.Stores s' := by
  subst hbits
  refine ⟨rfl, ?_⟩
  show b'.bits.numBits ≤ 8 * b'.bits.bytes
  rw [hnumBits, hbytes]
  exact hcovered

/-- **One call** in step with the bits, one case for each member.  A fault comes out of both
machines or of neither. -/
lemma Stores.step {s : Bits} (h : b.Stores s) (call : BitsetCall) :
    Option.Rel (fun x y => x.1 = y.1 ∧ Stores x.2 y.2) (b.step call) (s.step call) := by
  obtain ⟨rfl, hcovered⟩ := h
  have hsame : b.Stores b.bits := ⟨rfl, hcovered⟩
  cases call with
  | set pos value =>
      by_cases hpos : pos / 8 < b.data.length
      · obtain ⟨b', hset, hbits⟩ := set_of_lt hpos value
        rw [DynamicBitset.step, hset, show b.bits.step (.set pos value) = _ from if_pos hpos]
        exact .some ⟨rfl, hcovered.keep hbits rfl rfl⟩
      · rw [DynamicBitset.step, set_of_le (Nat.not_lt.1 hpos),
          show b.bits.step (.set pos value) = _ from if_neg hpos]
        exact .none
  | flip =>
      obtain ⟨b', hflip, hbits⟩ := flip_eq hcovered
      rw [DynamicBitset.step, hflip]
      exact .some ⟨rfl, hcovered.keep hbits rfl rfl⟩
  | flipAt pos =>
      by_cases hpos : pos / 8 < b.data.length
      · obtain ⟨b', hset, hbits⟩ := set_of_lt hpos (!bit b.data pos)
        rw [DynamicBitset.step, flipAt_eq, get_of_lt hpos, Option.bind_some, hset,
          show b.bits.step (.flipAt pos) = _ from if_pos hpos]
        exact .some ⟨rfl, hcovered.keep hbits rfl rfl⟩
      · rw [DynamicBitset.step, flipAt_eq, get_of_le (Nat.not_lt.1 hpos),
          show b.bits.step (.flipAt pos) = _ from if_neg hpos]
        exact .none
  | setall value =>
      obtain ⟨b', hsetall, hbits⟩ := setall_eq hcovered value
      rw [DynamicBitset.step, hsetall]
      exact .some ⟨rfl, hcovered.keep hbits rfl rfl⟩
  | reset => exact .some ⟨rfl, hcovered.keep bits_reset rfl rfl⟩
  | resize nbits =>
      refine .some ⟨rfl, bits_resize nbits, ?_⟩
      show (b.resize nbits).bits.numBits ≤ 8 * (b.resize nbits).bits.bytes
      rw [bits_resize]
      exact le_numBytes nbits
  | any =>
      rw [DynamicBitset.step, any_eq hcovered]
      exact .some ⟨rfl, hsame⟩
  | all =>
      rw [DynamicBitset.step, all_eq hcovered]
      exact .some ⟨rfl, hsame⟩
  | none =>
      rw [DynamicBitset.step, none_eq hcovered]
      exact .some ⟨rfl, hsame⟩
  | count =>
      obtain ⟨c, hcount, hnumber⟩ := count_eq hcovered
      rw [DynamicBitset.step, hcount]
      exact .some ⟨congrArg BitsetAnswer.number hnumber, hsame⟩
  | test pos =>
      by_cases hpos : pos / 8 < b.data.length
      · rw [DynamicBitset.step, DynamicBitset.test, get_of_lt hpos,
          show b.bits.step (.test pos) = _ from if_pos hpos]
        exact .some ⟨rfl, hsame⟩
      · rw [DynamicBitset.step, DynamicBitset.test, get_of_le (Nat.not_lt.1 hpos),
          show b.bits.step (.test pos) = _ from if_neg hpos]
        exact .none
  | toString =>
      rw [DynamicBitset.step, toString_eq hcovered]
      exact .some ⟨rfl, hsame⟩
  | toUlong =>
      obtain ⟨v, hvalue, hnumber⟩ := toUlong_eq hcovered
      rw [DynamicBitset.step, hvalue]
      exact .some ⟨congrArg BitsetAnswer.number hnumber, hsame⟩
  | toUllong =>
      obtain ⟨v, hvalue, hnumber⟩ := toUllong_eq hcovered
      rw [DynamicBitset.step, hvalue]
      exact .some ⟨congrArg BitsetAnswer.number hnumber, hsame⟩
  | size => exact .some ⟨rfl, hsame⟩
  | storageSize => exact .some ⟨rfl, hsame⟩

/-! ## The constructor

Where the storage is large enough for what the constructor writes, and what it stores there.  The
documentation promises the given number of bits, initialised with the value.  What it does is to
mask a small value one bit too wide, and to write all eight bytes of it whenever there are 8 bits or
more.
-/

/-- **What the constructor stores**: the whole value where it writes eight bytes, and with fewer
than 8 bits, one bit of `value` more than was asked for. -/
def initial (nbits : ℕ) (value : UInt64) : Bits :=
  ⟨nbits, numBytes nbits, fun i => decide (8 ≤ nbits ∨ i ≤ nbits) && value.toNat.testBit i⟩

/-- A loop of assignments writes as many bytes as it has turns, if there are as many; otherwise one
of them is a write past the end. -/
lemma foldlM_assign (v : ℕ → UInt8) (data : List UInt8) (n : ℕ) :
    (List.range n).foldlM (fun data i => assign data i (v i)) data
      = if n ≤ data.length then some ((List.range n).map v ++ data.drop n) else Option.none := by
  induction n with
  | zero => simp
  | succ n ih =>
      rw [List.range_succ, List.foldlM_append, ih]
      rcases Nat.lt_trichotomy n data.length with h | h | h
      · have hset : ((List.range n).map v ++ data.drop n).set n (v n)
            = (List.range n).map v ++ [v n] ++ data.drop (n + 1) := by
          rw [List.set_append_right _ _ (by simp), List.drop_eq_getElem_cons h, List.length_map,
            List.length_range, Nat.sub_self, List.set_cons_zero, List.append_assoc]
          rfl
        have hlength : n < ((List.range n).map v ++ data.drop n).length := by
          simp
          omega
        rw [if_pos h.le, if_pos (by omega)]
        simp only [Option.bind_eq_bind, Option.bind_some, List.foldlM_cons, List.foldlM_nil, assign,
          if_pos hlength, hset, List.map_append, List.map_cons, List.map_nil]
        rfl
      · rw [if_pos h.le, if_neg (by omega)]
        simp [assign, h]
      · rw [if_neg (by omega), if_neg (by omega)]
        rfl

/-- The bytes of a number hold its bits, lowest first. -/
lemma bit_bytes (x n k i : ℕ) :
    bit ((List.range n).map (fun i => UInt8.ofNat ((x >>> (i * 8)) &&& 0xff))
        ++ List.replicate k 0) i = (decide (i < 8 * n) && x.testBit i) := by
  rw [bit, List.getD_eq_getElem?_getD, List.getElem?_append, List.length_map, List.length_range]
  by_cases hi : i < 8 * n
  · rw [if_pos (by omega), List.getElem?_map, List.getElem?_range (by omega), Option.map_some,
      Option.getD_some, UInt8.toNat_ofNat', Nat.testBit_mod_two_pow, Nat.testBit_and,
      Nat.testBit_shiftRight, show (0xff : ℕ) = 2 ^ 8 - 1 by rfl, Nat.testBit_two_pow_sub_one]
    have hsum : i / 8 * 8 + i % 8 = i := by omega
    have hlt : i % 8 < 8 := by omega
    simp [hsum, hlt, hi]
  · rw [if_neg (by omega), List.getElem?_replicate]
    split_ifs <;> simp [hi]

/-- Fewer than 8 bits: one byte, from the masked value.  The mask keeps one bit more than there
are. -/
lemma new_of_lt {nbits : ℕ} (h : nbits < 8) (value : UInt64) :
    new nbits value = some ⟨nbits, (List.range 1).map (fun i =>
      UInt8.ofNat (((value.toNat &&& (1 <<< (nbits + 1) - 1)) >>> (i * 8)) &&& 0xff))
        ++ List.replicate 0 0⟩ := by
  have hbytes : numBytes nbits = 1 := if_pos h
  rw [new, if_pos h, hbytes, List.length_replicate]
  show (do let data ← (List.range 1).foldlM (fun data i => assign data i _) _; _) = _
  rw [foldlM_assign]
  rfl

/-- Otherwise the loop writes 8 bytes, whether there are as many or not, since the test compared
bits with bytes. -/
lemma new_of_not_lt {nbits : ℕ} (h : ¬ nbits < 8) (value : UInt64) :
    new nbits value = if 8 ≤ numBytes nbits then
        some ⟨nbits, (List.range 8).map (fun i =>
            UInt8.ofNat ((value.toNat >>> (i * 8)) &&& 0xff))
          ++ List.replicate (numBytes nbits - 8) 0⟩
      else Option.none := by
  rw [new, if_neg h]
  show (do let data ← (List.range 8).foldlM (fun data i => assign data i _) _; _) = _
  rw [foldlM_assign, List.length_replicate, List.drop_replicate]
  split_ifs <;> rfl

/-- **The constructor, exactly**: it stays inside its storage unless the number of bits is between 8
and 56. -/
theorem new_bits (nbits : ℕ) (value : UInt64) :
    (new nbits value).map bits
      = if nbits < 8 ∨ 56 < nbits then some (initial nbits value) else Option.none := by
  by_cases hsmall : nbits < 8
  · rw [if_pos (.inl hsmall), new_of_lt hsmall, Option.map_some]
    refine congrArg some (Bits.ext rfl (if_pos hsmall).symm (funext fun i => ?_))
    show bit _ i = (decide (8 ≤ nbits ∨ i ≤ nbits) && value.toNat.testBit i)
    rw [bit_bytes, Nat.one_shiftLeft, Nat.testBit_and, Nat.testBit_two_pow_sub_one]
    by_cases hi : i ≤ nbits
    · have hlt : i < 8 ∧ i < nbits + 1 := by omega
      simp [hi, hlt]
    · have hge : ¬ i < nbits + 1 ∧ ¬ 8 ≤ nbits := by omega
      simp [hi, hge]
  · have hbytes : numBytes nbits = 1 + (nbits - 1) / 8 := if_neg hsmall
    rw [new_of_not_lt hsmall]
    by_cases hlarge : 56 < nbits
    · rw [if_pos (by omega), if_pos (.inr hlarge), Option.map_some]
      refine congrArg some (Bits.ext rfl ?_ (funext fun i => ?_))
      · simp [bits, initial]
        omega
      · show bit _ i = (decide (8 ≤ nbits ∨ i ≤ nbits) && value.toNat.testBit i)
        rw [bit_bytes, decide_eq_true (show 8 ≤ nbits ∨ i ≤ nbits by omega), Bool.true_and]
        by_cases hi : i < 8 * 8
        · simp [hi]
        · have hhigh : value.toNat.testBit i = false :=
            Nat.testBit_lt_two_pow (value.toNat_lt.trans_le
              (Nat.pow_le_pow_right (by decide) (by omega)))
          simp [hi, hhigh]
    · rw [if_neg (by omega), if_neg (by omega), Option.map_none]

/-- In that case there is a bitset with just these bits. -/
lemma exists_of_new {nbits : ℕ} (hsize : nbits < 8 ∨ 56 < nbits) (value : UInt64) :
    ∃ b, new nbits value = some b ∧ b.bits = initial nbits value := by
  have hbits := new_bits nbits value
  rwa [if_pos hsize, Option.map_eq_some_iff] at hbits

/-- **In step with the bits**, over every run of a bitset that is covered. -/
lemma answers_eq_bits (hcovered : b.Covered) (calls : List BitsetCall) :
    answers DynamicBitset.step b calls = answers Bits.step b.bits calls :=
  answers_of_simulation (R := Stores) (Q := fun _ _ => True) (fun _ _ call h _ => h.step call)
    ⟨rfl, hcovered⟩ (everyStep_of_forall (fun _ _ => trivial) _ calls)

lemma covered_of_bits {nbits : ℕ} {value : UInt64} (h : b.bits = initial nbits value) :
    b.Covered := by
  show b.bits.numBits ≤ 8 * b.bits.bytes
  rw [h]
  exact le_numBytes nbits

/-- **From the constructor on**: over every run on a constructed bitset the answers are those of
`Bits`, and a position faults exactly when it lies outside the storage. -/
theorem answers_of_new (nbits : ℕ) (value : UInt64) (calls : List BitsetCall) :
    (new nbits value).map (fun b => answers DynamicBitset.step b calls)
      = if nbits < 8 ∨ 56 < nbits then some (answers Bits.step (initial nbits value) calls)
        else Option.none := by
  split_ifs with hsize
  · obtain ⟨b, hnew, hinitial⟩ := exists_of_new hsize value
    rw [hnew, Option.map_some, answers_eq_bits (covered_of_bits hinitial), hinitial]
  · have hnone := new_bits nbits value
    rw [if_neg hsize, Option.map_eq_none_iff] at hnone
    rw [hnone, Option.map_none]

/-! ## Out to a number or a text, and back

A number holds the bits up to its width; a text holds all of them.
-/

/-- **Round trip**: a bitset built from the number another one yields has the same bits, and none
set behind them.  The loop that makes the number never looks behind the last bit, so whatever
garbage is there is left behind. -/
theorem new_of_toUllong (hcovered : b.Covered) (hnumBits : b.numBits ≤ 64)
    (hsize : b.numBits < 8 ∨ 56 < b.numBits) :
    ∃ v b', b.toUllong = some v ∧ new b.numBits v = some b' ∧ b'.numBits = b.numBits
      ∧ ∀ i, bit b'.data i = (decide (i < b.numBits) && bit b.data i) := by
  rcases toUllong_eq hcovered with ⟨v, hv, hword⟩
  rcases exists_of_new hsize v with ⟨b', hnew, hinitial⟩
  refine ⟨v, b', hv, hnew, congrArg Bits.numBits hinitial, ?_⟩
  intro i
  have hi := congrFun (congrArg Bits.bit hinitial) i
  rw [min_eq_left hnumBits] at hword
  simp only [bits, initial, hword, testBit_word] at hi
  rw [hi]
  by_cases hlt : i < b.numBits
  · simp [hlt, hlt.le]
  · simp [hlt]

/-- Five bits, with two more set behind them in the byte. -/
theorem new_of_toUllong_five :
    ∃ v b', (⟨5, [0x76]⟩ : DynamicBitset).toUllong = some v ∧ new 5 v = some b' ∧ b'.numBits = 5
      ∧ ∀ i, bit b'.data i = (decide (i < 5) && bit [0x76] i) :=
  new_of_toUllong (b := ⟨5, [0x76]⟩) (by decide) (by decide) (by decide)

/-- **What a text of binary digits stands for.**  It takes every character but `1` for a zero, so it
says something about a text only together with the characters that the text has. -/
def numeral (digits : List Char) : ℕ := digits.foldl (fun n c => 2 * n + if c = '1' then 1 else 0) 0

/-- Digits in front of a numeral count by the length of what follows. -/
lemma numeral_foldl (digits : List Char) (n : ℕ) :
    digits.foldl (fun n c => 2 * n + if c = '1' then 1 else 0) n
      = n * 2 ^ digits.length + numeral digits := by
  induction digits generalizing n with
  | nil => simp [numeral]
  | cons c digits ih =>
      rw [numeral, List.foldl_cons, List.foldl_cons, ih, ih, List.length_cons, Nat.pow_succ']
      ring

/-- Highest bit first, the digits are those of the word. -/
lemma numeral_bits (f : ℕ → Bool) (n : ℕ) :
    numeral ((List.range n).map fun i => if f (n - i - 1) then '1' else '0') = word f n := by
  induction n with
  | zero => rfl
  | succ n ih =>
      have htail : (fun i => if f (n + 1 - (i + 1) - 1) then '1' else '0')
          = fun i => if f (n - i - 1) then '1' else '0' := by
        funext i
        rw [Nat.add_sub_add_right]
      rw [List.range_succ_eq_map, List.map_cons, List.map_map, Function.comp_def, htail, numeral,
        List.foldl_cons, numeral_foldl, ih, List.length_map, List.length_range, word_succ]
      cases hf : f n <;> simp [hf]

/-- **The text is the binary numeral** of the bits, with one digit for each of them and no other
character, and of `to_ullong()` where it has room for them. -/
theorem toString_numeral (hcovered : b.Covered) :
    ∃ s v, b.toString = some s ∧ b.toUllong = some v
      ∧ s.toList.length = b.numBits ∧ (∀ digit ∈ s.toList, digit = '0' ∨ digit = '1')
      ∧ numeral s.toList = word (bit b.data) b.numBits
      ∧ (b.numBits ≤ 64 → numeral s.toList = v.toNat) := by
  rcases toUllong_eq hcovered with ⟨v, hv, hword⟩
  refine ⟨_, v, toString_eq hcovered, hv, ?_, ?_, ?_, ?_⟩
  · rw [String.toList_ofList, List.length_map, List.length_range]
  · intro digit hdigit
    rw [String.toList_ofList] at hdigit
    rcases List.mem_map.1 hdigit with ⟨i, -, rfl⟩
    split_ifs
    · exact .inr rfl
    · exact .inl rfl
  · rw [String.toList_ofList, numeral_bits]
  · intro hnumBits
    rw [String.toList_ofList, numeral_bits, hword, min_eq_left hnumBits]

/-- Ten bits. -/
theorem toString_numeral_ten :
    ∃ s v, (⟨10, [0x76, 0x02]⟩ : DynamicBitset).toString = some s
      ∧ (⟨10, [0x76, 0x02]⟩ : DynamicBitset).toUllong = some v
      ∧ s.toList.length = 10 ∧ (∀ digit ∈ s.toList, digit = '0' ∨ digit = '1')
      ∧ numeral s.toList = word (bit [0x76, 0x02]) 10 ∧ (10 ≤ 64 → numeral s.toList = v.toNat) :=
  toString_numeral (b := ⟨10, [0x76, 0x02]⟩) (by decide)

/-! ## As a vector of bits

`resize` is documented to behave as that of a `std::vector`, which fills up with fresh elements.
The bytes keep what a shorter size leaves of the last one, so the class is a vector of bits only to
a caller that takes care where it cuts.
-/

/-- **A vector of bits**, which is what the documentation of the class promises.  A position past
the end faults, as it does in a vector; `resize` fills up with `false`. -/
def BoolVector.step (xs : List Bool) : BitsetCall → Option (BitsetAnswer × List Bool)
  | .set pos value =>
      if pos < xs.length then some (.nothing, xs.set pos value) else Option.none
  | .flip => some (.nothing, xs.map fun x => !x)
  | .flipAt pos =>
      if pos < xs.length then some (.nothing, xs.set pos !xs.getD pos false) else Option.none
  | .setall value => some (.nothing, List.replicate xs.length value)
  | .reset => some (.nothing, List.replicate xs.length false)
  | .resize nbits =>
      some (.nothing, xs.take nbits ++ List.replicate (nbits - xs.length) false)
  | .any => some (.truth (xs.any id), xs)
  | .all => some (.truth (xs.all id), xs)
  | .none => some (.truth (!xs.any id), xs)
  | .count => some (.number (xs.count true % 2 ^ 32), xs)
  | .test pos => if pos < xs.length then some (.truth (xs.getD pos false), xs) else Option.none
  | .toString => some (.text (String.ofList (xs.reverse.map fun x => if x then '1' else '0')), xs)
  | .toUlong => some (.number (word (fun i => xs.getD i false) (min xs.length 32)), xs)
  | .toUllong => some (.number (word (fun i => xs.getD i false) (min xs.length 64)), xs)
  | .size => some (.number xs.length, xs)
  | .storageSize => some (.number (numBytes xs.length), xs)

/-- **What a caller has to keep to**: positions that exist, and no cut through a byte with a bit set
behind the cut.  The second is a condition on what the vector holds before the call, so a caller can
meet it by clearing these bits first. -/
def Clean (xs : List Bool) : BitsetCall → Prop
  | .set pos _ | .flipAt pos | .test pos => pos < xs.length
  | .resize nbits => ∀ i, nbits ≤ i → i < 8 * numBytes nbits → xs.getD i false = false
  | _ => True

instance (xs : List Bool) : DecidablePred (Clean xs)
  | .set pos _ | .flipAt pos | .test pos => inferInstanceAs (Decidable (pos < xs.length))
  | .resize nbits => inferInstanceAs (Decidable (∀ i, nbits ≤ i → i < 8 * numBytes nbits →
      xs.getD i false = false))
  | .flip | .setall _ | .reset | .any | .all | .none | .count | .toString | .toUlong | .toUllong
  | .size | .storageSize => inferInstanceAs (Decidable True)

/-- The vector's bits, with none set behind the last one. -/
def BoolVector.bits (xs : List Bool) : Bits :=
  ⟨xs.length, numBytes xs.length, fun i => xs.getD i false⟩

section BoolVector

variable {s : Bits} {xs ys : List Bool} {call : BitsetCall}

/-- Bits are those of a vector if the sizes agree, and every position does, past the end as well as
before it. -/
lemma eq_bits (hlength : s.numBits = ys.length) (hbytes : s.bytes = numBytes ys.length)
    (hbit : ∀ i, s.bit i = ys.getD i false) : s = BoolVector.bits ys :=
  Bits.ext hlength hbytes (funext hbit)

lemma map_range_getD (xs : List Bool) :
    (List.range xs.length).map (fun i => xs.getD i false) = xs := by
  refine List.ext_getElem (by simp) fun i hi hi' => ?_
  simp [List.getElem?_eq_getElem hi']

lemma exists_getD : (∃ i < xs.length, xs.getD i false = true) ↔ true ∈ xs := by
  constructor
  · rintro ⟨i, hi, htrue⟩
    rw [← htrue, List.getD_eq_getElem _ _ hi]
    exact List.getElem_mem hi
  · intro hmem
    rcases List.getElem_of_mem hmem with ⟨i, hi, htrue⟩
    exact ⟨i, hi, by rw [List.getD_eq_getElem _ _ hi, htrue]⟩

lemma forall_getD : (∀ i < xs.length, xs.getD i false = true) ↔ ∀ x ∈ xs, x = true := by
  constructor
  · intro h x hx
    rcases List.getElem_of_mem hx with ⟨i, hi, rfl⟩
    rw [← h i hi, List.getD_eq_getElem _ _ hi]
  · intro h i hi
    rw [List.getD_eq_getElem _ _ hi]
    exact h _ (List.getElem_mem hi)

lemma getD_set (pos i : ℕ) (value : Bool) (hpos : pos < xs.length) :
    (xs.set pos value).getD i false = if i = pos then value else xs.getD i false := by
  rw [List.getD_eq_getElem?_getD, List.getD_eq_getElem?_getD, List.getElem?_set]
  by_cases hi : pos = i
  · rw [if_pos hi, if_pos (hi ▸ hpos), if_pos hi.symm, Option.getD_some]
  · rw [if_neg hi, if_neg (Ne.symm hi)]

lemma getD_map_not (i : ℕ) :
    (xs.map fun x => !x).getD i false
      = if i < xs.length then !xs.getD i false else xs.getD i false := by
  rw [List.getD_eq_getElem?_getD, List.getD_eq_getElem?_getD, List.getElem?_map]
  by_cases hi : i < xs.length
  · simp [hi]
  · simp [hi]

lemma getD_replicate (n i : ℕ) (value : Bool) :
    (List.replicate n value).getD i false = if i < n then value else false := by
  rw [List.getD_eq_getElem?_getD, List.getElem?_replicate]
  split_ifs <;> rfl

/-- A vector that is cut, or filled up, holds what it held below its new end. -/
lemma getD_resize (n i : ℕ) :
    (xs.take n ++ List.replicate (n - xs.length) false).getD i false
      = if i < n then xs.getD i false else false := by
  rw [List.getD_eq_getElem?_getD, List.getD_eq_getElem?_getD, List.getElem?_append,
    List.getElem?_take, List.getElem?_replicate, List.length_take]
  by_cases hn : i < n
  · by_cases hlength : i < xs.length
    · simp [hn, hlength]
    · rw [if_neg (by omega)]
      split_ifs <;> simp [hlength]
  · rw [if_neg hn, if_neg (by omega)]
    split_ifs <;> rfl

/-- **One clean call** in step with a vector.  Only `resize` needs the condition to keep the bits
behind the end off; the others need it to stay inside. -/
lemma step_bits (hclean : Clean xs call) :
    Option.Rel (fun x y => x.1 = y.1 ∧ x.2 = BoolVector.bits y.2)
      ((BoolVector.bits xs).step call) (BoolVector.step xs call) := by
  have hin : ∀ pos < xs.length, pos / 8 < (BoolVector.bits xs).bytes := by
    intro pos hpos
    have hle : xs.length ≤ 8 * (BoolVector.bits xs).bytes := le_numBytes xs.length
    omega
  cases call with
  | set pos value =>
      have hpos : pos < xs.length := hclean
      rw [Bits.step, BoolVector.step, if_pos (hin pos hpos), if_pos hpos]
      refine .some ⟨rfl, eq_bits (by simp [BoolVector.bits]) (by simp [BoolVector.bits])
        fun i => ?_⟩
      rw [getD_set pos i value hpos]
      exact Function.update_apply _ _ _ _
  | flip =>
      refine .some ⟨rfl, eq_bits (by simp [BoolVector.bits]) (by simp [BoolVector.bits])
        fun i => ?_⟩
      exact getD_map_not i |>.symm
  | flipAt pos =>
      have hpos : pos < xs.length := hclean
      rw [Bits.step, BoolVector.step, if_pos (hin pos hpos), if_pos hpos]
      refine .some ⟨rfl, eq_bits (by simp [BoolVector.bits]) (by simp [BoolVector.bits])
        fun i => ?_⟩
      rw [getD_set pos i _ hpos]
      exact Function.update_apply _ _ _ _
  | setall value =>
      refine .some ⟨rfl, eq_bits (by simp [BoolVector.bits]) (by simp [BoolVector.bits])
        fun i => ?_⟩
      rw [getD_replicate]
      by_cases hi : i < xs.length
      · rw [if_pos hi]
        exact if_pos hi
      · rw [if_neg hi, ← List.getD_eq_default xs false (Nat.not_lt.1 hi)]
        exact if_neg hi
  | reset =>
      refine .some ⟨rfl, eq_bits (by simp [BoolVector.bits]) (by simp [BoolVector.bits])
        fun i => ?_⟩
      rw [getD_replicate, ite_self]
  | resize nbits =>
      have hlength : (xs.take nbits ++ List.replicate (nbits - xs.length) false).length
          = nbits := by
        simp
        omega
      refine .some ⟨rfl, eq_bits hlength.symm (by rw [hlength]) fun i => ?_⟩
      rw [getD_resize]
      show (decide (i < 8 * numBytes nbits) && xs.getD i false) = _
      have hle := le_numBytes nbits
      by_cases hi : i < nbits
      · rw [if_pos hi, decide_eq_true (by omega), Bool.true_and]
      · rw [if_neg hi]
        by_cases hbyte : i < 8 * numBytes nbits
        · rw [hclean i (by omega) hbyte, Bool.and_false]
        · rw [decide_eq_false hbyte, Bool.false_and]
  | any =>
      refine .some ⟨congrArg BitsetAnswer.truth ?_, rfl⟩
      rw [Bool.eq_iff_iff, decide_eq_true_iff]
      exact exists_getD.trans (by simp)
  | all =>
      refine .some ⟨congrArg BitsetAnswer.truth ?_, rfl⟩
      rw [Bool.eq_iff_iff, decide_eq_true_iff]
      exact forall_getD.trans (by simp)
  | none =>
      refine .some ⟨congrArg BitsetAnswer.truth ?_, rfl⟩
      rw [Bool.eq_iff_iff, decide_eq_true_iff]
      have hnone : (∀ i < xs.length, xs.getD i false = false) ↔ true ∉ xs := by
        rw [← exists_getD]
        simp
      exact hnone.trans (by simp)
  | count =>
      refine .some ⟨congrArg BitsetAnswer.number (congrArg (· % 2 ^ 32) ?_), rfl⟩
      show (List.range xs.length).countP (fun i => xs.getD i false) = xs.count true
      conv_rhs => rw [← map_range_getD xs]
      rw [List.count_eq_countP, List.countP_map]
      congr 1
      funext i
      simp
  | test pos =>
      have hpos : pos < xs.length := hclean
      rw [Bits.step, BoolVector.step, if_pos (hin pos hpos), if_pos hpos]
      exact .some ⟨rfl, rfl⟩
  | toString =>
      refine .some ⟨congrArg (BitsetAnswer.text ∘ String.ofList) ?_, rfl⟩
      refine List.ext_getElem (by simp [BoolVector.bits]) fun i hi hi' => ?_
      have hlt : i < xs.length := by simpa using hi'
      have hindex : xs.length - i - 1 = xs.length - 1 - i := by omega
      rw [List.getElem_map, List.getElem_range, List.getElem_map, List.getElem_reverse]
      show (if xs.getD (xs.length - i - 1) false = true then '1' else '0') = _
      rw [hindex, List.getD_eq_getElem _ _ (by omega)]
  | toUlong => exact .some ⟨rfl, rfl⟩
  | toUllong => exact .some ⟨rfl, rfl⟩
  | size => exact .some ⟨rfl, rfl⟩
  | storageSize => exact .some ⟨rfl, rfl⟩

/-- **As a vector of bits**, over every clean run from the constructor on: a `resize` fills up with
zeros, and nothing faults. -/
theorem answers_eq_boolVector (nbits : ℕ) (value : UInt64) (hsize : nbits < 8 ∨ 56 < nbits)
    (hvalue : value.toNat < 2 ^ nbits) (calls : List BitsetCall)
    (hclean : EveryStep (advance BoolVector.step) Clean
      ((List.range nbits).map value.toNat.testBit) calls) :
    (new nbits value).map (fun b => answers DynamicBitset.step b calls)
      = some (answers BoolVector.step ((List.range nbits).map value.toNat.testBit) calls) := by
  have hinitial : initial nbits value
      = BoolVector.bits ((List.range nbits).map value.toNat.testBit) := by
    refine eq_bits (by simp [initial]) (by simp [initial]) fun i => ?_
    show (decide (8 ≤ nbits ∨ i ≤ nbits) && value.toNat.testBit i) = _
    rw [List.getD_eq_getElem?_getD, List.getElem?_map]
    by_cases hi : i < nbits
    · rw [List.getElem?_range hi, decide_eq_true (by omega), Bool.true_and]
      rfl
    · have hhigh : value.toNat.testBit i = false :=
        Nat.testBit_lt_two_pow (hvalue.trans_le (Nat.pow_le_pow_right (by decide) (by omega)))
      rw [hhigh, Bool.and_false, List.getElem?_eq_none (by simp; omega)]
      rfl
  obtain ⟨b, hnew, hbits⟩ := exists_of_new hsize value
  rw [hnew, Option.map_some, answers_eq_bits (covered_of_bits hbits), hbits, hinitial]
  refine congrArg some
    (answers_of_simulation (R := fun s xs => s = BoolVector.bits xs) ?_ rfl hclean)
  rintro s xs call rfl hcall
  exact step_bits hcall

/-- Shrunk to a whole byte and grown again. -/
theorem answers_eq_boolVector_shrunk :
    (new 60 0x1ff).map
        (fun b => answers DynamicBitset.step b [.resize 8, .resize 10, .test 8, .count])
      = some (answers BoolVector.step ((List.range 60).map (0x1ff : UInt64).toNat.testBit)
          [.resize 8, .resize 10, .test 8, .count]) :=
  answers_eq_boolVector 60 0x1ff (by decide) (by decide) _ (by decide)

/-- **The answer of `test` after two `resize`s**: whatever the last byte that the first one kept
still holds there. -/
lemma answers_resize_resize_test {nbits m pos : ℕ} (hm : pos < m) :
    answers DynamicBitset.step b [.resize nbits, .resize m, .test pos]
      = [some .nothing, some .nothing,
          some (.truth (decide (pos < 8 * numBytes nbits) && bit b.data pos))] := by
  have hle := le_numBytes m
  have hlength : ((b.resize nbits).resize m).data.length = numBytes m := by
    simp [DynamicBitset.resize]
    omega
  have hbit : bit ((b.resize nbits).resize m).data pos
      = (decide (pos < 8 * numBytes nbits) && bit b.data pos) := by
    have houter : bit ((b.resize nbits).resize m).data pos
        = (decide (pos < 8 * numBytes m) && bit (b.resize nbits).data pos) := bit_resize
    have hinner : bit (b.resize nbits).data pos
        = (decide (pos < 8 * numBytes nbits) && bit b.data pos) := bit_resize
    rw [houter, hinner, decide_eq_true (by omega), Bool.true_and]
  have htest : ((b.resize nbits).resize m).step (.test pos)
      = some (.truth (decide (pos < 8 * numBytes nbits) && bit b.data pos),
          (b.resize nbits).resize m) := by
    rw [DynamicBitset.step, DynamicBitset.test, get_of_lt (by rw [hlength]; omega), hbit]
    rfl
  have hresize : ∀ (b : DynamicBitset) n, b.step (.resize n) = some (.nothing, b.resize n) :=
    fun _ _ => rfl
  simp only [answers, hresize, htest]

/-- **The cut matters**: whatever the bitset, growing again after `resize(nbits)` shows fresh bits
exactly when no bit behind the cut was set in the last byte that is kept. -/
theorem resize_fills_iff (b : DynamicBitset) (nbits : ℕ) :
    (∀ m pos, nbits ≤ pos → pos < m →
        answers DynamicBitset.step b [.resize nbits, .resize m, .test pos]
          = [some .nothing, some .nothing, some (.truth false)])
      ↔ ∀ i, nbits ≤ i → i < 8 * numBytes nbits → bit b.data i = false := by
  constructor
  · intro h i hi hbyte
    have hfresh := h (i + 1) i hi (Nat.lt_succ_self i)
    rw [answers_resize_resize_test (Nat.lt_succ_self i), decide_eq_true hbyte,
      Bool.true_and] at hfresh
    simpa using hfresh
  · intro h m pos hpos hm
    rw [answers_resize_resize_test hm]
    by_cases hbyte : pos < 8 * numBytes nbits
    · rw [h pos hpos hbyte, Bool.and_false]
    · rw [decide_eq_false hbyte, Bool.false_and]

end BoolVector

end DynamicBitset

end MinSeq
