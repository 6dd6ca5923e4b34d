import MinSeq.Core.Cyclic
import MinSeq.Core.Fifo

/-!
# The ring buffer of the audio library

`ring_buffer_base` of `extlibs/cubeb/src/cubeb_ringbuffer.h`: a queue of fixed capacity between the
thread that produces and the thread that consumes.  This file has its members and what a call does
when nothing else runs; the two threads are in `RingBufferThreads`.

The indices are `int`s and `%` is C++'s, which takes its sign from the dividend.  The constructor
asserts that the storage is smaller than `INT_MAX / 2`, so that no sum of two indices overflows, and
the indices are whole numbers here.

**One cell stays free.**  Equal indices mean an empty buffer, so a full one must have its indices
differ, and the storage has one cell more than the buffer has room for.  The comments in the source
say that the write index is always ahead; in a new buffer the two are equal.

**Indices and turns.**  The functions compute with two indices that wrap, and every one of them has
to ask which of the two has wrapped.  Here an index is the remainder of a count that does not wrap:
of all elements that ever went in, or came out.  In these terms each function is one line, and `At`
is the relation between the two.

* **`Holds.enqueue`**, **`Holds.dequeue`** — a call puts in at the end as much as fits, or takes
  from the front as much as there is, across the end of the storage too.
-/

namespace MinSeq

open Memory Cyclic

variable {T : Type} {n R W k : ℕ}

/-! ## Copies

`Copy` and `ConstructDefault` of `cubeb_utils.h` go from one cell to the next; what they do is a
list of writes.
-/

/-- `Copy(destination, source, count)`: as many writes as are counted, to one cell after the
other. -/
def copy (destination : ℕ) (source : List T) (count : ℕ) : List (ℕ × T) :=
  (List.range' destination count).zip source

/-- `ConstructDefault(destination, count)`: what is put in for a null pointer. -/
def constructDefault [Inhabited T] (destination count : ℕ) : List (ℕ × T) :=
  (List.range' destination count).map fun a => (a, default)

/-- One write of a copy; the other thread may come between two of them. -/
def write (data : Mem T) (w : ℕ × T) : Mem T := Function.update data w.1 w.2

/-! ## The members

Under the names of the source.  Those that take two indices are given the ones that the caller has
loaded, and not the ones that are in the object by then.
-/

/-- **The ring buffer**: both indices, the number of cells, and the cells. -/
structure RingBuffer (T : Type) where
  readIndex : ℤ
  writeIndex : ℤ
  /-- `capacity_`, which is what `storage_capacity()` returns. -/
  storageCapacity : ℤ
  data : Mem T

namespace RingBuffer

/-- The constructor; `data` is what the allocation leaves in the storage. -/
def new (capacity : ℤ) (data : Mem T) : RingBuffer T := ⟨0, 0, capacity + 1, data⟩

/-- How many elements there is room for, which is one less than there are cells. -/
def capacity (r : RingBuffer T) : ℤ := r.storageCapacity - 1

/-- Equal indices are an empty buffer. -/
def emptyInternal (_r : RingBuffer T) (readIndex writeIndex : ℤ) : Bool := writeIndex == readIndex

/-- A write index that would meet the read index is a full one. -/
def fullInternal (r : RingBuffer T) (readIndex writeIndex : ℤ) : Bool :=
  (writeIndex + 1).tmod r.storageCapacity == readIndex

/-- How many elements lie between the indices, if the write index has wrapped or not. -/
def availableReadInternal (r : RingBuffer T) (readIndex writeIndex : ℤ) : ℤ :=
  if writeIndex ≥ readIndex then writeIndex - readIndex
  else writeIndex + r.storageCapacity - readIndex

/-- How many more there is room for: the cells that are not in use, but one. -/
def availableWriteInternal (r : RingBuffer T) (readIndex writeIndex : ℤ) : ℤ :=
  let rv := readIndex - writeIndex - 1
  if writeIndex ≥ readIndex then rv + r.storageCapacity else rv

/-- An index moved on, and wrapped if need be.  It never moves by more than the storage has
cells. -/
def incrementIndex (r : RingBuffer T) (index increment : ℤ) : ℤ :=
  (index + increment).tmod r.storageCapacity

/-- The two questions a caller may ask use the indices in the object. -/
def availableRead (r : RingBuffer T) : ℤ := r.availableReadInternal r.readIndex r.writeIndex

def availableWrite (r : RingBuffer T) : ℤ := r.availableWriteInternal r.readIndex r.writeIndex

/-- The copies of `enqueue`: to the end of the array, then from its beginning.  No `elements` is the
null pointer. -/
def enqueueCopies [Inhabited T] (r : RingBuffer T) (wrIdx : ℤ) (elements : Option (List T))
    (toWrite : ℤ) : List (ℕ × T) :=
  let firstPart := min (r.storageCapacity - wrIdx) toWrite
  let secondPart := toWrite - firstPart
  match elements with
  | some elements =>
      copy wrIdx.toNat elements firstPart.toNat
        ++ copy 0 (elements.drop firstPart.toNat) secondPart.toNat
  | none => constructDefault wrIdx.toNat firstPart.toNat ++ constructDefault 0 secondPart.toNat

/-- **`enqueue`**: what it returns, and the ring buffer after it.  The elements are copied before
the write index says that they are there. -/
def enqueue [Inhabited T] (r : RingBuffer T) (elements : Option (List T)) (count : ℤ) :
    ℤ × RingBuffer T :=
  let rdIdx := r.readIndex
  let wrIdx := r.writeIndex
  if r.fullInternal rdIdx wrIdx then (0, r)
  else
    let toWrite := min (r.availableWriteInternal rdIdx wrIdx) count
    (toWrite,
      { r with
        data := (r.enqueueCopies wrIdx elements toWrite).foldl write r.data
        writeIndex := r.incrementIndex wrIdx toWrite })

/-- The cells `dequeue` copies out, in order; none when `elements` is the null pointer. -/
def dequeueCopies (r : RingBuffer T) (rdIdx : ℤ) (elements : Bool) (toRead : ℤ) : List ℕ :=
  let firstPart := min (r.storageCapacity - rdIdx) toRead
  let secondPart := toRead - firstPart
  if elements then List.range' rdIdx.toNat firstPart.toNat ++ List.range' 0 secondPart.toNat
  else []

/-- **`dequeue`**: what it returns, what it leaves in the caller's buffer, and the ring buffer.  The
elements are copied before the read index says that their cells are free. -/
def dequeue (r : RingBuffer T) (elements : Bool) (count : ℤ) : ℤ × List T × RingBuffer T :=
  let wrIdx := r.writeIndex
  let rdIdx := r.readIndex
  if r.emptyInternal rdIdx wrIdx then (0, [], r)
  else
    let toRead := min (r.availableReadInternal rdIdx wrIdx) count
    (toRead, (r.dequeueCopies rdIdx elements toRead).map r.data,
      { r with readIndex := r.incrementIndex rdIdx toRead })

/-! ## Indices as turns

Counting reads and writes from the beginning, without wrapping, an index is the count modulo the
size of the storage.
-/

/-- **The ring buffer has `n` cells; `R` elements were taken out so far and `W` put in.**  The last
two fields say that no more was taken out than put in, and that one cell is free. -/
structure At (r : RingBuffer T) (n R W : ℕ) : Prop where
  storage : r.storageCapacity = n
  read : r.readIndex = (R % n : ℕ)
  write : r.writeIndex = (W % n : ℕ)
  le : R ≤ W
  lt : W < R + n

section Turns

variable {r : RingBuffer T}

/-- Moving an index on is moving its count on. -/
lemma incrementIndex_turn (hs : r.storageCapacity = n) :
    r.incrementIndex (W % n : ℕ) k = ((W + k) % n : ℕ) := by
  rw [incrementIndex, hs, ← Nat.cast_add, ← Int.ofNat_tmod, Nat.mod_add_mod]

/-- The later of two turns less than a round apart has the greater index, or has wrapped once. -/
lemma mod_later (hle : R ≤ W) (hlt : W < R + n) :
    W % n = if R % n + (W - R) < n then R % n + (W - R) else R % n + (W - R) - n := by
  have hmod := @Nat.add_mod_eq_ite n R (W - R)
  rw [Nat.mod_eq_of_lt (show W - R < n by omega), Nat.add_sub_cancel' hle] at hmod
  rw [hmod]
  split_ifs <;> omega

/-- What there is to read is what went in and did not come out.  The two branches of the function
are the two ways the indices may lie. -/
lemma availableReadInternal_turns (hs : r.storageCapacity = n) (hle : R ≤ W) (hlt : W < R + n) :
    r.availableReadInternal (R % n : ℕ) (W % n : ℕ) = W - R := by
  have hR := Nat.mod_lt R (show 0 < n by omega)
  have hW := mod_later hle hlt
  rw [availableReadInternal, hs]
  split_ifs at hW ⊢ <;> omega

/-- The room is what is left of the cells but one. -/
lemma availableWriteInternal_turns (hs : r.storageCapacity = n) (hle : R ≤ W) (hlt : W < R + n) :
    r.availableWriteInternal (R % n : ℕ) (W % n : ℕ) = n - 1 - (W - R) := by
  have hR := Nat.mod_lt R (show 0 < n by omega)
  have hW := mod_later hle hlt
  simp only [availableWriteInternal, hs]
  split_ifs at hW ⊢ <;> omega

/-- The test for an empty buffer is one of counts, as the two are less than a round apart. -/
lemma emptyInternal_turns (hle : R ≤ W) (hlt : W < R + n) :
    r.emptyInternal (R % n : ℕ) (W % n : ℕ) = true ↔ W = R := by
  have hR := Nat.mod_lt R (show 0 < n by omega)
  have hW := mod_later hle hlt
  rw [emptyInternal, beq_iff_eq]
  split_ifs at hW <;> omega

lemma fullInternal_turns (hs : r.storageCapacity = n) (hle : R ≤ W) (hlt : W < R + n) :
    r.fullInternal (R % n : ℕ) (W % n : ℕ) = true ↔ W + 1 = R + n := by
  have hindex : (((W % n : ℕ) : ℤ) + 1).tmod r.storageCapacity = ((W + 1) % n : ℕ) :=
    incrementIndex_turn hs
  have hR := Nat.mod_lt R (show 0 < n by omega)
  rw [fullInternal, beq_iff_eq, hindex, Nat.cast_inj]
  rcases Nat.lt_or_eq_of_le (show W + 1 ≤ R + n by omega) with hnext | hround
  · have hW := mod_later (R := R) (W := W + 1) (by omega) hnext
    split_ifs at hW <;> omega
  · rw [hround, Nat.add_mod_right]
    simp

end Turns

/-! ## Calls

What a caller passes.  A count that is not negative is asserted nowhere, and neither is room behind
the pointer; both are what a call is.
-/

/-- A call of `enqueue`, with at least `count` elements behind the pointer if it is not null. -/
structure EnqueueCall (T : Type) where
  elements : Option (List T)
  count : ℕ
  enough : ∀ xs ∈ elements, count ≤ xs.length

/-- A call of `dequeue`; `elements` says whether the pointer is not null. -/
structure DequeueCall where
  elements : Bool
  count : ℕ

/-- What the pointer stands for: the elements behind it, or as many silent ones as are asked for. -/
def EnqueueCall.values [Inhabited T] (call : EnqueueCall T) : List T :=
  match call.elements with
  | some elements => elements
  | none => List.replicate call.count default

/-- There are as many values as are counted, also for a null pointer. -/
lemma EnqueueCall.count_le [Inhabited T] (call : EnqueueCall T) :
    call.count ≤ call.values.length := by
  unfold values
  split
  · next xs hxs => exact call.enough xs hxs
  · simp

/-! ## Copies as turns

A copy in two parts, to the end of the storage and from its beginning, is one run of turns.  This is
the only place where the end of the storage shows.
-/

section Copies

variable {r : RingBuffer T}

/-- **The two copies of `dequeue`** read the next turns' cells one after another. -/
lemma dequeueCopies_turns (hs : r.storageCapacity = n) (hn : 0 < n) (hk : k ≤ n)
    (wanted : Bool) :
    r.dequeueCopies (R % n : ℕ) wanted k = if wanted then slots n R k else [] := by
  have hlt := Nat.mod_lt R hn
  have hfirst : (min ((n : ℤ) - (R % n : ℕ)) k).toNat = min (n - R % n) k := by omega
  have hsecond : ((k : ℤ) - min ((n : ℤ) - (R % n : ℕ)) k).toNat = k - min (n - R % n) k := by omega
  rw [slots_eq_two_parts hn hk]
  simp only [dequeueCopies, hs, hfirst, hsecond, Int.toNat_natCast]

/-- Writing the next turns' cells appends to the block before them. -/
lemma window_foldl_write {data : Mem T} {xs : List T} (hk : k ≤ xs.length)
    (hfit : W + k ≤ R + n) (hle : R ≤ W) :
    window (((slots n W k).zip xs).foldl write data) n R (W + k - R)
      = window data n R (W - R) ++ xs.take k := by
  induction k generalizing W data xs with
  | zero => simp
  | succ k ih =>
      cases xs with
      | nil => simp at hk
      | cons x xs =>
          have hturn : W = R + (W - R) := by omega
          have hlen : W + (k + 1) - R = (W + 1) + k - R := by omega
          have hnext : W + 1 - R = (W - R) + 1 := by omega
          rw [slots, List.zip_cons_cons, List.foldl_cons, hlen,
            ih (by simpa using hk) (by omega) (by omega), hnext, List.take_succ_cons]
          have hwrite := window_update_next (m := data) (n := n) (i := R) (x := x)
            (show W - R < n by omega)
          rw [← hturn] at hwrite
          rw [write, hwrite, List.append_assoc]
          rfl

/-- The zip of two runs with a list is the zips with its two parts. -/
lemma zip_two_parts {as bs : List ℕ} {xs : List T} (hlen : as.length ≤ xs.length) :
    (as ++ bs).zip xs = as.zip xs ++ bs.zip (xs.drop as.length) := by
  have hparts : (as ++ bs).zip (xs.take as.length ++ xs.drop as.length)
      = as.zip (xs.take as.length) ++ bs.zip (xs.drop as.length) :=
    List.zip_append (by simp [hlen])
  have htake : as.zip (xs.take as.length) = as.zip xs := by
    conv_rhs => rw [List.zip_eq_zip_take_min, min_eq_left hlen, List.take_length]
  rw [List.take_append_drop] at hparts
  rw [hparts, htake]

variable [Inhabited T]

/-- Silence is a list of elements like any other. -/
lemma constructDefault_eq_zip (destination count : ℕ) {k : ℕ} (hk : count ≤ k) :
    constructDefault destination count
      = (List.range' destination count).zip (List.replicate k (default : T)) := by
  induction count generalizing destination k with
  | zero => rfl
  | succ count ih =>
      cases k with
      | zero => omega
      | succ k =>
          rw [List.range'_succ, List.replicate_succ, List.zip_cons_cons,
            ← ih (destination + 1) (by omega)]
          rfl

/-- **The two copies of `enqueue`** write the next turns' cells one after another. -/
lemma enqueueCopies_turns (hs : r.storageCapacity = n) (hn : 0 < n) (hk : k ≤ n)
    (call : EnqueueCall T) (hcount : k ≤ call.count) :
    r.enqueueCopies (W % n : ℕ) call.elements k = (slots n W k).zip call.values := by
  have hlt := Nat.mod_lt W hn
  have hfirst : (min ((n : ℤ) - (W % n : ℕ)) k).toNat = min (n - W % n) k := by omega
  have hsecond : ((k : ℤ) - min ((n : ℤ) - (W % n : ℕ)) k).toNat = k - min (n - W % n) k := by omega
  have hvalues := call.count_le
  rw [slots_eq_two_parts hn hk, zip_two_parts (by simp; omega), List.length_range']
  simp only [enqueueCopies, EnqueueCall.values, hs, hfirst, hsecond, Int.toNat_natCast]
  split
  · rfl
  · have hpart : k - min (n - W % n) k ≤ call.count - min (n - W % n) k := by omega
    rw [List.drop_replicate, constructDefault_eq_zip (W % n) _ (k := call.count) (by omega),
      constructDefault_eq_zip 0 _ hpart]

end Copies

/-! ## A call on its own

What the members do while the other thread does nothing, in terms of the queue.
-/

/-- **The ring buffer holds `queue`**, oldest first, and room for `n - 1` elements in all.  How
often the indices have gone round by then does not matter. -/
def Holds (r : RingBuffer T) (n : ℕ) (queue : List T) : Prop :=
  ∃ R, r.At n R (R + queue.length) ∧ window r.data n R queue.length = queue

section Sequential

variable {r : RingBuffer T} {queue : List T}

lemma holds_new (capacity : ℕ) (data : Mem T) :
    (RingBuffer.new capacity data).Holds (capacity + 1) [] :=
  ⟨0, ⟨by simp [new], by simp [new], by simp [new], by simp, by simp⟩, rfl⟩

/-- A full one leaves a cell free. -/
lemma Holds.length_lt (h : r.Holds n queue) : queue.length < n := by
  rcases h with ⟨R, hat, -⟩
  have hlt := hat.lt
  omega

/-- The room does not depend on what is held. -/
lemma Holds.capacity (h : r.Holds n queue) : r.capacity = (n - 1 : ℕ) := by
  have hlength := h.length_lt
  rcases h with ⟨R, hat, -⟩
  rw [RingBuffer.capacity, hat.storage]
  omega

lemma Holds.availableRead (h : r.Holds n queue) : r.availableRead = queue.length := by
  rcases h with ⟨R, hat, -⟩
  rw [RingBuffer.availableRead, hat.read, hat.write,
    availableReadInternal_turns hat.storage hat.le hat.lt]
  omega

lemma Holds.availableWrite (h : r.Holds n queue) :
    r.availableWrite = (n - 1 - queue.length : ℕ) := by
  have hlength := h.length_lt
  rcases h with ⟨R, hat, -⟩
  rw [RingBuffer.availableWrite, hat.read, hat.write,
    availableWriteInternal_turns hat.storage hat.le hat.lt]
  omega

/-- **`enqueue` on its own** puts in as much as fits, and says how much that is.  In a full buffer
it is nothing. -/
theorem Holds.enqueue [Inhabited T] (h : r.Holds n queue) (call : EnqueueCall T) :
    (r.enqueue call.elements call.count).1 = (min (n - 1 - queue.length) call.count : ℕ)
      ∧ (r.enqueue call.elements call.count).2.Holds n
          (queue ++ call.values.take (min (n - 1 - queue.length) call.count)) := by
  have hroom : r.availableWriteInternal r.readIndex r.writeIndex = _ := h.availableWrite
  rcases h with ⟨R, hat, hqueue⟩
  have hlt := hat.lt
  have hmin : min ((n - 1 - queue.length : ℕ) : ℤ) call.count
      = (min (n - 1 - queue.length) call.count : ℕ) := by omega
  by_cases hfull : r.fullInternal r.readIndex r.writeIndex = true
  · have hnone : n - 1 - queue.length = 0 := by
      rw [hat.read, hat.write, fullInternal_turns hat.storage hat.le hat.lt] at hfull
      omega
    simp only [RingBuffer.enqueue, if_pos hfull, hnone]
    refine ⟨by simp, R, ?_, ?_⟩ <;> simpa
  · simp only [RingBuffer.enqueue, if_neg hfull, hroom, hmin]
    set k := min (n - 1 - queue.length) call.count
    have hvalues := call.count_le
    have hlength : (queue ++ call.values.take k).length = queue.length + k := by
      simp
      omega
    refine ⟨trivial, R, ?_, ?_⟩
    · rw [hlength]
      refine ⟨hat.storage, hat.read, ?_, by omega, by omega⟩
      show r.incrementIndex r.writeIndex k = _
      rw [hat.write, incrementIndex_turn hat.storage, Nat.add_assoc]
    · show window (List.foldl write r.data _) n R _ = _
      have hwritten :
          window (((slots n (R + queue.length) k).zip call.values).foldl write r.data) n R
          (R + queue.length + k - R)
            = window r.data n R (R + queue.length - R) ++ call.values.take k :=
        window_foldl_write (by omega) (by omega) (by omega)
      rw [Nat.add_assoc, Nat.add_sub_cancel_left, Nat.add_sub_cancel_left, hqueue] at hwritten
      rw [hat.write, enqueueCopies_turns hat.storage (by omega) (by omega) call
        (show k ≤ call.count by omega), hlength, hwritten]

/-- **`dequeue` on its own** takes out as much as there is, and delivers it if the pointer is not
null. -/
theorem Holds.dequeue (h : r.Holds n queue) (wanted : Bool) (count : ℕ) :
    (r.dequeue wanted count).1 = (min queue.length count : ℕ)
      ∧ (r.dequeue wanted count).2.1 = (if wanted then queue.take count else [])
      ∧ (r.dequeue wanted count).2.2.Holds n (queue.drop count) := by
  have hthere : r.availableReadInternal r.readIndex r.writeIndex = _ := h.availableRead
  rcases h with ⟨R, hat, hqueue⟩
  have hlt := hat.lt
  have hmin : min (queue.length : ℤ) count = (min queue.length count : ℕ) := by omega
  by_cases hempty : r.emptyInternal r.readIndex r.writeIndex = true
  · have hnil : queue = [] := by
      rw [hat.read, hat.write, emptyInternal_turns hat.le hat.lt] at hempty
      exact List.length_eq_zero_iff.1 (by omega)
    subst hnil
    simp only [RingBuffer.dequeue, if_pos hempty]
    exact ⟨by simp, by simp, R, by simpa using hat, by simp⟩
  · simp only [RingBuffer.dequeue, if_neg hempty, hthere, hmin]
    set k := min queue.length count
    have hrest : (queue.drop count).length = queue.length - k := by
      simp
      omega
    refine ⟨trivial, ?_, R + k, ?_, ?_⟩
    · rw [hat.read, dequeueCopies_turns hat.storage (by omega) (by omega)]
      cases wanted with
      | false => rfl
      | true =>
          show window r.data n R k = _
          rw [window_eq_of_eq hqueue (by omega), if_pos rfl]
          simp [k, List.take_eq_take_iff, Nat.min_comm]
    · refine ⟨hat.storage, ?_, ?_, by omega, by omega⟩
      · show r.incrementIndex r.readIndex k = _
        rw [hat.read, incrementIndex_turn hat.storage]
      · rw [hrest]
        show r.writeIndex = _
        rw [hat.write]
        congr 2
        omega
    · rw [hrest]
      show window r.data n (R + k) (queue.length - k) = _
      rw [window_drop hqueue (by omega)]
      simp [k, List.drop_eq_drop_iff, Nat.min_comm]

end Sequential

end RingBuffer

end MinSeq
