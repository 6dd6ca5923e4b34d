import MinSeq.Core.Cyclic
import MinSeq.Core.Runs

/-!
# The array queue

`extlibs/cubeb/src/cubeb_array_queue.h`: a queue of pointers in an array that is used cyclically.  A
cell is empty when it holds the null pointer, and that alone tells a full queue from an empty one:
the two positions are equal in both.  Every function holds the queue's mutex while it runs, so
whatever the threads do is one sequence of calls.

A position is a number here; an array of pointers has fewer cells than a `size_t` has values.  The
source asserts that the array has a cell, and that no null pointer is pushed, which would leave a
cell empty and yet counted.

**A full queue has size 0.**  `array_queue_get_size` goes by the positions alone, and where they are
equal it takes the queue for an empty one.  Nothing in the library decides anything by that size, so
the specification below says it as it is.

* **`outputs_eq_boundedQueue`** — over every sequence of calls the array answers as a queue with
  room for `num` pointers does, except that a full one has size 0.
-/

namespace MinSeq

open Cyclic Memory Runs

variable {P : Type}

/-- **The queue**: the array, the number of its cells, and the two positions, which wrap. -/
structure ArrayQueue (P : Type) where
  /-- The null pointer is `none`. -/
  buf : Mem (Option P)
  num : ℕ
  writePos : ℕ
  readPos : ℕ

namespace ArrayQueue

/-- `array_queue_create`: every cell is empty. -/
def create (num : ℕ) : ArrayQueue P where
  buf := fun _ => none
  num := num
  writePos := 0
  readPos := 0

/-- **`array_queue_push`**, which returns -1 and changes nothing where the cell at the write
position is taken.  The item is asserted not to be null. -/
def push (aq : ArrayQueue P) (item : P) : ℤ × ArrayQueue P :=
  if aq.buf (aq.writePos % aq.num) = none then
    (0, { aq with
      buf := Function.update aq.buf (aq.writePos % aq.num) (some item)
      writePos := (aq.writePos + 1) % aq.num })
  else (-1, aq)

/-- **`array_queue_pop`**: the pointer at the read position, whose cell is empty then.  An empty
queue answers the null pointer. -/
def pop (aq : ArrayQueue P) : Option P × ArrayQueue P :=
  let value := aq.buf (aq.readPos % aq.num)
  if value ≠ none then
    (value, { aq with
      buf := Function.update aq.buf (aq.readPos % aq.num) none
      readPos := (aq.readPos + 1) % aq.num })
  else (value, aq)

/-- **`array_queue_get_size`.**  The source asserts that the difference is not negative once `num`
was added.  It never is: both positions are smaller than `num`, so their difference is greater than
`-num`.  So `toNat`, which would turn a negative number into zero, changes nothing. -/
def getSize (aq : ArrayQueue P) : ℕ :=
  let r : ℤ := aq.writePos - aq.readPos
  let r := if r < 0 then aq.num + r else r
  r.toNat

end ArrayQueue

/-! ## Calls

The three functions as a machine, and what it is to be compared with.
-/

/-- **A call**, by any thread. -/
inductive ArrayQueueCall (P : Type) where
  | push (item : P)
  | pop
  | getSize

/-- **What a call returns**: a status, a pointer, or a size. -/
inductive ArrayQueueAnswer (P : Type) where
  | status (r : ℤ)
  | value (item : Option P)
  | size (n : ℕ)
deriving DecidableEq

def ArrayQueue.step (aq : ArrayQueue P) : ArrayQueueCall P → ArrayQueueAnswer P × ArrayQueue P
  | .push item => ((aq.push item).1 |> .status, (aq.push item).2)
  | .pop => (.value aq.pop.1, aq.pop.2)
  | .getSize => (.size aq.getSize, aq)

/-- **A queue with room for `num` pointers**, as a list without positions.  A pointer that finds no
room is turned away, and the size is that of the list unless the queue is full. -/
def BoundedQueue.step (num : ℕ) (queue : List P) :
    ArrayQueueCall P → ArrayQueueAnswer P × List P
  | .push item =>
      if queue.length < num then (.status 0, queue ++ [item]) else (.status (-1), queue)
  | .pop => (.value queue.head?, queue.tail)
  | .getSize => (.size (if queue.length = num then 0 else queue.length), queue)

namespace ArrayQueue

/-- **The cells from the read position on** hold the queue, and then nothing.  The write position is
where the queue ends, so a full queue ends where it begins. -/
structure Holds (aq : ArrayQueue P) (num : ℕ) (queue : List P) : Prop where
  num_eq : aq.num = num
  readPos_lt : aq.readPos < num
  writePos_eq : aq.writePos = (aq.readPos + queue.length) % num
  length_le : queue.length ≤ num
  cells : window aq.buf num aq.readPos num
    = queue.map some ++ List.replicate (num - queue.length) none

variable {aq : ArrayQueue P} {num : ℕ} {queue : List P}

lemma holds_create (hnum : 0 < num) : (create num : ArrayQueue P).Holds num [] := by
  refine ⟨rfl, hnum, (Nat.zero_mod num).symm, Nat.zero_le num, ?_⟩
  refine List.eq_replicate_iff.2 ⟨length_window, ?_⟩
  intro cell hcell
  rcases List.mem_map.1 hcell with ⟨a, -, rfl⟩
  rfl

/-- The cell at the read position holds the first pointer, or none if there is none. -/
lemma Holds.buf_readPos (h : aq.Holds num queue) :
    aq.buf (aq.readPos % aq.num) = queue.head? := by
  have hnum : 0 < num := Nat.zero_lt_of_lt h.readPos_lt
  have hcell := getElem?_window (m := aq.buf) (n := num) (i := aq.readPos) hnum
  rw [h.num_eq]
  rw [h.cells, Nat.add_zero] at hcell
  cases queue with
  | nil =>
      rw [List.map_nil, List.nil_append, List.getElem?_replicate,
        if_pos (by simpa using hnum)] at hcell
      exact (Option.some.inj hcell).symm
  | cons x rest => exact (Option.some.inj hcell).symm

/-- The cell behind the queue, or its first one if it is full. -/
lemma Holds.buf_writePos (h : aq.Holds num queue) :
    aq.buf (aq.writePos % aq.num) = if queue.length < num then none else queue.head? := by
  rw [h.num_eq, h.writePos_eq, Nat.mod_mod]
  split_ifs with hroom
  · have hcell := getElem?_window (m := aq.buf) (n := num) (i := aq.readPos) hroom
    rw [h.cells, List.getElem?_append_right (by simp), List.length_map, Nat.sub_self,
      List.getElem?_replicate, if_pos (by omega)] at hcell
    exact (Option.some.inj hcell).symm
  · have hfull : queue.length = num := Nat.le_antisymm h.length_le (Nat.not_lt.1 hroom)
    have hfirst := h.buf_readPos
    rw [h.num_eq] at hfirst
    rw [hfull, Nat.add_mod_right, hfirst]

/-- The cells of the queue, read in order, are the queue. -/
lemma Holds.window_queue (h : aq.Holds num queue) :
    window aq.buf num aq.readPos queue.length = queue.map some := by
  have htake := window_eq_of_eq h.cells h.length_le
  rwa [List.take_left' (List.length_map _)] at htake

/-- Behind them there is nothing. -/
lemma Holds.window_behind (h : aq.Holds num queue) {k : ℕ} (hlo : queue.length ≤ k) (hk : k ≤ num) :
    window aq.buf num (aq.readPos + k) (num - k) = List.replicate (num - k) none := by
  have hdrop := window_drop h.cells hk
  have hcount : num - queue.length - (k - queue.length) = num - k := by omega
  rwa [List.drop_append, List.drop_of_length_le (by rwa [List.length_map]), List.nil_append,
    List.length_map, List.drop_replicate, hcount] at hdrop

/-- A cell written behind the queue makes it longer. -/
lemma Holds.window_write (h : aq.Holds num queue) (hroom : queue.length < num) (item : P) :
    window (Function.update aq.buf ((aq.readPos + queue.length) % num) (some item)) num
        aq.readPos num
      = (queue ++ [item]).map some ++ List.replicate (num - (queue.length + 1)) none := by
  have hsplit : num = queue.length + 1 + (num - (queue.length + 1)) := by omega
  have hapart : ∀ a ∈ slots num (aq.readPos + (queue.length + 1)) (num - (queue.length + 1)),
      a ≠ (aq.readPos + queue.length) % num := by
    rintro a ha rfl
    exact disjoint_slots (k := 1) (i := aq.readPos + queue.length) (by omega) (by omega) _
      (List.mem_singleton.2 rfl) ha
  calc window (Function.update aq.buf ((aq.readPos + queue.length) % num) (some item)) num
        aq.readPos num
      = window (Function.update aq.buf ((aq.readPos + queue.length) % num) (some item)) num
            aq.readPos (queue.length + 1)
          ++ window (Function.update aq.buf ((aq.readPos + queue.length) % num) (some item)) num
            (aq.readPos + (queue.length + 1)) (num - (queue.length + 1)) := by
        rw [← window_add, ← hsplit]
    _ = (queue.map some ++ [some item]) ++ List.replicate (num - (queue.length + 1)) none := by
        rw [window_update_next hroom, h.window_queue,
          window_congr fun a ha => Function.update_of_ne (hapart a ha) _ _,
          h.window_behind (Nat.le_succ _) hroom]
    _ = _ := by rw [List.map_append, List.map_singleton]

/-- **`push` puts a pointer behind the others**, if there is room.  A full queue has its own first
pointer at the write position, so that the cell is not empty. -/
lemma Holds.push (h : aq.Holds num queue) (item : P) :
    (aq.push item).1 = (if queue.length < num then 0 else -1) ∧
      (aq.push item).2.Holds num (if queue.length < num then queue ++ [item] else queue) := by
  have hcell := h.buf_writePos
  rw [ArrayQueue.push, hcell]
  by_cases hroom : queue.length < num
  · rw [if_pos hroom, if_pos rfl, if_pos hroom, if_pos hroom]
    have hlength : (queue ++ [item]).length = queue.length + 1 := by
      rw [List.length_append, List.length_singleton]
    refine ⟨rfl, h.num_eq, h.readPos_lt, ?_, ?_, ?_⟩
    · show (aq.writePos + 1) % aq.num = (aq.readPos + (queue ++ [item]).length) % num
      rw [h.writePos_eq, h.num_eq, Nat.mod_add_mod, hlength, Nat.add_assoc]
    · rw [hlength]
      exact hroom
    · show window (Function.update aq.buf (aq.writePos % aq.num) (some item)) num aq.readPos num = _
      rw [h.num_eq, h.writePos_eq, Nat.mod_mod, hlength]
      exact h.window_write hroom item
  · have hne : queue.head? ≠ none := by
      have hnum : 0 < num := Nat.zero_lt_of_lt h.readPos_lt
      rw [Ne, List.head?_eq_none_iff]
      rintro rfl
      exact hroom hnum
    rw [if_neg hroom, if_neg hne, if_neg hroom, if_neg hroom]
    exact ⟨rfl, h⟩

/-- **`pop` takes the first pointer out.**  The cell that is emptied becomes the last one of the
window, since the window starts one cell later then. -/
lemma Holds.pop (h : aq.Holds num queue) :
    aq.pop.1 = queue.head? ∧ aq.pop.2.Holds num queue.tail := by
  have hvalue := h.buf_readPos
  rw [ArrayQueue.pop]
  simp only [hvalue]
  cases queue with
  | nil => exact ⟨rfl, h⟩
  | cons x rest =>
      have hlt := h.readPos_lt
      have hle := h.length_le
      rw [List.length_cons] at hle
      refine ⟨rfl, h.num_eq, ?_, ?_, ?_, ?_⟩
      · show (aq.readPos + 1) % aq.num < num
        rw [h.num_eq]
        exact Nat.mod_lt _ (by omega)
      · show aq.writePos = ((aq.readPos + 1) % aq.num + rest.length) % num
        rw [h.writePos_eq, h.num_eq, Nat.mod_add_mod, List.length_cons]
        congr 1
        omega
      · show rest.length ≤ num
        omega
      · show window (Function.update aq.buf (aq.readPos % aq.num) none) num
            ((aq.readPos + 1) % aq.num) num
              = rest.map some ++ List.replicate (num - rest.length) none
        have hlast : aq.readPos % num = (aq.readPos + 1 + (num - 1)) % num := by
          rw [show aq.readPos + 1 + (num - 1) = aq.readPos + num by omega, Nat.add_mod_right]
        have hrest : window aq.buf num (aq.readPos + 1) (num - 1)
            = rest.map some ++ List.replicate (num - (rest.length + 1)) none :=
          window_drop h.cells (by omega)
        have hnext := window_update_next (m := aq.buf) (i := aq.readPos + 1) (x := none)
          (show num - 1 < num by omega)
        rw [Nat.sub_add_cancel (by omega), hrest] at hnext
        rw [h.num_eq, window_mod, hlast, hnext, List.append_assoc, ← List.replicate_succ',
          show num - (rest.length + 1) + 1 = num - rest.length by omega]

/-- The size is the number of pointers, but for a full queue.  The two cases are whether the queue
goes over the end of the array or not. -/
lemma Holds.getSize (h : aq.Holds num queue) :
    aq.getSize = if queue.length = num then 0 else queue.length := by
  have hlt := h.readPos_lt
  have hle := h.length_le
  have hwrite := h.writePos_eq
  have hnum := h.num_eq
  rw [ArrayQueue.getSize]
  rcases Nat.lt_or_ge (aq.readPos + queue.length) num with hshort | hwrap
  · rw [Nat.mod_eq_of_lt hshort] at hwrite
    split_ifs <;> omega
  · have hmod : (aq.readPos + queue.length) % num = aq.readPos + queue.length - num := by
      rw [Nat.mod_eq_sub_mod hwrap, Nat.mod_eq_of_lt (by omega)]
    rw [hmod] at hwrite
    split_ifs <;> omega

/-- **In step with the queue**, over every sequence of calls. -/
theorem outputs_eq_boundedQueue (hnum : 0 < num) (calls : List (ArrayQueueCall P)) :
    outputs ArrayQueue.step (create num) calls = outputs (BoundedQueue.step num) [] calls := by
  have hstep : ∀ (aq : ArrayQueue P) queue call, aq.Holds num queue →
      (aq.step call).1 = id (BoundedQueue.step num queue call).1 ∧
        (aq.step call).2.Holds num (BoundedQueue.step num queue call).2 := by
    intro aq queue call h
    cases call with
    | push item =>
        rcases h.push item with ⟨hstatus, hholds⟩
        simp only [ArrayQueue.step, BoundedQueue.step, id]
        split_ifs at hstatus hholds ⊢ <;> exact ⟨congrArg _ hstatus, hholds⟩
    | pop =>
        rcases h.pop with ⟨hvalue, hholds⟩
        exact ⟨congrArg _ hvalue, hholds⟩
    | getSize => exact ⟨congrArg _ h.getSize, h⟩
  rw [outputs_of_simulation id hstep (holds_create hnum) calls, List.map_id]

/-- One cell: a full queue has size 0, and turns the second pointer away. -/
theorem outputs_eq_boundedQueue_one :
    outputs ArrayQueue.step (create 1) [.push 'a', .getSize, .push 'b', .pop, .pop]
      = [.status 0, .size 0, .status (-1), .value (some 'a'), .value none] :=
  (outputs_eq_boundedQueue (by decide) _).trans rfl

end ArrayQueue

end MinSeq
