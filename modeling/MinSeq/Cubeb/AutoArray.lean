import MinSeq.Core.Memory

/-!
# The growing array

`auto_array` of `extlibs/cubeb/src/cubeb_utils.h`: storage that is made anew when it gets too small,
and the number of elements in it.  New storage holds whatever it holds, which is an argument here,
so that nothing proved below depends on it.  There is none before something is pushed, and copying
to or from none is an assertion that fails; `none` is that failure.

**Storage and elements.**  A capacity of zero does not mean that there is no storage, and the other
way round: `reserve(0)` makes storage of no element.  So both are members here, as they are in the
source, and the lemmas ask for storage where the source asserts it.

`Holds` says which list the array stands for, and the lemmas about it what each function does to the
list.  A caller that pushes at least one element never meets the assertion, since an array without
storage has no room for it and makes some first.
-/

namespace MinSeq

open Memory

variable {T : Type}

/-- **The array**: its storage, if there is any, how much of it there is, and how much of that is in
use. -/
structure AutoArray (T : Type) where
  data : Option (Mem T)
  capacity : ℕ
  length : ℕ

namespace AutoArray

/-- The constructor without an argument. -/
def new : AutoArray T := ⟨none, 0, 0⟩

/-- Keeps the storage, and forgets the elements.  The capacity stays as it is. -/
def clear (a : AutoArray T) : AutoArray T := { a with length := 0 }

/-- **New storage** with the elements copied to it, unless there are too many of them. -/
def reserve (a : AutoArray T) (newCapacity : ℕ) (newData : Mem T) : Bool × AutoArray T :=
  if newCapacity < a.length then (false, a)
  else
    let newData :=
      match a.data with
      | some data => if a.length ≠ 0 then store newData 0 (load data 0 a.length) else newData
      | none => newData
    (true, { a with capacity := newCapacity, data := some newData })

/-- **`push`**: more storage if there is too little, and then the copy.  With nothing to push there
may still be no storage to copy to. -/
def push (a : AutoArray T) (elements : List T) (newData : Mem T) : Option (AutoArray T) :=
  let a :=
    if a.length + elements.length > a.capacity then
      (a.reserve (a.length + elements.length) newData).2
    else a
  a.data.map fun data =>
    { a with
      data := some (store data a.length elements)
      length := a.length + elements.length }

/-- **`push_silence`** differs from `push` in where the elements come from. -/
def pushSilence [Inhabited T] (a : AutoArray T) (length : ℕ) (newData : Mem T) :
    Option (AutoArray T) :=
  a.push (List.replicate length default) newData

/-- **`pop`** copies the first elements out and moves the others to the front; it does nothing if
there are too few.  `elements` says whether there is a buffer to copy to. -/
def pop (a : AutoArray T) (elements : Bool) (length : ℕ) : Option (Bool × List T × AutoArray T) :=
  if length > a.length then some (false, [], a)
  else
    a.data.map fun data =>
      (true, if elements then load data 0 length else [],
        { a with
          data := some (store data 0 (load data length (a.length - length)))
          length := a.length - length })

/-- **`set_length`**, for elements that were written in place.  The length must not be beyond the
storage, which is asserted. -/
def setLength (a : AutoArray T) (length : ℕ) : Option (AutoArray T) :=
  if length ≤ a.capacity then some { a with length := length } else none

/-! ## As a list

The functions as operations on lists: `push` appends, `pop` cuts off the front, `clear` empties.
-/

/-- **The array stands for a list**: as many elements, room for them, and the elements themselves
where there is storage.  Without storage there is no room either. -/
structure Holds (a : AutoArray T) (xs : List T) : Prop where
  length_eq : a.length = xs.length
  length_le : a.length ≤ a.capacity
  null : a.data = none → a.capacity = 0
  cells : ∀ data ∈ a.data, load data 0 xs.length = xs

variable {a : AutoArray T} {xs : List T}

lemma holds_new : (new : AutoArray T).Holds [] :=
  ⟨rfl, le_rfl, fun _ => rfl, fun _ _ => rfl⟩

/-- A cleared array stands for the empty list, with the storage it had. -/
lemma Holds.clear (h : a.Holds xs) : a.clear.Holds [] :=
  ⟨rfl, Nat.zero_le _, h.null, fun _ _ => rfl⟩

/-- There is storage for what is there, as an array without storage has room for nothing. -/
lemma Holds.exists_data (h : a.Holds xs) (hne : xs ≠ []) : ∃ data, a.data = some data := by
  have hlength := h.length_eq
  have hle := h.length_le
  have hpos := List.length_pos_iff.2 hne
  cases hdata : a.data with
  | none =>
      have hcapacity := h.null hdata
      omega
  | some data => exact ⟨data, rfl⟩

/-- The first cells hold the first elements, which is what a caller reads that goes by the
pointer. -/
lemma Holds.load_eq_take (h : a.Holds xs) {data : Mem T} (hdata : a.data = some data) {n : ℕ}
    (hn : n ≤ xs.length) : load data 0 n = xs.take n := by
  have hcells := h.cells data hdata
  have hsplit : xs.length = n + (xs.length - n) := by omega
  rw [hsplit, load_add] at hcells
  rw [← hcells, List.take_left' (by simp)]

/-- **New storage** that is large enough holds the same list.  It is there then, even if it has room
for nothing. -/
lemma Holds.reserve (h : a.Holds xs) {newCapacity : ℕ} (hle : xs.length ≤ newCapacity)
    (newData : Mem T) :
    (a.reserve newCapacity newData).2.Holds xs ∧
      (a.reserve newCapacity newData).2.capacity = newCapacity ∧
      ∃ data, (a.reserve newCapacity newData).2.data = some data := by
  have hlength := h.length_eq
  rw [AutoArray.reserve, if_neg (by omega)]
  refine ⟨⟨hlength, by show a.length ≤ newCapacity; omega, by simp, ?_⟩, rfl, _, rfl⟩
  intro data hdata
  cases hold : a.data with
  | none =>
      have hempty : xs = [] := by
        by_contra hne
        obtain ⟨data, hsome⟩ := h.exists_data hne
        rw [hold] at hsome
        cases hsome
      rw [hempty]
      rfl
  | some old =>
      have hcells := h.cells old hold
      simp only [hold, Option.mem_some_iff] at hdata
      subst hdata
      split_ifs with hzero
      · rw [hlength, hcells]
        exact load_store_same xs
      · rw [List.length_eq_zero_iff.1 (by omega : xs.length = 0)]
        rfl

/-- What is written behind the elements, once it is counted. -/
lemma Holds.append (h : a.Holds xs) {data : Mem T} (hdata : a.data = some data) {elements : List T}
    (hroom : xs.length + elements.length ≤ a.capacity) :
    ({ a with
      data := some (store data a.length elements)
      length := a.length + elements.length } : AutoArray T).Holds (xs ++ elements) := by
  have hlength := h.length_eq
  have hcells := h.cells data hdata
  refine ⟨?_, ?_, by simp, ?_⟩
  · show a.length + elements.length = _
    rw [List.length_append, hlength]
  · show a.length + elements.length ≤ a.capacity
    omega
  · intro stored hstored
    obtain rfl : store data a.length elements = stored := by simpa using hstored
    rw [List.length_append, load_add, hlength, Nat.zero_add, load_store_same,
      load_store_apart (by unfold Apart; omega), hcells]

/-- What is written behind the elements, and is not counted. -/
lemma Holds.behind (h : a.Holds xs) {data : Mem T} (hdata : a.data = some data)
    (elements : List T) :
    ({ a with data := some (store data a.length elements) } : AutoArray T).Holds xs := by
  have hlength := h.length_eq
  refine ⟨hlength, h.length_le, by simp, ?_⟩
  intro stored hstored
  obtain rfl : store data a.length elements = stored := by simpa using hstored
  rw [load_store_apart (by unfold Apart; omega), h.cells data hdata]

/-- **`push` appends**, unless there is neither an element to push nor storage to push it to. -/
lemma Holds.push (h : a.Holds xs) {elements : List T}
    (hstorage : elements ≠ [] ∨ ∃ data, a.data = some data) (newData : Mem T) :
    ∃ a', a.push elements newData = some a' ∧ a'.Holds (xs ++ elements) ∧
      ∃ data, a'.data = some data := by
  have hlength := h.length_eq
  obtain ⟨b, hb, hholds, hroom, data, hdata⟩ : ∃ b,
      (if a.length + elements.length > a.capacity then
        (a.reserve (a.length + elements.length) newData).2 else a) = b ∧ b.Holds xs ∧
      xs.length + elements.length ≤ b.capacity ∧ ∃ data, b.data = some data := by
    split_ifs with hgrow
    · have hle : xs.length ≤ a.length + elements.length := by omega
      obtain ⟨hholds, hcapacity, hdata⟩ := h.reserve hle newData
      exact ⟨_, rfl, hholds, by omega, hdata⟩
    · refine ⟨a, rfl, h, by omega, ?_⟩
      rcases hstorage with hne | hdata
      · -- no room is needed only where there is storage
        have hpos := List.length_pos_iff.2 hne
        cases hdata : a.data with
        | none =>
            have hcapacity := h.null hdata
            omega
        | some data => exact ⟨data, rfl⟩
      · exact hdata
  simp only [AutoArray.push, hb, hdata, Option.map_some]
  exact ⟨_, rfl, hholds.append hdata hroom, _, rfl⟩

/-- **`pop` cuts off the front** and answers it, if there is a buffer for it and there are as many
elements. -/
lemma Holds.pop (h : a.Holds xs) (hstorage : ∃ data, a.data = some data) {n : ℕ}
    (hn : n ≤ xs.length)
    (elements : Bool) :
    ∃ a', a.pop elements n = some (true, if elements then xs.take n else [], a') ∧
      a'.Holds (xs.drop n) ∧ ∃ data, a'.data = some data := by
  have hlength := h.length_eq
  have hle := h.length_le
  obtain ⟨data, hdata⟩ := hstorage
  have htake := h.load_eq_take hdata hn
  have hcells := h.cells data hdata
  have hsplit : xs.length = n + (xs.length - n) := by omega
  rw [hsplit, load_add, Nat.zero_add] at hcells
  have hdrop : load data n (xs.length - n) = xs.drop n := by
    conv_rhs => rw [← hcells, List.drop_left' (by simp)]
  rw [AutoArray.pop, if_neg (by omega), hdata, Option.map_some, htake, hlength, hdrop]
  refine ⟨_, rfl, ⟨?_, ?_, by simp, ?_⟩, _, rfl⟩
  · rw [List.length_drop]
  · show xs.length - n ≤ a.capacity
    omega
  · intro stored hstored
    obtain rfl : store data 0 (xs.drop n) = stored := by simpa using hstored
    exact load_store_same _

end AutoArray

end MinSeq
