import Mathlib.Data.Finset.Card
import Mathlib.Data.List.Nodup
import Mathlib.Data.List.ReduceOption
import MinSeq.Core.Memory
import MinSeq.Core.Runs

/-!
# Interned strings

`extlibs/cubeb/src/cubeb_strings.c`: a storage that answers every string with a copy of its own, the
same one each time, so that the backends may hand out device ids as plain pointers and never free
them.  The copies lie in blocks from `strdup`; an array of pointers to them starts inside the record
and moves to the heap when it is full.

**Allocations.**  Every one of them may fail.  A call carries what the two it can make come to:
whether there is memory for a larger array, and the block that `strdup` answers.  A copy that failed
leaves a null pointer in the array, which counts, and which the lookup passes over.  The next
request for the same string makes another attempt.

**Blocks.**  A block is a number, and the heap says what text is in it.  The only thing assumed of
`strdup` is that it answers no block twice, which holds of an allocator while nothing is freed, and
nothing is before the storage is destroyed.

**Numbers.**  The size and the count are `uint32_t`, and the size doubles.  The test for an overflow
divides where the doubled size would not fit in bytes, which leaves room for 2²⁸ pointers.

* **`interned_eq_iff`** — over every run two answers are the same pointer exactly when the strings
  were equal, and each still points to its string at the end.
* **`count_freed`** — `cubeb_strings_destroy` frees each pointer that was ever answered once,
  nothing else.
* **`requests_answered`** — while allocations succeed, only storing more than 2²⁸ strings can fail.

**How the proofs go.**  `Fits` keeps the array and its two numbers in step, whatever the strings
are.  `Holds` adds the strings: the texts in the array are all different, they are the ones that
were answered, and the answers still point to them.  A call that answers an old string leaves the
storage alone, and one that stores a new string changes the heap only in a block that is not in the
array yet.  All three results are read off this invariant at the end of a run.
-/

namespace MinSeq

open Memory Runs

/-- **The bytes of a C string**, without the one that ends it.  Two strings are equal if `strcmp`
finds no difference, which is when their bytes are the same. -/
abbrev Text := List UInt8

/-- **The storage**: the array of pointers, whether it is the one inside the record, its size, and
how many of its pointers are in use. -/
structure CubebStrings where
  size : UInt32
  count : UInt32
  /-- The array of `size` pointers; null is `none`. -/
  data : List (Option ℕ)
  /-- The array is `small_store`. -/
  small : Bool

/-- **What a destroyed storage gives back**: the block of a string, the array on the heap, or the
record itself. -/
inductive Freed where
  | block (is : ℕ)
  | data
  | strings
deriving DecidableEq

namespace CubebStrings

/-- `CUBEB_STRINGS_INLINE_COUNT`, the size of the array inside the record. -/
def inlineCount : ℕ := 4

/-- The size of a pointer, on a machine of 64 bits. -/
def valueSize : UInt32 := 8

/-- **`cubeb_strings_init`**: the record with its own array, and every pointer null. -/
def init : CubebStrings where
  size := UInt32.ofNat inlineCount
  count := 0
  data := List.replicate inlineCount none
  small := true

/-- The pointers in use, with those of copies that have failed. -/
def used (strs : CubebStrings) : List (Option ℕ) := strs.data.take strs.count.toNat

/-- **`cubeb_strings_destroy`**: the strings that are not null, the array if it is on the heap, and
the record. -/
def destroy (strs : CubebStrings) : List Freed :=
  strs.used.filterMap (Option.map .block) ++ (if strs.small then [] else [.data]) ++ [.strings]

/-- **The loop of `cubeb_strings_lookup`**: the first pointer whose text is the one asked for.  Null
pointers are passed over. -/
def lookupLoop (heap : Mem Text) (s : Text) : List (Option ℕ) → Option ℕ
  | [] => none
  | none :: rest => lookupLoop heap s rest
  | some is :: rest => if heap is = s then some is else lookupLoop heap s rest

/-- `cubeb_strings_lookup` goes through the pointers in use, from the first to the last. -/
def lookup (strs : CubebStrings) (heap : Mem Text) (s : Text) : Option ℕ :=
  lookupLoop heap s strs.used

/-- **The first part of `cubeb_strings_push`**, which fails if there is no room.  The two ways in
which the source gets a larger array, by `malloc` and a copy and by `realloc`, leave the same
pointers in it; what lies behind them is not read before it is written. -/
def makeRoom (strs : CubebStrings) (enough : Bool) : Option CubebStrings :=
  if strs.count = strs.size then
    let newSize := strs.size * 2
    if newSize = 0 ∨ valueSize > 0xFFFFFFFF / newSize then none
    else if enough then
      some { strs with
        size := newSize
        data := strs.data ++ List.replicate (newSize.toNat - strs.size.toNat) none
        small := false }
    else none
  else some strs

/-- **The second part**: the copy is stored, whether `strdup` succeeded or not. -/
def store (strs : CubebStrings) (is : Option ℕ) : CubebStrings :=
  { strs with
    data := strs.data.set strs.count.toNat is
    count := strs.count + 1 }

end CubebStrings

/-- A call of `cubeb_strings_intern`; the null pointer is `none`. -/
structure InternCall where
  s : Option Text
  /-- There is memory for a larger array. -/
  enough : Bool
  /-- The block that `strdup` answers, if it is called. -/
  copy : Option ℕ

/-- `strdup` fills the block that it answers, and changes no other. -/
def strdup (heap : Mem Text) (s : Text) (copy : Option ℕ) : Mem Text :=
  copy.elim heap fun is => Function.update heap is s

namespace CubebStrings

/-- **`cubeb_strings_push`**, which answers the copy.  The caller cannot tell a failed copy from an
array without room; the storage has counted the one and not the other. -/
def push (strs : CubebStrings) (heap : Mem Text) (s : Text) (call : InternCall) :
    Option ℕ × CubebStrings × Mem Text :=
  match strs.makeRoom call.enough with
  | none => (none, strs, heap)
  | some strs => (call.copy, strs.store call.copy, strdup heap s call.copy)

/-- **`cubeb_strings_intern`**: the pointer that is there already, or a new one. -/
def intern (strs : CubebStrings) (heap : Mem Text) (call : InternCall) :
    Option ℕ × CubebStrings × Mem Text :=
  match call.s with
  | none => (none, strs, heap)
  | some s =>
      match strs.lookup heap s with
      | some is => (some is, strs, heap)
      | none => strs.push heap s call

end CubebStrings

/-! ## Runs

The storage is made once, and then asked any number of times.  A run is a list of calls, each of
which brings along what the allocator will answer.
-/

/-- **The state of a run**: the storage, the texts of the blocks, and the answers so far. -/
structure Interning where
  strings : CubebStrings
  heap : Mem Text
  answers : List (Option Text × Option ℕ)

namespace Interning

def start : Interning := ⟨.init, fun _ => [], []⟩

def step (r : Interning) (call : InternCall) : Interning :=
  let answer := r.strings.intern r.heap call
  ⟨answer.2.1, answer.2.2, r.answers ++ [(call.s, answer.1)]⟩

end Interning

/-! ## The array

What the functions do to the array, apart from what the strings are.  Growing it keeps every
pointer, whether it moves from the record to the heap or on the heap, and the overflow test keeps
its size in range.
-/

namespace CubebStrings

/-- **The strings in the array**, without the null pointers among them. -/
def blocks (strs : CubebStrings) : List ℕ := strs.used.reduceOption

variable {strs strs' : CubebStrings} {heap : Mem Text} {s : Text} {enough : Bool}

/-- They are the pointers in use that are not null. -/
lemma mem_blocks {is : ℕ} : is ∈ strs.blocks ↔ some is ∈ strs.used := by
  rw [blocks, List.reduceOption_mem_iff]

/-- **The array is as long as its size says**, and the size fits in its type even in bytes, so that
no computation with it wraps. -/
structure Fits (strs : CubebStrings) : Prop where
  length_data : strs.data.length = strs.size.toNat
  size_pos : 0 < strs.size.toNat
  size_lt : strs.size.toNat < 2 ^ 29
  count_le : strs.count.toNat ≤ strs.size.toNat

lemma fits_init : init.Fits := ⟨rfl, by decide, by decide, by decide⟩

/-- What the loop answers is in the array, and has the text. -/
lemma lookupLoop_eq_some {pointers : List (Option ℕ)} {is : ℕ}
    (h : lookupLoop heap s pointers = some is) : some is ∈ pointers ∧ heap is = s := by
  induction pointers with
  | nil => cases h
  | cons sp rest ih =>
      cases sp with
      | none => exact (ih h).imp_left (List.mem_cons_of_mem _)
      | some is' =>
          rw [lookupLoop] at h
          split_ifs at h with heq
          · cases h
            exact ⟨List.mem_cons_self, heq⟩
          · exact (ih h).imp_left (List.mem_cons_of_mem _)

/-- If it answers nothing, no string in the array has it. -/
lemma lookupLoop_eq_none {pointers : List (Option ℕ)} (h : lookupLoop heap s pointers = none) :
    ∀ is, some is ∈ pointers → heap is ≠ s := by
  induction pointers with
  | nil =>
      intro is hmem
      cases hmem
  | cons sp rest ih =>
      intro is hmem
      cases sp with
      | none => exact ih h is (by simpa using hmem)
      | some is' =>
          rw [lookupLoop] at h
          split_ifs at h with heq
          rcases List.mem_cons.1 hmem with hhead | htail
          · cases hhead
            exact heq
          · exact ih h is htail

lemma toNat_newSize (hfits : strs.Fits) : (strs.size * 2).toNat = strs.size.toNat * 2 := by
  have hlt := hfits.size_lt
  rw [UInt32.toNat_mul]
  exact Nat.mod_eq_of_lt (by simpa using by omega)

/-- **The overflow test** leaves room for 2²⁸ pointers: the next doubling would take 2³² bytes.  The
doubled size itself does not become zero before that. -/
lemma overflow_iff (hfits : strs.Fits) :
    (strs.size * 2 = 0 ∨ valueSize > 0xFFFFFFFF / (strs.size * 2)) ↔ 2 ^ 28 ≤ strs.size.toNat := by
  have hpos := hfits.size_pos
  have hmul := toNat_newSize hfits
  have hzero : ¬ strs.size * 2 = 0 := by
    intro h
    rw [h] at hmul
    have hvalue : (0 : UInt32).toNat = 0 := rfl
    omega
  have hdiv : (0xFFFFFFFF / (strs.size * 2)).toNat = 0xFFFFFFFF / (strs.size.toNat * 2) := by
    rw [UInt32.toNat_div, hmul]
    rfl
  have hvalue : valueSize.toNat = 8 := rfl
  rw [or_iff_right hzero, gt_iff_lt, UInt32.lt_iff_toNat_lt, hdiv, hvalue,
    Nat.div_lt_iff_lt_mul (by omega)]
  omega

/-- **What making room does**: there is room, and what is in use stays. -/
lemma makeRoom_eq_some (hfits : strs.Fits) (h : strs.makeRoom enough = some strs') :
    strs'.Fits ∧ strs'.count.toNat < strs'.size.toNat ∧ strs'.used = strs.used := by
  have hcount := hfits.count_le
  have hpos := hfits.size_pos
  simp only [makeRoom, overflow_iff hfits] at h
  split_ifs at h with hfull hover
  · cases h
    have hsize := toNat_newSize hfits
    have hlength := hfits.length_data
    have hfull' : strs.count.toNat = strs.size.toNat := congrArg UInt32.toNat hfull
    refine ⟨⟨?_, ?_, ?_, ?_⟩, ?_, ?_⟩
    · simp only [List.length_append, List.length_replicate, hlength, hsize]
      omega
    · simp only [hsize]
      omega
    · simp only [hsize]
      omega
    · simp only [hsize]
      omega
    · simp only [hsize]
      omega
    · have hle : strs.count.toNat ≤ strs.data.length := by omega
      exact List.take_append_of_le_length hle
  · cases h
    refine ⟨hfits, ?_, rfl⟩
    have hne : strs.count.toNat ≠ strs.size.toNat := fun heq => hfull (UInt32.toNat_inj.1 heq)
    omega

/-- While there is memory, room fails to be made only in an array of 2²⁸ pointers that is full. -/
lemma makeRoom_eq_none (hfits : strs.Fits) (h : strs.makeRoom true = none) :
    2 ^ 28 ≤ strs.count.toNat := by
  simp only [makeRoom, overflow_iff hfits] at h
  split_ifs at h with hfull hover
  rwa [hfull]

/-- **The pointer is stored behind the others**, null or not, where making room has left at least
one cell. -/
lemma store_fits (hfits : strs.Fits) (hroom : strs.count.toNat < strs.size.toNat) (is : Option ℕ) :
    (strs.store is).Fits ∧ (strs.store is).used = strs.used ++ [is] := by
  have hlt := hfits.size_lt
  have hcount : (strs.count + 1).toNat = strs.count.toNat + 1 := by
    rw [UInt32.toNat_add]
    exact Nat.mod_eq_of_lt (by simpa using by omega)
  refine ⟨⟨?_, hfits.size_pos, hlt, ?_⟩, ?_⟩
  · exact (List.length_set).trans hfits.length_data
  · exact hcount.trans_le hroom
  · have hlength : strs.count.toNat < strs.data.length := hfits.length_data ▸ hroom
    show (strs.data.set strs.count.toNat is).take (strs.count + 1).toNat = _
    rw [hcount, List.take_set, List.take_succ_eq_append_getElem hlength,
      List.set_append_right _ _ (by simp [hlength.le])]
    simp [used, hlength.le]

/-! ## One call

The invariant, and what each way through a call does to it.
-/

variable {answers : List (Option Text × Option ℕ)} {call : InternCall}

/-- **What the storage holds**: the strings that were answered, each once.  No two of its blocks
have the same text, so a text determines its block, and every block in it was answered at some
time. -/
structure Holds (strs : CubebStrings) (heap : Mem Text) (answers : List (Option Text × Option ℕ)) :
    Prop where
  fits : strs.Fits
  nodup : (strs.blocks.map heap).Nodup
  text : ∀ s is, (s, some is) ∈ answers → is ∈ strs.blocks ∧ s = some (heap is)
  answered : ∀ is ∈ strs.blocks, (some (heap is), some is) ∈ answers

lemma holds_init {heap : Mem Text} : init.Holds heap [] := by
  refine ⟨fits_init, List.nodup_nil, ?_, ?_⟩
  · intro s is hmem
    cases hmem
  · intro is hmem
    cases hmem

/-- Equal texts in the array are the same block. -/
lemma Holds.eq_of_text (h : strs.Holds heap answers) {is is' : ℕ} (hmem : is ∈ strs.blocks)
    (hmem' : is' ∈ strs.blocks) (htext : heap is = heap is') : is = is' :=
  List.inj_on_of_nodup_map h.nodup hmem hmem' htext

/-- A null answer leaves the storage as it is, as far as its strings go. -/
lemma Holds.null (h : strs.Holds heap answers) (s : Option Text) :
    strs.Holds heap (answers ++ [(s, none)]) := by
  refine ⟨h.fits, h.nodup, ?_, ?_⟩
  · intro t is hmem
    rcases List.mem_append.1 hmem with hold | hnew
    · exact h.text t is hold
    · cases List.mem_singleton.1 hnew
  · intro is hmem
    exact List.mem_append_left _ (h.answered is hmem)

lemma Holds.again (h : strs.Holds heap answers) {is : ℕ} (hmem : is ∈ strs.blocks) :
    strs.Holds heap (answers ++ [(some (heap is), some is)]) := by
  refine ⟨h.fits, h.nodup, ?_, ?_⟩
  · intro t is' hmem'
    rcases List.mem_append.1 hmem' with hold | hnew
    · exact h.text t is' hold
    · cases List.mem_singleton.1 hnew
      exact ⟨hmem, rfl⟩
  · intro is' hmem'
    exact List.mem_append_left _ (h.answered is' hmem')

/-- Only the strings in the array count, and not how long it is or where it lies. -/
lemma Holds.of_blocks (h : strs.Holds heap answers) (hfits : strs'.Fits)
    (hblocks : strs'.blocks = strs.blocks) : strs'.Holds heap answers := by
  refine ⟨hfits, ?_, ?_, ?_⟩
  · rw [hblocks]
    exact h.nodup
  · rw [hblocks]
    exact h.text
  · rw [hblocks]
    exact h.answered

/-- A new string in a block of its own.  The heap changes in this block alone, so that the old
strings keep their texts. -/
lemma Holds.add (h : strs.Holds heap answers) (hnew : ∀ is ∈ strs.blocks, heap is ≠ s) {block : ℕ}
    (hblock : block ∉ strs.blocks) (hfits : strs'.Fits)
    (hblocks : strs'.blocks = strs.blocks ++ [block]) :
    strs'.Holds (Function.update heap block s) (answers ++ [(some s, some block)]) := by
  have hkeep : ∀ is ∈ strs.blocks, Function.update heap block s is = heap is := by
    intro is hmem
    refine Function.update_of_ne ?_ _ _
    rintro rfl
    exact hblock hmem
  have hcopied : Function.update heap block s block = s := Function.update_self _ _ _
  refine ⟨hfits, ?_, ?_, ?_⟩
  · rw [hblocks, List.map_append, List.map_congr_left hkeep, List.map_singleton, hcopied]
    refine List.nodup_append.2 ⟨h.nodup, List.nodup_singleton s, ?_⟩
    intro text htext text' htext'
    obtain ⟨is, hmem, rfl⟩ := List.mem_map.1 htext
    rw [List.mem_singleton.1 htext']
    exact hnew is hmem
  · intro t is hmem
    rw [hblocks]
    rcases List.mem_append.1 hmem with hold | hlast
    · obtain ⟨hmem', ht⟩ := h.text t is hold
      rw [hkeep is hmem']
      exact ⟨List.mem_append_left _ hmem', ht⟩
    · cases List.mem_singleton.1 hlast
      rw [hcopied]
      exact ⟨List.mem_append_right _ (List.mem_singleton.2 rfl), rfl⟩
  · intro is hmem
    rw [hblocks] at hmem
    rcases List.mem_append.1 hmem with hold | hlast
    · rw [hkeep is hold]
      exact List.mem_append_left _ (h.answered is hold)
    · cases List.mem_singleton.1 hlast
      rw [hcopied]
      exact List.mem_append_right _ (List.mem_singleton.2 rfl)

/-- **A string that is not stored yet** is stored, unless memory runs out; the block is one that the
storage does not hold. -/
lemma Holds.push (h : strs.Holds heap answers) (hnew : ∀ is ∈ strs.blocks, heap is ≠ s)
    (hfresh : ∀ is ∈ call.copy, is ∉ strs.blocks) :
    let r := strs.push heap s call
    r.2.1.Holds r.2.2 (answers ++ [(some s, r.1)]) ∧
      ∀ is ∈ r.2.1.blocks, is ∈ strs.blocks ∨ is ∈ call.copy := by
  rw [CubebStrings.push]
  cases hmake : strs.makeRoom call.enough with
  | none => exact ⟨h.null (some s), fun is hmem => Or.inl hmem⟩
  | some strs' =>
      obtain ⟨hfits', hroom, hused⟩ := makeRoom_eq_some h.fits hmake
      obtain ⟨hfits, husedStore⟩ := store_fits hfits' hroom call.copy
      have hblocks : (strs'.store call.copy).blocks = strs.blocks ++ call.copy.toList := by
        rw [blocks, husedStore, hused, List.reduceOption_append, List.reduceOption_singleton,
          blocks]
      refine ⟨?_, ?_⟩
      · cases hcopy : call.copy with
        | none =>
            rw [hcopy] at hfits hblocks
            exact (h.null (some s)).of_blocks hfits (hblocks.trans (List.append_nil _))
        | some block =>
            rw [hcopy] at hfits hblocks
            exact h.add hnew (hfresh block hcopy) hfits hblocks
      · intro is hmem
        rw [hblocks] at hmem
        exact (List.mem_append.1 hmem).imp_right Option.mem_toList.1

/-- **One call** keeps the storage holding what was answered, in each of the four ways it can go: no
string, an old one, a new one, or no memory. -/
lemma Holds.intern (h : strs.Holds heap answers) (hfresh : ∀ is ∈ call.copy, is ∉ strs.blocks) :
    let r := strs.intern heap call
    r.2.1.Holds r.2.2 (answers ++ [(call.s, r.1)]) ∧
      ∀ is ∈ r.2.1.blocks, is ∈ strs.blocks ∨ is ∈ call.copy := by
  intro r
  simp only [r, CubebStrings.intern]
  cases call.s with
  | none => exact ⟨h.null none, fun is hmem => Or.inl hmem⟩
  | some s =>
      cases hlookup : strs.lookup heap s with
      | none =>
          have hnew : ∀ is ∈ strs.blocks, heap is ≠ s := fun is hmem =>
            lookupLoop_eq_none hlookup is (mem_blocks.1 hmem)
          simpa only [hlookup] using h.push hnew hfresh
      | some is =>
          obtain ⟨hmem, htext⟩ := lookupLoop_eq_some hlookup
          have hagain := h.again (mem_blocks.2 hmem)
          rw [htext] at hagain
          simpa only [hlookup] using ⟨hagain, fun is hmem => Or.inl hmem⟩

/-! ## While there is memory

Without failures every pointer in the array is a string, so the number of pointers is the number of
different strings asked for.
-/

/-- **No copy has failed**, so that there is no null pointer in the array. -/
def Copied (strs : CubebStrings) : Prop := ∀ p ∈ strs.used, p.isSome

lemma Holds.length_blocks (h : strs.Holds heap answers) (hcopied : strs.Copied) :
    strs.blocks.length = strs.count.toNat := by
  rw [blocks, List.reduceOption_length_eq_iff.2 hcopied, used, List.length_take, h.fits.length_data,
    Nat.min_eq_left h.fits.count_le]

/-- A new one among at most 2²⁸ strings finds room. -/
lemma Holds.count_lt (h : strs.Holds heap answers) (hcopied : strs.Copied) {asked : Finset Text}
    (hasked : ∀ is ∈ strs.blocks, heap is ∈ asked) (hs : s ∈ asked)
    (hnew : ∀ is ∈ strs.blocks, heap is ≠ s) (hfew : asked.card ≤ 2 ^ 28) :
    strs.count.toNat < 2 ^ 28 := by
  have hnodup : (s :: strs.blocks.map heap).Nodup := by
    refine List.nodup_cons.2 ⟨?_, h.nodup⟩
    intro hmem
    obtain ⟨is, hmem', htext⟩ := List.mem_map.1 hmem
    exact hnew is hmem' htext
  have hsub : (s :: strs.blocks.map heap).toFinset ⊆ asked := by
    intro t ht
    rcases List.mem_cons.1 (List.mem_toFinset.1 ht) with rfl | hold
    · exact hs
    · obtain ⟨is, hmem, rfl⟩ := List.mem_map.1 hold
      exact hasked is hmem
  have hcard := Finset.card_le_card hsub
  rw [List.toFinset_card_of_nodup hnodup, List.length_cons, List.length_map,
    h.length_blocks hcopied] at hcard
  omega

/-- A push with memory to spare answers, and leaves no null pointer behind. -/
lemma Copied.push (hfits : strs.Fits) (hcopied : strs.Copied) (hlt : strs.count.toNat < 2 ^ 28)
    (henough : call.enough = true) (hcopy : call.copy.isSome) :
    let r := strs.push heap s call
    r.1.isSome ∧ r.2.1.Copied := by
  rw [CubebStrings.push, henough]
  cases hmake : strs.makeRoom true with
  | none => exact absurd (makeRoom_eq_none hfits hmake) (Nat.not_le.2 hlt)
  | some strs' =>
      obtain ⟨hfits', hroom, hused⟩ := makeRoom_eq_some hfits hmake
      obtain ⟨-, husedStore⟩ := store_fits hfits' hroom call.copy
      refine ⟨hcopy, ?_⟩
      intro p hmem
      have hmem' : p ∈ strs.used ++ [call.copy] := by rwa [← hused, ← husedStore]
      rcases List.mem_append.1 hmem' with hold | hlast
      · exact hcopied p hold
      · rw [List.mem_singleton.1 hlast]
        exact hcopy

/-- **One call while there is memory** answers a string, and its copy does not fail. -/
lemma Holds.intern_isSome (h : strs.Holds heap answers) (hcopied : strs.Copied)
    {asked : Finset Text}
    (hasked : ∀ is ∈ strs.blocks, heap is ∈ asked) (hcall : ∀ s ∈ call.s, s ∈ asked)
    (hfew : asked.card ≤ 2 ^ 28) (henough : call.enough = true) (hcopy : call.copy.isSome) :
    let r := strs.intern heap call
    (call.s.isSome → r.1.isSome) ∧ r.2.1.Copied := by
  simp only [CubebStrings.intern]
  cases hs : call.s with
  | none => exact ⟨fun hnone => absurd hnone Bool.false_ne_true, hcopied⟩
  | some s =>
      cases hlookup : strs.lookup heap s with
      | some is => simpa only [hlookup] using ⟨fun _ => rfl, hcopied⟩
      | none =>
          have hnew : ∀ is ∈ strs.blocks, heap is ≠ s := fun is hmem =>
            lookupLoop_eq_none hlookup is (mem_blocks.1 hmem)
          have hlt := h.count_lt hcopied hasked (hcall s hs) hnew hfew
          have hpush : (strs.push heap s call).1.isSome ∧ (strs.push heap s call).2.1.Copied :=
            hcopied.push h.fits hlt henough hcopy
          simpa only [hlookup] using ⟨fun _ => hpush.1, hpush.2⟩

end CubebStrings

/-! ## Every run

The invariant over a run, and the three results read off it.
-/

namespace Interning

variable {r : Interning} {calls : List InternCall}

/-- One step of a run: the blocks still to come are none of the storage's. -/
lemma kept_step {call : InternCall} (h : r.strings.Holds r.heap r.answers)
    (hcopies : ((call :: calls).filterMap InternCall.copy).Nodup)
    (hfresh : ∀ is ∈ r.strings.blocks, is ∉ (call :: calls).filterMap InternCall.copy) :
    (r.step call).strings.Holds (r.step call).heap (r.step call).answers ∧
      (calls.filterMap InternCall.copy).Nodup ∧
      ∀ is ∈ (r.step call).strings.blocks, is ∉ calls.filterMap InternCall.copy := by
  have hcopy : ∀ is ∈ call.copy, is ∉ r.strings.blocks := by
    intro is hmem hheld
    exact hfresh is hheld (List.mem_filterMap.2 ⟨call, List.mem_cons_self, hmem⟩)
  have hsub := (List.sublist_cons_self call calls).filterMap InternCall.copy
  obtain ⟨hstep, hblocks⟩ := h.intern hcopy
  refine ⟨hstep, hcopies.sublist hsub, ?_⟩
  intro is hmem hlater
  rcases hblocks is hmem with hheld | hcopy
  · exact hfresh is hheld (hsub.subset hlater)
  · rw [List.filterMap_cons_some hcopy] at hcopies
    exact (List.nodup_cons.1 hcopies).1 hlater

/-- By induction on the calls: what `strdup` is still to answer is none of the storage's. -/
lemma holds_run (h : r.strings.Holds r.heap r.answers)
    (hcopies : (calls.filterMap InternCall.copy).Nodup)
    (hfresh : ∀ is ∈ r.strings.blocks, is ∉ calls.filterMap InternCall.copy) :
    (run step r calls).strings.Holds (run step r calls).heap (run step r calls).answers := by
  induction calls generalizing r with
  | nil => exact h
  | cons call calls ih =>
      obtain ⟨hstep, hcopies', hfresh'⟩ := kept_step h hcopies hfresh
      exact ih hstep hcopies' hfresh'

lemma holds_of_run (hcopies : (calls.filterMap InternCall.copy).Nodup) :
    (run step start calls).strings.Holds (run step start calls).heap
      (run step start calls).answers :=
  holds_run CubebStrings.holds_init hcopies fun _ hmem => absurd hmem List.not_mem_nil

/-- **One pointer for each string**, which it still points to at the end.  No block is given out
twice by `strdup`, as none is freed. -/
theorem interned_eq_iff (calls : List InternCall)
    (hcopies : (calls.filterMap InternCall.copy).Nodup) (s t : Option Text) (is is' : ℕ)
    (hs : (s, some is) ∈ (run step start calls).answers)
    (ht : (t, some is') ∈ (run step start calls).answers) :
    (is = is' ↔ s = t) ∧ s = some ((run step start calls).heap is) := by
  have hholds := holds_of_run hcopies
  obtain ⟨hmem, htext⟩ := hholds.text s is hs
  obtain ⟨hmem', htext'⟩ := hholds.text t is' ht
  refine ⟨?_, htext⟩
  rw [htext, htext']
  constructor
  · rintro rfl
    rfl
  · intro heq
    exact hholds.eq_of_text hmem hmem' (Option.some.inj heq)

/-- A copy that failed, the same string again, another one, and the first one once more. -/
theorem interned_eq_iff_again :
    let r := run step start [⟨some [97], true, none⟩, ⟨some [97], true, some 7⟩,
      ⟨some [98], true, some 8⟩, ⟨some [97], false, none⟩]
    (7 = 8 ↔ some ([97] : Text) = some [98]) ∧ some [97] = some (r.heap 7) :=
  interned_eq_iff _ (by decide) _ _ 7 8 (by decide) (by decide)

/-- **Each answer is freed once**, and no other block, whether the string was asked for once or many
times. -/
theorem count_freed (calls : List InternCall)
    (hcopies : (calls.filterMap InternCall.copy).Nodup) (is : ℕ) :
    let r := run step start calls
    r.strings.destroy.count (.block is) = if some is ∈ r.answers.map Prod.snd then 1 else 0 := by
  intro r
  have hholds : r.strings.Holds r.heap r.answers := holds_of_run hcopies
  have hmem : some is ∈ r.answers.map Prod.snd ↔ is ∈ r.strings.blocks := by
    constructor
    · intro h
      obtain ⟨⟨s, answer⟩, hx, rfl⟩ := List.mem_map.1 h
      exact (hholds.text s is hx).1
    · intro h
      exact List.mem_map.2 ⟨_, hholds.answered is h, rfl⟩
  have hnodup : r.strings.blocks.Nodup := List.Nodup.of_map _ hholds.nodup
  have hblocks : r.strings.used.filterMap (Option.map Freed.block)
      = r.strings.blocks.map Freed.block := by
    rw [CubebStrings.blocks, List.reduceOption, List.map_filterMap]
    rfl
  have hinj : Function.Injective Freed.block := fun _ _ heq => Freed.block.inj heq
  have hcount : (r.strings.blocks.map Freed.block).count (.block is) = r.strings.blocks.count is :=
    List.count_map_of_injective _ _ hinj _
  rw [CubebStrings.destroy, hblocks, List.count_append, List.count_append, hcount, hnodup.count]
  simp only [hmem]
  cases r.strings.small <;> simp

/-- One string, asked for twice. -/
theorem count_freed_twice :
    let r := run step start [⟨some [97], true, some 7⟩, ⟨some [97], true, some 8⟩]
    r.strings.destroy.count (.block 7) = if some 7 ∈ r.answers.map Prod.snd then 1 else 0 :=
  count_freed _ (by decide) 7

/-- By induction on the calls: as long as every request is answered, all strings held are among
those asked for. -/
lemma answered_run {asked : Finset Text} (h : r.strings.Holds r.heap r.answers)
    (hcopied : r.strings.Copied)
    (hanswers : ∀ s p, (some s, p) ∈ r.answers → s ∈ asked ∧ p.isSome)
    (hcopies : (calls.filterMap InternCall.copy).Nodup)
    (hfresh : ∀ is ∈ r.strings.blocks, is ∉ calls.filterMap InternCall.copy)
    (hcalls : ∀ call ∈ calls, (∀ s ∈ call.s, s ∈ asked) ∧ call.enough = true ∧ call.copy.isSome)
    (hfew : asked.card ≤ 2 ^ 28) :
    ∀ s p, (some s, p) ∈ (run step r calls).answers → s ∈ asked ∧ p.isSome := by
  induction calls generalizing r with
  | nil => exact hanswers
  | cons call calls ih =>
      obtain ⟨hasked, henough, hcopy⟩ := hcalls call List.mem_cons_self
      obtain ⟨hsome, hcopied'⟩ := h.intern_isSome hcopied
        (fun is hmem => (hanswers _ _ (h.answered is hmem)).1) hasked hfew henough hcopy
      have hkept := kept_step h hcopies hfresh
      refine ih hkept.1 hcopied' ?_ hkept.2.1 hkept.2.2
        (fun later hlater => hcalls later (List.mem_cons_of_mem _ hlater))
      intro s p hmem
      rcases List.mem_append.1 hmem with hold | hnew
      · exact hanswers s p hold
      · cases hs : call.s with
        | none =>
            rw [hs] at hnew
            cases List.mem_singleton.1 hnew
        | some s' =>
            rw [hs] at hnew
            cases List.mem_singleton.1 hnew
            exact ⟨hasked s hs, hsome (by rw [hs]; rfl)⟩

/-- **While there is memory**, up to 2²⁸ different strings are answered. -/
theorem requests_answered (calls : List InternCall)
    (hcopies : (calls.filterMap InternCall.copy).Nodup)
    (hmemory : ∀ call ∈ calls, call.enough = true ∧ call.copy.isSome)
    (hfew : (calls.filterMap InternCall.s).toFinset.card ≤ 2 ^ 28) (s : Text) (p : Option ℕ)
    (hmem : (some s, p) ∈ (run step start calls).answers) : p.isSome := by
  refine (answered_run CubebStrings.holds_init ?_ ?_ hcopies ?_ ?_ hfew s p hmem).2
  · intro p hmem
    cases hmem
  · intro s p hmem
    cases hmem
  · intro is hmem
    cases hmem
  · intro call hcall
    refine ⟨?_, hmemory call hcall⟩
    intro s hs
    exact List.mem_toFinset.2 (List.mem_filterMap.2 ⟨call, hcall, hs⟩)

/-- The last of five strings, for which the array moves to the heap. -/
theorem requests_answered_fifth :
    (some [101], some 5) ∈ (run step start [⟨some [97], true, some 1⟩, ⟨some [98], true, some 2⟩,
        ⟨some [99], true, some 3⟩, ⟨some [100], true, some 4⟩,
        ⟨some [101], true, some 5⟩]).answers ∧
      (some 5 : Option ℕ).isSome := by
  have hmem : (some [101], some 5) ∈ (run step start [⟨some [97], true, some 1⟩,
      ⟨some [98], true, some 2⟩, ⟨some [99], true, some 3⟩, ⟨some [100], true, some 4⟩,
      ⟨some [101], true, some 5⟩]).answers := by decide
  exact ⟨hmem, requests_answered _ (by decide) (by decide) (by decide) _ _ hmem⟩

end Interning

end MinSeq
