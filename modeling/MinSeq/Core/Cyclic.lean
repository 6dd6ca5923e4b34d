import Mathlib.Order.Interval.Finset.Nat
import MinSeq.Core.Memory

/-!
# Cyclic storage

A storage of `n` cells used over and over: turn `t` uses the cell `t % n`.  Turns count on and never
wrap, so an argument about them needs no case for the end of the storage.  A program that keeps only
the remainder has to treat that end in every function; here it is treated once.

`slots` are the cells of a block of consecutive turns, and `window` is what a memory holds in them.

* **`slots_eq_two_parts`** — the cells of a block of turns are a run up to the end of the storage
  and a run from its beginning, which is how a program without turn numbers walks them.
* **`disjoint_slots`** — two blocks of turns that fit into one round share no cell.
* `window_update_next`, `window_update_outside` — what a write does to the cells of a block.
-/

namespace Cyclic

open Memory

variable {Cell : Type*} {m m' : Mem Cell} {n i k l a t : ℕ} {x : Cell}

/-- **The cells of the `k` turns** from turn `i` on, in the order of the turns.  A cell comes up
twice if the block is longer than a round. -/
def slots (n i : ℕ) : ℕ → List ℕ
  | 0 => []
  | k + 1 => i % n :: slots n (i + 1) k

/-- **What the cells of the `k` turns** from turn `i` on hold, in the same order. -/
def window (m : Mem Cell) (n i k : ℕ) : List Cell := (slots n i k).map m

/-! ## Cells

Which cells a block of turns uses, and when two blocks, or two turns, use the same one.
-/

@[simp] lemma slots_zero : slots n i 0 = [] := rfl

/-- One cell a turn, whatever the storage. -/
@[simp] lemma length_slots : (slots n i k).length = k := by
  induction k generalizing i with
  | zero => rfl
  | succ k ih => simp [slots, ih]

/-- A block may be cut at any turn, and the second part starts with the turn behind the cut. -/
lemma slots_add : slots n i (k + l) = slots n i k ++ slots n (i + k) l := by
  induction k generalizing i with
  | zero => simp
  | succ k ih =>
      rw [Nat.succ_add, slots, slots, ih, List.cons_append, Nat.succ_add_eq_add_succ]

/-- A cell is used when one of the turns falls on it. -/
lemma mem_slots : a ∈ slots n i k ↔ ∃ t, i ≤ t ∧ t < i + k ∧ t % n = a := by
  induction k generalizing i with
  | zero =>
      simp only [slots_zero, List.not_mem_nil, false_iff]
      rintro ⟨t, hlo, hhi, -⟩
      omega
  | succ k ih =>
      rw [slots, List.mem_cons, ih]
      constructor
      · rintro (rfl | ⟨t, hlo, hhi, hmod⟩)
        · exact ⟨i, le_rfl, by omega, rfl⟩
        · exact ⟨t, by omega, by omega, hmod⟩
      · rintro ⟨t, hlo, hhi, hmod⟩
        rcases Nat.eq_or_lt_of_le hlo with rfl | hlt
        · exact .inl hmod.symm
        · exact .inr ⟨t, by omega, by omega, hmod⟩

/-- A block is known by where its first turn falls. -/
lemma slots_mod : slots n (i % n) k = slots n i k := by
  induction k generalizing i with
  | zero => rfl
  | succ k ih =>
      rw [slots, slots, Nat.mod_mod, ← ih (i := i % n + 1), ← ih (i := i + 1), Nat.mod_add_mod]

/-- Two different turns of one round use different cells. -/
lemma mod_ne_mod (hi : i ≤ a) (ha : a < i + n) (hi' : i ≤ t) (ht : t < i + n) (hne : a ≠ t) :
    a % n ≠ t % n := by
  intro h
  exact hne (Nat.mod_injOn_Ico i n (by simp [hi, ha]) (by simp [hi', ht]) h)

/-- **Blocks of one round** share no cell, if one of them ends before the other begins. -/
theorem disjoint_slots (hfit : t + l ≤ i + n) (hapart : i + k ≤ t) :
    ∀ a ∈ slots n i k, a ∉ slots n t l := by
  intro a ha ha'
  rcases mem_slots.1 ha with ⟨u, hu, hu', rfl⟩
  rcases mem_slots.1 ha' with ⟨v, hv, hv', heq⟩
  exact mod_ne_mod (i := i) (by omega) (by omega) hu (by omega) (by omega) heq

/-- A block that does not reach the end of the storage is a run of cells. -/
lemma slots_eq_range' (hfit : i % n + k ≤ n) : slots n i k = List.range' (i % n) k := by
  induction k generalizing i with
  | zero => rfl
  | succ k ih =>
      rw [slots, List.range'_succ]
      congr 1
      rcases Nat.eq_zero_or_pos k with rfl | hk
      · rfl
      · have hnext : (i + 1) % n = i % n + 1 := by
          rw [Nat.add_mod, Nat.mod_eq_of_lt (show 1 < n by omega), Nat.mod_eq_of_lt (by omega)]
        rw [ih (by omega), hnext]

/-- **A block in two parts**: up to the end of the storage, and from its beginning. -/
theorem slots_eq_two_parts (hn : 0 < n) (hk : k ≤ n) :
    slots n i k
      = List.range' (i % n) (min (n - i % n) k) ++ List.range' 0 (k - min (n - i % n) k) := by
  have hlt := Nat.mod_lt i hn
  rcases le_total k (n - i % n) with hle | hle
  · rw [min_eq_right hle, Nat.sub_self, List.range'_zero, List.append_nil]
    exact slots_eq_range' (by omega)
  · have hsplit : k = (n - i % n) + (k - (n - i % n)) := by omega
    have hwrap : (i + (n - i % n)) % n = 0 := by
      have hdiv := Nat.div_add_mod i n
      have hturn : i + (n - i % n) = n * (i / n + 1) := by
        rw [Nat.mul_add, Nat.mul_one]
        omega
      rw [hturn, Nat.mul_mod_right]
    rw [min_eq_left hle]
    conv_lhs => rw [hsplit]
    rw [slots_add, slots_eq_range' (by omega), slots_eq_range' (i := i + _) (by omega), hwrap]

/-! ## What the cells hold

The same for the contents, read off a memory in the order of the turns.
-/

@[simp] lemma window_zero : window m n i 0 = [] := rfl

@[simp] lemma length_window : (window m n i k).length = k := by simp [window]

lemma window_add : window m n i (k + l) = window m n i k ++ window m n (i + k) l := by
  rw [window, slots_add, List.map_append]
  rfl

/-- The cell of one turn of the block. -/
lemma getElem?_window (hl : l < k) : (window m n i k)[l]? = some (m ((i + l) % n)) := by
  have hsplit : k = l + (1 + (k - l - 1)) := by omega
  rw [hsplit, window_add, List.getElem?_append_right (by simp), length_window, Nat.sub_self,
    window_add]
  rfl

/-- What is known by its cells may start with the remainder of its first turn. -/
lemma window_mod : window m n (i % n) k = window m n i k := by rw [window, slots_mod, window]

/-- Two memories that agree on the cells of a block hold the same in it. -/
lemma window_congr (h : ∀ a ∈ slots n i k, m a = m' a) : window m n i k = window m' n i k :=
  List.map_congr_left h

/-- A write to the cell of a turn outside the block, but of the same round, leaves the block
alone. -/
lemma window_update_outside (hlo : i + k ≤ t) (hhi : t < i + n) :
    window (Function.update m (t % n) x) n i k = window m n i k := by
  refine window_congr fun a ha => Function.update_of_ne ?_ x m
  rintro rfl
  exact disjoint_slots (l := 1) (by omega) hlo _ ha (List.mem_singleton.2 rfl)

/-- **A write to the next turn's cell** appends to the block. -/
lemma window_update_next (hk : k < n) :
    window (Function.update m ((i + k) % n) x) n i (k + 1) = window m n i k ++ [x] := by
  rw [window_add, window_update_outside le_rfl (by omega)]
  simp [window, slots]

/-- A part of a block that is known as a whole. -/
lemma window_eq_of_eq {xs : List Cell} (h : window m n i k = xs) (hl : l ≤ k) :
    window m n i l = xs.take l := by
  have hsplit : k = l + (k - l) := by omega
  rw [hsplit, window_add] at h
  rw [← h, List.take_left' (by simp)]

/-- What is left of a block after its first turns. -/
lemma window_drop {xs : List Cell} (h : window m n i k = xs) (hl : l ≤ k) :
    window m n (i + l) (k - l) = xs.drop l := by
  have hsplit : k = l + (k - l) := by omega
  rw [hsplit, window_add] at h
  rw [← h, List.drop_left' (by simp)]

end Cyclic
