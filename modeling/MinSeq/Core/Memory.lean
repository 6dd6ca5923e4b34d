import Mathlib.Algebra.Order.Ring.Int
import Mathlib.Tactic.Common

/-!
# Flat memory with loads and stores

A memory assigns a cell to every address.  `load` copies a run of cells out, `store` copies a list
of cells in.  Nothing here knows what the cells mean, so the same lemmas serve bytes, pointers and
samples, and nothing here can fail: which addresses a program may touch is for the program's own
model to say.

* **`load_store_same`** — a store is read back by a load of the same extent.
* **`load_store_apart`** — a load does not see a store to an extent it does not meet.
* `load_add` and `store_append` split an access at any point, which is what lets a sequence of
  accesses through an advancing pointer be reasoned about one access at a time.

Two extents are `Apart` when they share no address; an empty extent is apart from everything.  That
last case is what makes the lemmas hold for copies of length zero without a case of their own.
-/

namespace Memory

/-- A flat address space: a cell at every address.  It is total, so an address that no program was
given still has a cell, with whatever is in it. -/
abbrev Mem (Cell : Type*) := ℕ → Cell

variable {Cell : Type*} {m m' : Mem Cell} {p q r n k : ℕ}

/-- The `n` cells from address `p` on, by recursion on how many are still to be read. -/
def load (m : Mem Cell) (p : ℕ) : ℕ → List Cell
  | 0 => []
  | n + 1 => m p :: load m (p + 1) n

/-- Overwrite the cells from address `p` on with `cells`.  Every other cell stays, which is why a
store needs no frame condition. -/
def store (m : Mem Cell) (p : ℕ) (cells : List Cell) : Mem Cell :=
  fun a => if p ≤ a then cells[a - p]?.getD (m a) else m a

/-- The extents `[p, p + n)` and `[q, q + k)` share no address: one of them is empty, or one ends
before the other begins. -/
def Apart (p n q k : ℕ) : Prop := n = 0 ∨ k = 0 ∨ p + n ≤ q ∨ q + k ≤ p

instance : Decidable (Apart p n q k) :=
  inferInstanceAs (Decidable (n = 0 ∨ k = 0 ∨ p + n ≤ q ∨ q + k ≤ p))

/-! ## Extents -/

/-- Being apart does not depend on which extent is named first. -/
lemma Apart.symm (h : Apart p n q k) : Apart q k p n := by
  unfold Apart at *; omega

/-- Shrinking the second extent from either end keeps it apart from the first.  This is how a fact
about a whole buffer becomes one about a field in it. -/
lemma Apart.sub {q' k' : ℕ} (h : Apart p n q k) (hlo : q ≤ q') (hhi : q' + k' ≤ q + k) :
    Apart p n q' k' := by
  unfold Apart at *; omega

lemma Apart.head (h : Apart p n q (k + r)) : Apart p n q k :=
  h.sub (Nat.le_refl q) (by omega)

lemma Apart.tail (h : Apart p n q (k + r)) : Apart p n (q + k) r :=
  h.sub (by omega) (by omega)

/-! ## Loads

A load is read from its two ends: `load_add` cuts it anywhere, and `load_congr` says that it depends
on nothing outside its extent.
-/

@[simp] lemma load_zero : load m p 0 = [] := rfl

@[simp] lemma length_load : (load m p n).length = n := by
  induction n generalizing p with
  | zero => rfl
  | succ n ih => simp [load, ih]

lemma load_add : load m p (n + k) = load m p n ++ load m (p + n) k := by
  induction n generalizing p with
  | zero => simp
  | succ n ih =>
      rw [Nat.succ_add, load, load, ih, List.cons_append, Nat.succ_add_eq_add_succ]

/-- A load sees only the cells of its own extent. -/
lemma load_congr (h : ∀ a, p ≤ a → a < p + n → m a = m' a) : load m p n = load m' p n := by
  induction n generalizing p with
  | zero => rfl
  | succ n ih =>
      rw [load, load, h p (Nat.le_refl p) (by omega), ih fun a hlo hhi => h a (by omega) (by omega)]

/-- Splitting a load that is known as an append: the head and the tail are loads themselves.  A
decoder uses it to hand each field the cells that are its own. -/
lemma load_eq_append {xs ys : List Cell} (hx : xs.length = n) (h : load m p (n + k) = xs ++ ys) :
    load m p n = xs ∧ load m (p + n) k = ys := by
  rw [load_add] at h
  exact List.append_inj h (by simp [hx])

/-! ## Stores

What a store does to the cells inside its extent, and that it does nothing to those outside.
-/

@[simp] lemma store_nil : store m p [] = m := by
  funext a; simp [store]

/-- A store of two lists in a row is the two stores, the second one where the first one ends. -/
lemma store_append (xs ys : List Cell) :
    store m p (xs ++ ys) = store (store m p xs) (p + xs.length) ys := by
  funext a
  simp only [store]
  by_cases hp : p ≤ a
  · by_cases hx : p + xs.length ≤ a
    · have hsub : a - p - xs.length = a - (p + xs.length) := by omega
      rw [if_pos hp, if_pos hx, if_pos hp, List.getElem?_append_right (by omega), hsub,
        List.getElem?_eq_none (l := xs) (by omega), Option.getD_none]
    · rw [if_pos hp, if_neg hx, if_pos hp, List.getElem?_append_left (by omega)]
  · rw [if_neg hp, if_neg (by omega), if_neg hp]

/-- Outside its extent a store changes nothing. -/
lemma store_outside {xs : List Cell} {a : ℕ} (h : a < p ∨ p + xs.length ≤ a) :
    store m p xs a = m a := by
  simp only [store]
  split_ifs with hp
  · rw [List.getElem?_eq_none (by omega), Option.getD_none]
  · rfl

/-- **A store is read back** by a load of the same extent. -/
lemma load_store_same (xs : List Cell) : load (store m p xs) p xs.length = xs := by
  induction xs generalizing m p with
  | nil => rfl
  | cons x xs ih =>
      have hcons : store m p (x :: xs) = store (store m p [x]) (p + 1) xs :=
        store_append [x] xs
      have hhead : store (store m p [x]) (p + 1) xs p = x := by
        rw [store_outside (Or.inl (by omega))]
        simp [store]
      rw [hcons, List.length_cons, load, hhead, ih]

/-- **A load does not see a store** to an extent it is apart from. -/
lemma load_store_apart {xs : List Cell} (h : Apart p n q xs.length) :
    load (store m q xs) p n = load m p n := by
  refine load_congr fun a hlo hhi => store_outside ?_
  unfold Apart at h; omega

end Memory
