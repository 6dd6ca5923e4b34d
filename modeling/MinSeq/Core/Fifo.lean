import Mathlib.Data.List.Forall2
import Mathlib.Tactic.Common

/-!
# First in, first out

What any queue owes its users, said without the queue: `sent` is everything that ever went in,
`received` everything that ever came out, in order, and `queue` what is on its way.  A taker may
throw elements away unseen, so an entry of `received` may be empty.

The point of keeping both histories is that the statement then speaks about whole runs.  A queue
that loses one element and later delivers another twice has the right length again, and the right
order in each call, but it no longer carries what was sent.

* **`Carries.put`**, **`Carries.take`** — the two things a queue does.
* **`Carries.append_eq`** — what a taker who looks at everything has seen, and what is on its way,
  make up what was sent: nothing is lost, doubled, invented or overtaken.
-/

namespace Fifo

variable {α : Type*} {sent queue xs : List α} {received seen : List (Option α)}

/-- What a taker may have seen of an element: the element itself, or nothing. -/
def Shows (x : α) (o : Option α) : Prop := ∀ y ∈ o, y = x

/-- **The queue carries** in order what was sent and not yet received.  The first field compares
what came out with what had gone in by then; the second says that the rest is still there. -/
structure Carries (sent : List α) (received : List (Option α)) (queue : List α) : Prop where
  taken : List.Forall₂ Shows (sent.take received.length) received
  left : sent.drop received.length = queue

/-! ## Seeing

The two ways in which a whole batch comes out: every element seen, or none.
-/

/-- A taker who looks at everything has seen the elements themselves. -/
lemma shows_map_some (xs : List α) : List.Forall₂ Shows xs (xs.map some) := by
  induction xs with
  | nil => exact .nil
  | cons x xs ih => exact .cons (by simp [Shows]) ih

/-- One who throws a batch away has seen nothing of it. -/
lemma shows_replicate_none (xs : List α) :
    List.Forall₂ Shows xs (List.replicate xs.length none) := by
  induction xs with
  | nil => exact .nil
  | cons x xs ih => exact .cons (by simp [Shows]) ih

/-- What was seen in full was there. -/
lemma eq_of_shows_map_some {ys : List α} (h : List.Forall₂ Shows xs (ys.map some)) : xs = ys := by
  induction ys generalizing xs with
  | nil => cases h; rfl
  | cons y ys ih =>
      cases h with
      | cons hhead htail => rw [ih htail, hhead y rfl]

/-! ## The queue

The invariant holds before anything happens, and each of the two operations keeps it.
-/

namespace Carries

lemma nil : Carries ([] : List α) [] [] := ⟨.nil, rfl⟩

/-- No more has come out than went in. -/
lemma length_received_le (h : Carries sent received queue) : received.length ≤ sent.length := by
  have hlen := h.taken.length_eq
  rw [List.length_take] at hlen
  omega

/-- **Elements go in** at the end, and nothing changes for those that are ahead of them. -/
theorem put (h : Carries sent received queue) (xs : List α) :
    Carries (sent ++ xs) received (queue ++ xs) := by
  have hle := h.length_received_le
  refine ⟨?_, ?_⟩
  · rw [List.take_append_of_le_length hle]
    exact h.taken
  · rw [List.drop_append_of_le_length hle, h.left]

/-- **Elements come out** at the front, seen or unseen. -/
theorem take (h : Carries sent received queue)
    (hseen : List.Forall₂ Shows (queue.take seen.length) seen) :
    Carries sent (received ++ seen) (queue.drop seen.length) := by
  refine ⟨?_, ?_⟩
  · rw [List.length_append, List.take_add, h.left]
    exact List.rel_append h.taken hseen
  · rw [List.length_append, ← List.drop_drop, h.left]

/-- **What a taker who looks at everything has seen**, and what is on its way, make up what went
in. -/
theorem append_eq (h : Carries sent (xs.map some) queue) : xs ++ queue = sent := by
  have htaken := eq_of_shows_map_some h.taken
  calc xs ++ queue
      = sent.take (xs.map some).length ++ sent.drop (xs.map some).length := by rw [htaken, h.left]
    _ = sent := List.take_append_drop _ sent

end Carries

end Fifo
