import Mathlib.Algebra.BigOperators.Group.List.Basic
import Mathlib.Algebra.GroupWithZero.Nat
import MinSeq.Core.Runs

/-!
# Is a deferred call made exactly once?

`FinallyImpl` of `utils/defer.h` calls a function when it is destroyed, unless it was moved from.
The move constructor takes the function over and makes the new object valid, whatever the other one
was.

A run constructs, moves and destroys any number of objects, each under the number that it was made
with.

**What a move leaves behind.**  Moving the callable out of an object leaves something in its place,
and what that is depends on the callable: the lambda of the macro, which captures by reference,
stays as it was, and a `std::function` is emptied.  That is the parameter `moved`.  Nothing here
depends on it, since the class goes by its own flag and not by the callable.  To call what was left
is counted as a call of just that, and not of what was there before.

* **`count_called`** — over every run, how often a function was called or is still to be called:
  once for each object it was constructed in, and once more for each move from an object that had
  been moved from.
* **`calledOnce_iff`** — so once everything is destroyed, each function was called as often as it
  was deferred exactly when no such move was made.
* `run_scope` — at the end of a scope the calls come in reverse order.
-/

namespace MinSeq

open Runs

variable {F : Type}

/-- **A deferred call**: what is called, and whether this object is the one to call it. -/
structure FinallyImpl (F : Type) where
  func : F
  valid : Bool
deriving DecidableEq

namespace FinallyImpl

/-- Either constructor from a callable, by copy or by move; the new object is the one to call it. -/
def new (func : F) : FinallyImpl F := ⟨func, true⟩

/-- **The move constructor**: the new object, and what is left of the other one.  The new one is
valid by the default of the member, which the constructor does not mention. -/
def move (moved : F → F) (other : FinallyImpl F) : FinallyImpl F × FinallyImpl F :=
  (⟨other.func, true⟩, ⟨moved other.func, false⟩)

def destroy (o : FinallyImpl F) : List F := if o.valid then [o.func] else []

end FinallyImpl

/-! ## Runs -/

/-- **What a program does with the objects.**  An object is known by its number. -/
inductive FinallyEvent (F : Type) where
  | construct (func : F)
  | move (i : ℕ)
  | destroy (i : ℕ)

/-- **The state of a run**: the objects so far, those that are destroyed as `none`, and the calls so
far. -/
structure Deferred (F : Type) where
  objects : List (Option (FinallyImpl F))
  called : List F

namespace Deferred

def start : Deferred F := ⟨[], []⟩

def object (s : Deferred F) (i : ℕ) : Option (FinallyImpl F) := s.objects[i]?.join

/-- One event; what is dead is not used again. -/
def step (moved : F → F) (s : Deferred F) : FinallyEvent F → Deferred F
  | .construct func => { s with objects := s.objects ++ [some (.new func)] }
  | .move i =>
      match s.object i with
      | some other =>
          let r := other.move moved
          { s with objects := s.objects.set i (some r.2) ++ [some r.1] }
      | none => s
  | .destroy i =>
      match s.object i with
      | some o => { objects := s.objects.set i none, called := s.called ++ o.destroy }
      | none => s

/-- **The event moves from an object that was moved from.** -/
def Revives (s : Deferred F) : FinallyEvent F → Prop
  | .move i => ∃ other, s.object i = some other ∧ other.valid = false
  | _ => False

/-- How often the event defers the function, which is once at most. -/
def deferred [DecidableEq F] (f : F) : FinallyEvent F → ℕ
  | .construct func => if func = f then 1 else 0
  | _ => 0

/-- How often it revives the function: the object that is moved from holds it, and was moved from
before. -/
def revived [DecidableEq F] (f : F) (s : Deferred F) : FinallyEvent F → ℕ
  | .move i => if s.object i = some ⟨f, false⟩ then 1 else 0
  | _ => 0

/-- The same over a run, each event in the state that the ones before it have left. -/
def revivedAll [DecidableEq F] (moved : F → F) (f : F) : Deferred F → List (FinallyEvent F) → ℕ
  | _, [] => 0
  | s, e :: es => revived f s e + revivedAll moved f (s.step moved e) es

/-- How many objects will call the function, if all of them are destroyed as they are. -/
def pending [DecidableEq F] (f : F) (s : Deferred F) : ℕ := s.objects.count (some ⟨f, true⟩)

variable {moved : F → F} {s : Deferred F} {i : ℕ} {o : FinallyImpl F}

/-- An object that is alive has its place in the list. -/
lemma getElem_of_object (h : s.object i = some o) :
    ∃ hi : i < s.objects.length, s.objects[i] = some o := by
  rw [object, Option.join_eq_some_iff] at h
  exact List.getElem?_eq_some_iff.1 h

section Counting

variable [DecidableEq F]

/-- What is pending when one object is replaced. -/
lemma count_set (h : s.object i = some o) (o' : Option (FinallyImpl F)) (f : F) :
    (s.objects.set i o').count (some ⟨f, true⟩) + (if o = ⟨f, true⟩ then 1 else 0)
      = s.pending f + if o' = some ⟨f, true⟩ then 1 else 0 := by
  obtain ⟨hi, hget⟩ := getElem_of_object h
  have hset := List.count_set (b := (some ⟨f, true⟩ : Option (FinallyImpl F))) (a := o') hi
  have hpos : (if o = ⟨f, true⟩ then 1 else 0) ≤ s.pending f := by
    split_ifs with hf
    · rw [pending, Nat.succ_le_iff, List.count_pos_iff, ← hf, ← hget]
      exact List.getElem_mem hi
    · exact Nat.zero_le _
  rw [hset, hget]
  simp only [beq_iff_eq, Option.some.injEq, pending] at hpos ⊢
  omega

/-- **One event**: every call that is made or promised is accounted for. -/
lemma count_step (moved : F → F) (f : F) (s : Deferred F) (e : FinallyEvent F) :
    (s.step moved e).called.count f + (s.step moved e).pending f
      = s.called.count f + s.pending f + deferred f e + revived f s e := by
  cases e with
  | construct func =>
      have hnew : (some (FinallyImpl.new func) : Option (FinallyImpl F)) = some ⟨f, true⟩
          ↔ func = f := by
        simp [FinallyImpl.new]
      simp only [step, pending, deferred, revived, List.count_append, List.count_singleton,
        beq_iff_eq, hnew]
      omega
  | move i =>
      cases h : s.object i with
      | none => simp [step, h, deferred, revived]
      | some other =>
          have hset := count_set h (some (other.move moved).2) f
          rcases other with ⟨func, valid⟩
          simp only [step, h, deferred, revived, pending, FinallyImpl.move, List.count_append,
            List.count_singleton, beq_iff_eq, Option.some.injEq, FinallyImpl.mk.injEq] at hset ⊢
          -- it was pending if it was valid, and is revived if not
          cases valid <;>
            simp only [Bool.false_eq_true, Bool.true_eq_false, and_false, and_true, if_false]
              at hset ⊢ <;>
            omega
  | destroy i =>
      cases h : s.object i with
      | none => simp [step, h, deferred, revived]
      | some o =>
          have hset := count_set h none f
          rcases o with ⟨func, valid⟩
          simp only [step, h, deferred, revived, pending, FinallyImpl.destroy, List.count_append,
            FinallyImpl.mk.injEq] at hset ⊢
          cases valid <;>
            simp only [Bool.false_eq_true, and_false, and_true, if_false, if_true, List.count_nil,
              List.count_singleton, beq_iff_eq, reduceCtorEq] at hset ⊢ <;>
            omega

/-- From any state on, by induction on the events. -/
lemma count_run (moved : F → F) (f : F) (s : Deferred F) (events : List (FinallyEvent F)) :
    (run (step moved) s events).called.count f + (run (step moved) s events).pending f
      = s.called.count f + s.pending f + (events.map (deferred f)).sum
        + revivedAll moved f s events := by
  induction events generalizing s with
  | nil => simp [revivedAll]
  | cons e events ih =>
      have hstep := count_step moved f s e
      have hrest := ih (s.step moved e)
      rw [run_cons, List.map_cons, List.sum_cons, revivedAll]
      omega

/-- **Every run**: what was called, and what is still to be called.  The two sides count the calls
by the objects that make them and by the events that promise them. -/
theorem count_called (moved : F → F) (f : F) (events : List (FinallyEvent F)) :
    (run (step moved) start events).called.count f + (run (step moved) start events).pending f
      = (events.map (deferred f)).sum + revivedAll moved f start events := by
  simpa [start, pending] using count_run moved f start events

/-- No function is revived in a run none of whose events moves from an object that was moved
from. -/
lemma revivedAll_eq_zero_iff (moved : F → F) (s : Deferred F) (events : List (FinallyEvent F)) :
    (∀ f, revivedAll moved f s events = 0)
      ↔ EveryStep (step moved) (fun s e => ¬ Revives s e) s events := by
  induction events generalizing s with
  | nil => simp [revivedAll, EveryStep]
  | cons e events ih =>
      have hhead : (∀ f, revived f s e = 0) ↔ ¬ Revives s e := by
        cases e with
        | construct func => simp [revived, Revives]
        | destroy i => simp [revived, Revives]
        | move i =>
            simp only [revived, Revives, ite_eq_right_iff, Nat.one_ne_zero, imp_false, not_exists,
              not_and]
            constructor
            · rintro h ⟨func, valid⟩ hobject rfl
              exact h func hobject
            · intro h f hobject
              exact h _ hobject rfl
      simp only [revivedAll, Nat.add_eq_zero_iff, forall_and, EveryStep, hhead, ih]

/-- **When every deferred call is made exactly once**, in a run at whose end everything is
destroyed.  The condition is one on the events and the flags, and says nothing of what is called. -/
theorem calledOnce_iff (moved : F → F) (events : List (FinallyEvent F))
    (hend : ∀ o ∈ (run (step moved) start events).objects, o = none) :
    (∀ f, (run (step moved) start events).called.count f = (events.map (deferred f)).sum)
      ↔ EveryStep (step moved) (fun s e => ¬ Revives s e) start events := by
  rw [← revivedAll_eq_zero_iff]
  refine forall_congr' fun f => ?_
  have hpending : (run (step moved) start events).pending f = 0 := by
    rw [pending, List.count_eq_zero]
    intro hmem
    cases hend _ hmem
  have hcount := count_run moved f start events
  rw [hpending] at hcount
  simp only [start, pending, List.count_nil] at hcount ⊢
  omega

/-- Deferred, moved once, and both objects destroyed, where a move empties the callable. -/
theorem calledOnce_iff_moved :
    (∀ f, (run (step fun _ => ' ') start
          [.construct 'f', .move 0, .destroy 0, .destroy 1]).called.count f
        = ([.construct 'f', .move 0, .destroy 0, .destroy 1].map (deferred f)).sum)
      ↔ EveryStep (step fun _ => ' ') (fun s e => ¬ Revives s e) start
          [.construct 'f', .move 0, .destroy 0, .destroy 1] :=
  calledOnce_iff _ _ (by decide)

end Counting

/-! ## Scopes -/

/-- The objects of a scope, the last one destroyed first. -/
def scope : ℕ → List F → List (FinallyEvent F)
  | _, [] => []
  | i, func :: funcs => .construct func :: (scope (i + 1) funcs ++ [.destroy i])

/-- **At the end of a scope** its functions are called in reverse order. -/
theorem run_scope (moved : F → F) (s : Deferred F) (funcs : List F) :
    run (step moved) s (scope s.objects.length funcs)
      = ⟨s.objects ++ List.replicate funcs.length none, s.called ++ funcs.reverse⟩ := by
  induction funcs generalizing s with
  | nil => simp [scope]
  | cons func funcs ih =>
      have hinner := ih ⟨s.objects ++ [some (.new func)], s.called⟩
      rw [List.length_append, List.length_singleton] at hinner
      rw [scope, run_cons, run_append]
      show run (step moved) (run (step moved) ⟨s.objects ++ [some (.new func)], s.called⟩ _) _ = _
      rw [hinner]
      simp [run, step, object, FinallyImpl.new, FinallyImpl.destroy, List.replicate_succ]

end Deferred

end MinSeq
