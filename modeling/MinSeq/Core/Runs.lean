import Mathlib.Tactic.Common

/-!
# Runs of a step function

A system is a step function `step : S → A → S`; a run feeds it a list of actions.  `EveryStep step P
s as` says that `P` holds of every action of the run at the state it is taken in.  The actions may
be the calls of a library, the keys that a user hits, or the steps of several threads in any order;
a statement about all lists of actions is then one about all programs, inputs or interleavings.

Each rule here packages one induction, so that its users prove what a single step does and nothing
else.

**What holds along a run.**

* **`everyStep_of_invariant`** — if every step that meets `Q` keeps the invariant and meets `P`,
  then a run all of whose steps meet `Q` meets `P` at every step.
* **`everyStep_congr`** — two step properties that agree wherever an invariant holds agree over runs
  from a state in which it holds.  The invariant may depend on the property: it needs to be kept
  only by steps that meet it.
* **`run_invariant`** — what every step keeps, every run keeps.
* **`run_completes`** — work that each step of one's own brings closer to its end, and that no other
  step sets back, is done after enough steps of one's own, however the others come between.

**What comes out of a run.**

* **`outputs_of_simulation`** — a machine that answers as another one does, step by step, answers as
  it does over every run.
* **`answers_of_simulation`** — the same for machines that may fault.  They fault at the same step,
  and nothing comes after it.
-/

namespace Runs

variable {S A : Type*} {step : S → A → S} {P Q : S → A → Prop} {I : S → Prop}

/-- **The state a run leads to.** -/
def run (step : S → A → S) (s : S) (as : List A) : S := as.foldl step s

@[simp] lemma run_nil {s : S} : run step s [] = s := rfl

@[simp] lemma run_cons {s : S} {a : A} {as : List A} :
    run step s (a :: as) = run step (step s a) as := rfl

/-- A run may be cut anywhere: the rest starts in the state that the first part leads to. -/
lemma run_append {s : S} {as bs : List A} : run step s (as ++ bs) = run step (run step s as) bs :=
  List.foldl_append

/-- **What every step keeps**, every run keeps. -/
theorem run_invariant (hstep : ∀ s a, I s → I (step s a)) {s : S} (hI : I s) (as : List A) :
    I (run step s as) := by
  induction as generalizing s with
  | nil => exact hI
  | cons a as ih => exact ih (hstep s a hI)

/-- **Enough steps of one's own** complete the work.  `busy m` says that at most `m` are needed, and
the induction is on the run: a step of one's own takes one off, and any other leaves the number as
it is. -/
theorem run_completes (busy : ℕ → S → Prop) {own : A → Bool} {done : S → Prop}
    (hzero : ∀ s, ¬ busy 0 s)
    (hown : ∀ m s a, own a = true → busy (m + 1) s → done (step s a) ∨ busy m (step s a))
    (hother : ∀ m s a, own a = false → busy m s → busy m (step s a))
    (hdone : ∀ s a, done s → done (step s a)) {m : ℕ} {s : S} (hbusy : busy m s) {as : List A}
    (henough : m ≤ as.countP own) : done (run step s as) := by
  induction as generalizing m s with
  | nil =>
      have hm : m = 0 := by simpa using henough
      exact absurd (hm ▸ hbusy) (hzero s)
  | cons a as ih =>
      cases hown' : own a with
      | false =>
          rw [List.countP_cons_of_neg (by simp [hown'])] at henough
          exact ih (hother m s a hown' hbusy) henough
      | true =>
          rw [List.countP_cons_of_pos hown'] at henough
          cases m with
          | zero => exact absurd hbusy (hzero s)
          | succ m =>
              rcases hown m s a hown' hbusy with h | h
              · exact run_invariant hdone h as
              · exact ih h (by omega)

/-- **What a machine answers** over a run, one answer to each action. -/
def outputs {O : Type*} (step : S → A → O × S) : S → List A → List O
  | _, [] => []
  | s, a :: as => (step s a).1 :: outputs step (step s a).2 as

/-- **Simulation**: two machines in related states that answer alike, up to `out`, and stay related.
The relation is the invariant of the proof, and `out` reads the second machine's answers as the
first one's. -/
theorem outputs_of_simulation {S' O O' : Type*} {step : S → A → O × S} {step' : S' → A → O' × S'}
    {R : S → S' → Prop} (out : O' → O)
    (hstep : ∀ s t a, R s t → (step s a).1 = out (step' t a).1 ∧ R (step s a).2 (step' t a).2)
    {s : S} {t : S'} (h : R s t) (as : List A) :
    outputs step s as = (outputs step' t as).map out := by
  induction as generalizing s t with
  | nil => rfl
  | cons a as ih =>
      rcases hstep s t a h with ⟨hout, hnext⟩
      rw [outputs, outputs, List.map_cons, hout, ih hnext]

/-- **Every step** of the run from `s` meets `P`, which sees the action and the state it is taken
in. -/
def EveryStep (step : S → A → S) (P : S → A → Prop) : S → List A → Prop
  | _, [] => True
  | s, a :: as => P s a ∧ EveryStep step P (step s a) as

/-- **What a machine that may fault answers** over a run: nothing after the fault. -/
def answers {O : Type*} (step : S → A → Option (O × S)) : S → List A → List (Option O)
  | _, [] => []
  | s, a :: as =>
      match step s a with
      | none => [none]
      | some (o, s') => some o :: answers step s' as

/-- The state after a step of a machine that may fault.  After a fault it does not matter, and it
stays where it was. -/
def advance {O : Type*} (step : S → A → Option (O × S)) (s : S) (a : A) : S :=
  (step s a).elim s Prod.snd

/-- **Simulation of a machine that may fault**: the other one faults where it does.  The steps may
be held to a side condition `Q` on the other machine's state, which a run has to meet. -/
theorem answers_of_simulation {S' O : Type*} {step : S → A → Option (O × S)}
    {step' : S' → A → Option (O × S')} {R : S → S' → Prop} {Q : S' → A → Prop}
    (hstep : ∀ s t a, R s t → Q t a →
      Option.Rel (fun x y => x.1 = y.1 ∧ R x.2 y.2) (step s a) (step' t a))
    {s : S} {t : S'} (h : R s t) {as : List A} (hQ : EveryStep (advance step') Q t as) :
    answers step s as = answers step' t as := by
  induction as generalizing s t with
  | nil => rfl
  | cons a as ih =>
      rcases hQ with ⟨hhead, htail⟩
      have hrel := hstep s t a h hhead
      rw [answers, answers]
      rw [advance] at htail
      generalize step s a = x at hrel
      generalize step' t a = y at hrel htail
      cases hrel with
      | none => rfl
      | some hxy =>
          rcases hxy with ⟨hout, hR⟩
          simp only [hout, ih hR htail]

/-- A property that can be decided for a step can be decided for a run. -/
instance decidableEveryStep [∀ s a, Decidable (P s a)] :
    (s : S) → (as : List A) → Decidable (EveryStep step P s as)
  | _, [] => inferInstanceAs (Decidable True)
  | s, a :: as =>
      have := decidableEveryStep (step s a) as
      inferInstanceAs (Decidable (P s a ∧ EveryStep step P (step s a) as))

/-- A property that holds of every action in every state holds along every run. -/
lemma everyStep_of_forall (hP : ∀ s a, P s a) (s : S) (as : List A) : EveryStep step P s as := by
  induction as generalizing s with
  | nil => exact trivial
  | cons a as ih => exact ⟨hP s a, ih (step s a)⟩

/-- A property of the actions alone holds along the run if it holds of all of them. -/
lemma everyStep_of_forall_mem {R : A → Prop} {as : List A} (hR : ∀ a ∈ as, R a) {s : S} :
    EveryStep step (fun _ a => R a) s as := by
  induction as generalizing s with
  | nil => exact trivial
  | cons a as ih =>
      exact ⟨hR a List.mem_cons_self, ih fun b hb => hR b (List.mem_cons_of_mem a hb)⟩

/-- **The run rule**, with a side condition `Q` on the steps: the invariant is kept, and the
property met, only by steps that meet it. -/
theorem everyStep_of_invariant (hstep : ∀ s a, I s → Q s a → P s a ∧ I (step s a)) :
    ∀ {s : S} {as : List A}, I s → EveryStep step Q s as → EveryStep step P s as := by
  intro s as hI hQ
  induction as generalizing s with
  | nil => exact trivial
  | cons a as ih =>
      rcases hQ with ⟨hhead, htail⟩
      rcases hstep s a hI hhead with ⟨hP, hI'⟩
      exact ⟨hP, ih hI' htail⟩

/-- **Two step properties that agree under an invariant** agree over every run from it; steps that
meet them keep the invariant. -/
theorem everyStep_congr (hkeep : ∀ s a, I s → P s a → I (step s a))
    (hiff : ∀ s a, I s → (P s a ↔ Q s a)) :
    ∀ {s : S} {as : List A}, I s → (EveryStep step P s as ↔ EveryStep step Q s as) := by
  intro s as hI
  constructor
  · refine everyStep_of_invariant ?_ hI
    intro s a hI hP
    exact ⟨(hiff s a hI).1 hP, hkeep s a hI hP⟩
  · refine everyStep_of_invariant ?_ hI
    intro s a hI hQ
    have hP := (hiff s a hI).2 hQ
    exact ⟨hP, hkeep s a hI hP⟩

end Runs
