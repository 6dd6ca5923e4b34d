import Mathlib.Data.Option.Basic
import Mathlib.Logic.Function.Basic
import MinSeq.Core.Runs

/-!
# Does a `ValOrErr` ever drop an error?

`ValOrErr` of `utils/valorerr.h` holds a value or an error and asserts, when it is destroyed, that
its error was looked at.  A function returns one instead of a value, and whoever ignores what it
returns is told so at the end of the object's life.  The class has no copy members of its own, so a
copy takes over `mErrorIsHandled` with the rest, and an assignment overwrites whatever the target
held.

**Histories.**  A run creates, copies, uses and destroys any number of objects.  Beside each object
stands its history (`Tracked`), which the code does not have: was `getErrorState` called on it since
it came to hold what it holds, and had it been called further up the chain of copies before?  An
error is dropped if nobody asked the object that holds it and no assertion fails.

**Assertions** are lists of the messages they report, as the class goes on where a failing assertion
does not stop the program.

* **`errorKept_iff_noneTakenOver`** — over every run, in both modes, no unchecked error is dropped
  exactly when every step meets `NoneTakenOver`.
* `errorKept_not_always` — an error that is checked and passed on, and an error that is assigned
  over.
-/

namespace MinSeq

open Runs

/-- **The members**; `mErrorString` is the text it points to.  All four are copied by the implicit
copy members. -/
structure ValOrErr (T : Type) where
  mValue : T
  mIsInErrorState : Bool
  mErrorIsHandled : Bool
  mErrorString : String

namespace ValOrErr

variable {T : Type}

/-- The constructor; `mValue` is what the default initialisation of a `T` leaves. -/
def new (mValue : T) : ValOrErr T := ⟨mValue, false, false, "no error"⟩

/-- **The destructor**, by the value of `STRICT_MODE`.  A failing assertion reports its message.
With 0 it fails on every object that was never asked, also on one without an error. -/
def destroy (strictMode : ℕ) (v : ValOrErr T) : List String :=
  if strictMode = 0 then
    if v.mErrorIsHandled = false then ["error not checked!"] else []
  else
    if v.mIsInErrorState = true ∧ v.mErrorIsHandled = false then ["error not checked!"] else []

/-- An error over an error that is there already is reported, but taken. -/
def enterErrorState (v : ValOrErr T) (errorString : String) : ValOrErr T × List String :=
  ({ v with mIsInErrorState := true, mErrorIsHandled := false, mErrorString := errorString },
    if v.mIsInErrorState then ["signaling an error and already in error state!"] else [])

/-- To ask for the state is what counts as looking at the error, whatever is done with the
answer. -/
def getErrorState (v : ValOrErr T) : ValOrErr T × Bool :=
  ({ v with mErrorIsHandled := true }, v.mIsInErrorState)

def getErrorString (v : ValOrErr T) : String := v.mErrorString

def setValue (v : ValOrErr T) (value : T) : ValOrErr T := { v with mValue := value }

/-- The value is returned in any case; in the error state that is reported. -/
def valueOrDie (v : ValOrErr T) : T × List String :=
  (v.mValue, if v.mIsInErrorState = false then [] else ["Error set but value requested"])

end ValOrErr

/-! ## Runs over many objects -/

/-- An object with its history. -/
structure Tracked (T : Type) where
  object : ValOrErr T
  /-- Was `getErrorState` called on this object since it came to hold what it holds? -/
  asked : Bool
  /-- Had it been called on the object this one was copied from, or further back, before the
  copy? -/
  askedBefore : Bool

namespace Tracked

variable {T : Type}

/-- **The implicit copy members** copy every member, and with them the flag that says whether the
error was looked at. -/
def copy (src : Tracked T) : Tracked T := ⟨src.object, false, src.asked || src.askedBefore⟩

/-- A new error is one that nobody has asked for. -/
def enterErrorState (o : Tracked T) (errorString : String) : Tracked T :=
  ⟨(o.object.enterErrorState errorString).1, false, false⟩

def getErrorState (o : Tracked T) : Tracked T := ⟨o.object.getErrorState.1, true, o.askedBefore⟩

def setValue (o : Tracked T) (value : T) : Tracked T := { o with object := o.object.setValue value }

/-- **The flag against the history**: it remembers every question along the chain of copies, not
only those to the object itself. -/
def Consistent (o : Tracked T) : Prop := o.object.mErrorIsHandled = (o.asked || o.askedBefore)

variable {o : Tracked T}

lemma Consistent.new (mValue : T) : Consistent ⟨.new mValue, false, false⟩ := rfl

/-- A copy has the flag of its source, and its history behind it. -/
lemma Consistent.copy (h : o.Consistent) : o.copy.Consistent := by
  simpa [Consistent, Tracked.copy] using h

lemma Consistent.enterErrorState (o : Tracked T) (errorString : String) :
    (o.enterErrorState errorString).Consistent := rfl

lemma Consistent.getErrorState (o : Tracked T) : o.getErrorState.Consistent := rfl

lemma Consistent.setValue (h : o.Consistent) (value : T) : (o.setValue value).Consistent := h

/-- **The destructor of an unasked object in the error state** fails its assertion exactly when
nobody was asked before the copy. -/
lemma Consistent.mem_destroy_iff (h : o.Consistent) (strictMode : ℕ)
    (herror : o.object.mIsInErrorState = true) (hasked : o.asked = false) :
    "error not checked!" ∈ o.object.destroy strictMode ↔ o.askedBefore = false := by
  have hhandled : o.object.mErrorIsHandled = o.askedBefore := by
    rw [h, hasked, Bool.false_or]
  cases hbefore : o.askedBefore <;> simp [ValOrErr.destroy, hhandled, herror, hbefore]

end Tracked

/-- **The objects alive**, by name. -/
abbrev Objects (ι T : Type) := ι → Option (Tracked T)

/-- **What a program does with its objects.**  Every public function, and the implicit copy
members. -/
inductive Event (ι T : Type) where
  | construct (i : ι) (mValue : T)
  | copyConstruct (i src : ι)
  | copyAssign (i src : ι)
  | enterErrorState (i : ι) (errorString : String)
  | getErrorState (i : ι)
  | getErrorString (i : ι)
  | setValue (i : ι) (value : T)
  | valueOrDie (i : ι)
  | destroy (i : ι)

namespace Objects

variable {ι T : Type} [DecidableEq ι]

/-- A new object, under a name that is free. -/
def create (objects : Objects ι T) (i : ι) (o : Tracked T) : Objects ι T :=
  if objects i = none then Function.update objects i (some o) else objects

def modify (objects : Objects ι T) (i : ι) (f : Tracked T → Tracked T) : Objects ι T :=
  Function.update objects i ((objects i).map f)

/-- The objects after an event.  Nothing happens where an object that the event needs is not alive,
or one that it creates is. -/
def after (objects : Objects ι T) : Event ι T → Objects ι T
  | .construct i mValue => objects.create i ⟨.new mValue, false, false⟩
  | .copyConstruct i src =>
      match objects src with
      | some o => objects.create i o.copy
      | none => objects
  | .copyAssign i src =>
      match objects src with
      | some o => if i = src then objects else objects.modify i fun _ => o.copy
      | none => objects
  | .enterErrorState i errorString => objects.modify i (·.enterErrorState errorString)
  | .getErrorState i => objects.modify i (·.getErrorState)
  | .setValue i value => objects.modify i (·.setValue value)
  | .getErrorString _ | .valueOrDie _ => objects
  | .destroy i => Function.update objects i none

/-- **The assertions that an event fails.**  Copying reports nothing, and neither does an
assignment. -/
def reports (strictMode : ℕ) (objects : Objects ι T) : Event ι T → List String
  | .enterErrorState i errorString =>
      (objects i).elim [] fun o => (o.object.enterErrorState errorString).2
  | .valueOrDie i => (objects i).elim [] fun o => o.object.valueOrDie.2
  | .destroy i => (objects i).elim [] fun o => o.object.destroy strictMode
  | _ => []

/-- **No unchecked error is dropped**: an object destroyed with one fails its assertion, and
assigning another object over one fails some assertion. -/
def ErrorKept (strictMode : ℕ) (objects : Objects ι T) : Event ι T → Prop
  | .destroy i =>
      ∀ o ∈ objects i, o.object.mIsInErrorState = true → o.asked = false →
        "error not checked!" ∈ objects.reports strictMode (.destroy i)
  | .copyAssign i src =>
      i ≠ src → objects src ≠ none →
        ∀ o ∈ objects i, o.object.mIsInErrorState = true → o.asked = false →
          objects.reports strictMode (.copyAssign i src) ≠ []
  | _ => True

/-- **No unchecked error is taken over**: an object that is destroyed unasked does not hold an error
that had been asked for before it was copied here, and nothing is assigned over an error that was
not asked for. -/
def NoneTakenOver (objects : Objects ι T) : Event ι T → Prop
  | .destroy i =>
      ∀ o ∈ objects i, o.object.mIsInErrorState = true → o.asked = false → o.askedBefore = false
  | .copyAssign i src =>
      i ≠ src → objects src ≠ none →
        ∀ o ∈ objects i, o.object.mIsInErrorState = true → o.asked = true
  | _ => True

/-! ## The invariant -/

/-- Every object alive is consistent. -/
def Consistent (objects : Objects ι T) : Prop := ∀ i, ∀ o ∈ objects i, o.Consistent

variable {objects : Objects ι T} {i : ι}

namespace Consistent

omit [DecidableEq ι] in
/-- Before anything is constructed there is nothing to be inconsistent. -/
lemma none_alive : Consistent (fun _ : ι => (none : Option (Tracked T))) := by
  intro i o ho
  simp at ho

/-- Only one object changes. -/
lemma update (h : objects.Consistent) {new : Option (Tracked T)} (hnew : ∀ o ∈ new, o.Consistent) :
    Consistent (Function.update objects i new) := by
  intro k o ho
  by_cases hk : k = i
  · subst hk
    rw [Function.update_self] at ho
    exact hnew o ho
  · rw [Function.update_of_ne hk] at ho
    exact h k o ho

lemma create (h : objects.Consistent) {o : Tracked T} (ho : o.Consistent) :
    (objects.create i o).Consistent := by
  simp only [Objects.create]
  split
  · refine h.update ?_
    rintro _ ⟨⟩
    exact ho
  · exact h

lemma modify (h : objects.Consistent) {f : Tracked T → Tracked T}
    (hf : ∀ o : Tracked T, o.Consistent → (f o).Consistent) : (objects.modify i f).Consistent := by
  refine h.update ?_
  intro o ho
  rcases Option.mem_map.1 ho with ⟨old, hold, rfl⟩
  exact hf old (h i old hold)

lemma after (h : objects.Consistent) (e : Event ι T) : (objects.after e).Consistent := by
  cases e with
  | construct i mValue => exact h.create (.new mValue)
  | copyConstruct i src =>
      simp only [Objects.after]
      split
      · rename_i o ho
        exact h.create (h src o ho).copy
      · exact h
  | copyAssign i src =>
      simp only [Objects.after]
      split
      · rename_i o ho
        split
        · exact h
        · exact h.modify fun _ _ => (h src o ho).copy
      · exact h
  | enterErrorState i errorString => exact h.modify fun o _ => .enterErrorState o errorString
  | getErrorState i => exact h.modify fun o _ => .getErrorState o
  | getErrorString i => exact h
  | setValue i value => exact h.modify fun _ ho => ho.setValue value
  | valueOrDie i => exact h
  | destroy i =>
      refine h.update ?_
      intro o ho
      simp at ho

end Consistent

omit [DecidableEq ι] in
/-- One event: no assertion stands in the way of an assignment, and one stands in the way of the end
of an object. -/
lemma errorKept_iff (h : objects.Consistent) (strictMode : ℕ) (e : Event ι T) :
    objects.ErrorKept strictMode e ↔ objects.NoneTakenOver e := by
  cases e with
  | destroy i =>
      simp only [ErrorKept, NoneTakenOver]
      refine forall₄_congr ?_
      intro o ho herror hasked
      have hreports : objects.reports strictMode (.destroy i) = o.object.destroy strictMode := by
        rw [reports, Option.mem_def.1 ho]
        rfl
      rw [hreports]
      exact (h i o ho).mem_destroy_iff strictMode herror hasked
  | copyAssign i src => simp [ErrorKept, NoneTakenOver, reports]
  | _ => exact Iff.rfl

/-- **When no unchecked error is dropped** in a run that starts with no objects, for either value of
`STRICT_MODE`. -/
theorem errorKept_iff_noneTakenOver (strictMode : ℕ) (events : List (Event ι T)) :
    EveryStep after (ErrorKept strictMode) (fun _ => none) events ↔
      EveryStep after NoneTakenOver (fun _ => none) events :=
  everyStep_congr (fun _ e h _ => h.after e) (fun _ e h => errorKept_iff h strictMode e) .none_alive

/-- An error is asked for and then passed on by a copy, which is ignored. -/
def passedOn : List (Event ℕ ℕ) :=
  [.construct 0 0, .enterErrorState 0 "no such file", .getErrorState 0, .copyConstruct 1 0,
    .destroy 1]

/-- A fresh object is assigned over an error. -/
def assignedOver : List (Event ℕ ℕ) :=
  [.construct 0 0, .enterErrorState 0 "no such file", .construct 1 0, .copyAssign 0 1]

/-- The copy holds an error that nobody has asked it for, and is destroyed without a word. -/
lemma passedOn_not_errorKept (strictMode : ℕ) :
    ¬ EveryStep after (ErrorKept strictMode) (fun _ => none) passedOn := by
  rintro ⟨-, -, -, -, hkept, -⟩
  have hreport :
      "error not checked!" ∈ ValOrErr.destroy strictMode ⟨0, true, true, "no such file"⟩ :=
    hkept _ rfl rfl rfl
  simp [ValOrErr.destroy] at hreport

/-- The error is gone, and nobody has asked for it. -/
lemma assignedOver_not_errorKept (strictMode : ℕ) :
    ¬ EveryStep after (ErrorKept strictMode) (fun _ => none) assignedOver := by
  rintro ⟨-, -, -, hkept, -⟩
  exact hkept (by decide) nofun _ rfl rfl rfl rfl

/-- **Both drop an unchecked error**, with `STRICT_MODE` 0 and with 1. -/
theorem errorKept_not_always :
    (¬ EveryStep after (ErrorKept 0) (fun _ => none) passedOn ∧
        ¬ EveryStep after (ErrorKept 0) (fun _ => none) assignedOver) ∧
      ¬ EveryStep after (ErrorKept 1) (fun _ => none) passedOn ∧
        ¬ EveryStep after (ErrorKept 1) (fun _ => none) assignedOver :=
  ⟨⟨passedOn_not_errorKept 0, assignedOver_not_errorKept 0⟩,
    passedOn_not_errorKept 1, assignedOver_not_errorKept 1⟩

end Objects

end MinSeq
