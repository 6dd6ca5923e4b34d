import MinSeq.Core.Runs
import MinSeq.TextIO.ListSelection

/-!
# Is the list cursor an index of the list?

`getListCursorPos` hands out the cursor unchecked and relies on `doListSelection` for its bounds.
Two calls do not enforce them: one that returns early, whatever has become of the list since the
cursor was clamped, and one that draws an empty list, whose bound `size() - 1` is no bound.

* **`cursorInList_iff_covered`** — over a run of calls on a constructed object, of any length and
  with a list of its own for each `doListSelection`, the cursor is an index of the list after every
  `doListSelection` exactly when every such call meets `Covered`.
* `cursorInList_not_always` — a run for each of the two calls.

The invariant is `Settled`: no move is pending and so the cursor is not negative.
-/

namespace MinSeq

open Cpp Runs

namespace TextIO

/-- The object's part of a call. -/
def next (t : TextIO) (c : Call (StdVector StdString)) : TextIO := (t.call c).1

/-- **The position is an index** of a list of that size, or 0 where the list is empty. -/
def IsIndex (size : UInt64) (pos : Int32) : Prop :=
  if size.toNat = 0 then pos.toInt = 0 else 0 ≤ pos.toInt ∧ pos.toInt < size.toNat

/-- **After a `doListSelection`** the cursor is an index of the list. -/
def CursorInList (t : TextIO) : Call (StdVector StdString) → Prop
  | .doListSelection listToUse =>
      IsIndex listToUse.size (t.doListSelection listToUse).1.getListCursorPos
  | _ => True

/-- **Before a `doListSelection`**: a call that draws an empty list finds no cursor above 0, and a
call that returns early gets a list that still reaches past the cursor, the empty list counting as
one entry. -/
def Covered (t : TextIO) : Call (StdVector StdString) → Prop
  | .doListSelection listToUse =>
      if t.redrawNeeded = true then listToUse.size.toNat = 0 → t.cursorPosInList.toInt ≤ 0
      else t.cursorPosInList.toInt < max 1 listToUse.size.toNat
  | _ => True

instance (size : UInt64) (pos : Int32) : Decidable (IsIndex size pos) :=
  inferInstanceAs (Decidable (ite _ _ _))

instance (t : TextIO) : (c : Call (StdVector StdString)) → Decidable (t.CursorInList c)
  | .doListSelection _ => inferInstanceAs (Decidable (IsIndex _ _))
  | .moveCursorUp | .moveCursorDown | .setCursor _ _ | .clearScreen | .markRedraw =>
      inferInstanceAs (Decidable True)

/-- **No move is pending, and so the cursor was clamped** and is not negative: what every call
leaves behind that does not ask for a redraw. -/
def Settled (t : TextIO) : Prop := t.redrawNeeded = false → 0 ≤ t.cursorPosInList.toInt

variable {t : TextIO} {listToUse : StdVector StdString}

lemma settled_new : new.Settled := by
  intro h
  exact absurd h (by decide)

lemma Settled.of_redraw (h : t.redrawNeeded = true) : t.Settled := by
  intro hfalse
  exact absurd (h.symm.trans hfalse) (by decide)

/-- A move asks for a redraw, and a call that draws leaves a clamped cursor. -/
lemma Settled.next (h : t.Settled) (c : Call (StdVector StdString)) : (t.next c).Settled := by
  cases c with
  | moveCursorUp => exact .of_redraw rfl
  | moveCursorDown => exact .of_redraw rfl
  | setCursor x y => exact h
  | clearScreen => exact h
  | markRedraw => exact .of_redraw rfl
  | doListSelection listToUse =>
      cases hflag : t.redrawNeeded with
      | false =>
          show (t.doListSelection listToUse).1.Settled
          rw [doListSelection_of_not_redraw hflag]
          exact h
      | true =>
          show (t.doListSelection listToUse).1.Settled
          rw [doListSelection_of_redraw hflag]
          intro _
          exact toInt_clampCursor_nonneg _ _

/-- **One call**, from a settled object: the three cases are a call that returns early, one that
draws an empty list and one that draws any other. -/
lemma cursorInList_iff (h : t.Settled) (c : Call (StdVector StdString)) :
    t.CursorInList c ↔ t.Covered c := by
  cases c with
  | doListSelection listToUse =>
      simp only [CursorInList, IsIndex, Covered, getListCursorPos]
      cases hflag : t.redrawNeeded with
      | false =>
          -- the early return: nothing looks at the list
          have hnonneg := h hflag
          simp only [doListSelection_of_not_redraw hflag, Bool.false_eq_true, if_false]
          split <;> omega
      | true =>
          simp only [doListSelection_of_redraw hflag, drawListSelection, storeCursor, if_true]
          split
          · rename_i hempty
            rw [toInt_clampCursor_of_empty hempty]
            omega
          · rename_i hsize
            rw [toInt_clampCursor (Nat.pos_of_ne_zero hsize)]
            omega
  | _ => exact Iff.rfl

/-- **When the cursor is an index of the list** after every `doListSelection` of a run. -/
theorem cursorInList_iff_covered (calls : List (Call (StdVector StdString))) :
    EveryStep next CursorInList new calls ↔ EveryStep next Covered new calls :=
  everyStep_congr (fun _ c h _ => h.next c) (fun _ c h => cursorInList_iff h c) settled_new

/-- A list of two entries shrinks to one while no redraw is asked for; and the cursor is moved down
in an empty list. -/
theorem cursorInList_not_always :
    ¬ EveryStep next CursorInList new
        [.doListSelection (.ofList [[97], [98]]), .moveCursorDown,
          .doListSelection (.ofList [[97], [98]]), .doListSelection (.ofList [[97]])] ∧
      ¬ EveryStep next CursorInList new [.moveCursorDown, .doListSelection (.ofList [])] := by
  decide

end TextIO

end MinSeq
