import MinSeq.Core.Runs
import MinSeq.TextIO.ListSelection

/-!
# Does the redraw flag hide a stale screen?

`doListSelection` draws only when `redrawNeeded` is set.  That is sound if the screen shows what
drawing would put there whenever the flag is down.  Next to the object and its screen there runs a
reference that draws on every call, on a screen of its own; `Screens` is the pair.  The flag is set
by everything that changes the cursor, but not by `clearScreen`, which wipes the picture.

**What is compared** are the texts and colours in the cells, and the cursors that the two objects
store.  The cursors of the two terminals may differ, since only one of them has just drawn.

* **`sameAsReference_iff_redrawAfterClear`** — over every run on one list, the two screens show the
  same after each `doListSelection` and the stored cursors are the same, exactly when each clearing
  of the screen is followed by a move or a `markRedraw` before the next `doListSelection`, unless
  the list has nothing to show.
* `sameAsReference_not_always` — a clearing that is not followed by either leaves the screen blank.

The proof is a simulation: `Simulates` says that an object whose flag is down shows what drawing its
list again would show, or nothing if the screen was cleared.
-/

namespace MinSeq

open Cpp Runs

namespace TextIO

/-- **The reference**: its `doListSelection` ignores `redrawNeeded`, and every other call is the
same. -/
def callDrawing (t : TextIO) : Call (StdVector StdString) → TextIO × List Vt100
  | .doListSelection listToUse => t.drawListSelection listToUse
  | c => t.call c

/-- **None of the entries shown prints a character**, because the list is empty or its entries are,
so that a cleared screen is just what drawing would leave. -/
def ShowsNothing (t : TextIO) (listToUse : StdVector StdString) : Prop :=
  ∀ i < (numberElementsToPrint listToUse.size).toNatClampNeg,
    (listToUse.get (toSizeT (startToPrint listToUse.size t.cursorPosInList
      (numberElementsToPrint listToUse.size) + Int32.ofNat i))).cStr = []

end TextIO

/-- **The object with its screen, and the reference with its own.**  The last member is known to
neither of them. -/
structure Screens where
  io : TextIO
  screen : Terminal
  reference : TextIO
  referenceScreen : Terminal
  /-- Has the screen been cleared by `clearScreen` since the last `doListSelection`? -/
  cleared : Bool

namespace Screens

/-- Two objects are constructed, on terminals that show anything in any colours, not inverted. -/
def start (row col : ℤ) (foreground background : Int32) (grid : ℤ → ℤ → Option Cell) : Screens where
  io := .new
  screen := ⟨row, col, ⟨foreground, background, false⟩, grid⟩
  reference := .new
  referenceScreen := ⟨row, col, ⟨foreground, background, false⟩, grid⟩
  cleared := false

/-- **Both make the call**, with the one list, and each prints to its own screen. -/
def step (listToUse : StdVector StdString) (s : Screens) (c : Call Unit) : Screens where
  io := (s.io.call (c.map fun _ => listToUse)).1
  screen := s.screen.execAll (s.io.call (c.map fun _ => listToUse)).2
  reference := (s.reference.callDrawing (c.map fun _ => listToUse)).1
  referenceScreen :=
    s.referenceScreen.execAll (s.reference.callDrawing (c.map fun _ => listToUse)).2
  cleared :=
    match c with
    | .clearScreen => true
    | .doListSelection _ => false
    | _ => s.cleared

/-- **After a `doListSelection`** both show the same and store the same cursor. -/
def SameAsReference (listToUse : StdVector StdString) (s : Screens) : Call Unit → Prop
  | .doListSelection u =>
      (s.step listToUse (.doListSelection u)).screen.grid =
          (s.step listToUse (.doListSelection u)).referenceScreen.grid ∧
        (s.step listToUse (.doListSelection u)).io.getListCursorPos =
          (s.step listToUse (.doListSelection u)).reference.getListCursorPos
  | _ => True

/-- **Before a `doListSelection`**: if the screen was cleared, a redraw is due, or there is nothing
to show. -/
def RedrawAfterClear (listToUse : StdVector StdString) (s : Screens) : Call Unit → Prop
  | .doListSelection _ =>
      s.cleared = true → s.io.redrawNeeded = true ∨ s.io.ShowsNothing listToUse
  | _ => True

end Screens

/-! ## Drawing

What drawing a list does to a screen depends on nothing but the pen, and leaves the pen as it was.
So two screens show the same once the same list was drawn on both, whatever was on them before, and
drawing on one of them again changes nothing.
-/

namespace TextIO

open Terminal

variable {t : TextIO} {listToUse : StdVector StdString} {screen screen' : Terminal}

/-- One line leaves the pen as it was: the inversion is switched off again. -/
lemma pen_printEntry (hplain : screen.pen.inverted = false) (start i : Int32) :
    (screen.execAll (t.printEntry listToUse start i)).pen = screen.pen := by
  rcases screen with ⟨row, col, ⟨foreground, background, inverted⟩, grid⟩
  simp only at hplain
  subst hplain
  simp only [printEntry]
  split <;> simp [exec]

lemma pen_printEntries (start : Int32) (rows : List ℕ) :
    ∀ {screen : Terminal}, screen.pen.inverted = false →
      (screen.execAll (rows.flatMap fun i => t.printEntry listToUse start (Int32.ofNat i))).pen =
        screen.pen := by
  induction rows with
  | nil =>
      intro screen _
      rfl
  | cons i rows ih =>
      intro screen hplain
      have hentry :
          (screen.execAll (t.printEntry listToUse start (Int32.ofNat i))).pen = screen.pen :=
        pen_printEntry hplain start (Int32.ofNat i)
      rw [List.flatMap_cons, execAll_append, ih (hentry ▸ hplain), hentry]

lemma pen_printList (t : TextIO) (listToUse : StdVector StdString)
    (hplain : screen.pen.inverted = false) :
    (screen.execAll (t.printList listToUse)).pen = screen.pen := by
  have hclear : (screen.exec .clearScreen).pen.inverted = false := hplain
  simp only [printList, List.cons_append, execAll_cons, execAll_append, execAll_nil, pen_newline]
  rw [pen_printEntries _ _ hclear, pen_clearScreen]

lemma samePicture_printEntries (h : SamePicture screen screen') (start : Int32) (rows : List ℕ) :
    SamePicture
      (screen.execAll (rows.flatMap fun i => t.printEntry listToUse start (Int32.ofNat i)))
      (screen'.execAll (rows.flatMap fun i => t.printEntry listToUse start (Int32.ofNat i))) := by
  cases rows with
  | nil => exact h
  | cons i rows =>
      rw [List.flatMap_cons, execAll_append, execAll_append, printEntry, h.execAll_cursorMove]
      exact .refl _

/-- **What is drawn does not depend on the screen it is drawn on**, only on the pen. -/
lemma samePicture_printList (t : TextIO) (listToUse : StdVector StdString)
    (h : screen.pen = screen'.pen) :
    SamePicture (screen.execAll (t.printList listToUse))
      (screen'.execAll (t.printList listToUse)) := by
  simp only [printList, List.cons_append, execAll_cons, execAll_append, execAll_nil]
  exact (samePicture_printEntries (.clearScreen h) _ _).newline

/-- One line writes its entry and nothing else, so it leaves a mark unless the entry is empty. -/
lemma blank_printEntry (start i : Int32) :
    (screen.execAll (t.printEntry listToUse start i)).Blank ↔
      screen.Blank ∧ (listToUse.get (toSizeT (start + i))).cStr = [] := by
  simp only [printEntry]
  split <;> simp

lemma blank_printEntries (start : Int32) (rows : List ℕ) :
    ∀ {screen : Terminal},
      (screen.execAll (rows.flatMap fun i => t.printEntry listToUse start (Int32.ofNat i))).Blank ↔
        screen.Blank ∧ ∀ i ∈ rows, (listToUse.get (toSizeT (start + Int32.ofNat i))).cStr = [] := by
  induction rows with
  | nil => simp
  | cons i rows ih =>
      intro screen
      rw [List.flatMap_cons, execAll_append, ih, blank_printEntry, List.forall_mem_cons, and_assoc]

/-- **Drawing leaves the screen blank** exactly when there is nothing to show. -/
lemma blank_printList (t : TextIO) (listToUse : StdVector StdString) (screen : Terminal) :
    (screen.execAll (t.printList listToUse)).Blank ↔ t.ShowsNothing listToUse := by
  simp only [printList, List.cons_append, execAll_cons, execAll_append, execAll_nil, blank_newline,
    blank_printEntries, blank_clearScreen, true_and, List.mem_range, ShowsNothing]

end TextIO

namespace Screens

open TextIO Terminal

variable {listToUse : StdVector StdString} {s : Screens}

/-! ## The simulation

One lemma for the calls that ask for a redraw, and one each for the `doListSelection` that draws and
the one that does not.  Only the last of these can tell the object from the reference.
-/

/-- **The simulation.**  Apart from the flag the objects are the same.  Where no redraw is due the
cursor is clamped, and the screen shows what drawing would put there, or nothing if it was
cleared. -/
structure Simulates (listToUse : StdVector StdString) (s : Screens) : Prop where
  posX : s.io.posX = s.reference.posX
  posY : s.io.posY = s.reference.posY
  cursor : s.io.cursorPosInList = s.reference.cursorPosInList
  pen : s.screen.pen = s.referenceScreen.pen
  plain : s.screen.pen.inverted = false
  clamped : s.io.redrawNeeded = false →
    clampCursor listToUse.size s.io.cursorPosInList = s.io.cursorPosInList
  shown : s.io.redrawNeeded = false → s.cleared = false →
    s.screen.grid = (s.referenceScreen.execAll (s.io.printList listToUse)).grid
  blank : s.io.redrawNeeded = false → s.cleared = true → s.screen.Blank

/-- Two fresh objects are in step, whatever their terminals show, as both are about to draw. -/
lemma simulates_start (row col : ℤ) (foreground background : Int32) (grid : ℤ → ℤ → Option Cell) :
    Simulates listToUse (start row col foreground background grid) where
  posX := rfl
  posY := rfl
  cursor := rfl
  pen := rfl
  plain := rfl
  clamped := fun h => absurd (show new.redrawNeeded = false from h) (by decide)
  shown := fun h => absurd (show new.redrawNeeded = false from h) (by decide)
  blank := fun h => absurd (show new.redrawNeeded = false from h) (by decide)

namespace Simulates

/-- The calls that ask for a redraw put the two in step whatever the screens show, as long as they
leave the same cursor. -/
lemma of_redraw {s' : Screens} (h : Simulates listToUse s) (hredraw : s'.io.redrawNeeded = true)
    (hposX : s'.io.posX = s.io.posX ∧ s'.reference.posX = s.reference.posX)
    (hposY : s'.io.posY = s.io.posY ∧ s'.reference.posY = s.reference.posY)
    (hcursor : s'.io.cursorPosInList = s'.reference.cursorPosInList)
    (hscreen : s'.screen = s.screen ∧ s'.referenceScreen = s.referenceScreen) :
    Simulates listToUse s' where
  posX := by rw [hposX.1, hposX.2, h.posX]
  posY := by rw [hposY.1, hposY.2, h.posY]
  cursor := hcursor
  pen := by rw [hscreen.1, hscreen.2, h.pen]
  plain := by rw [hscreen.1, h.plain]
  clamped := fun hflag => absurd (hredraw.symm.trans hflag) (by decide)
  shown := fun hflag => absurd (hredraw.symm.trans hflag) (by decide)
  blank := fun hflag => absurd (hredraw.symm.trans hflag) (by decide)

/-- Both objects store the same cursor and would print the same. -/
lemma storeCursor_eq (h : Simulates listToUse s) :
    s.io.storeCursor listToUse = s.reference.storeCursor listToUse := by
  simp only [storeCursor, h.posX, h.posY, h.cursor]

/-- A call that draws: both objects end up the same and print the same. -/
lemma step_of_redraw (h : Simulates listToUse s) (hredraw : s.io.redrawNeeded = true) (u : Unit) :
    s.step listToUse (.doListSelection u) =
      { io := s.io.storeCursor listToUse
        screen := s.screen.execAll ((s.io.storeCursor listToUse).printList listToUse)
        reference := s.io.storeCursor listToUse
        referenceScreen :=
          s.referenceScreen.execAll ((s.io.storeCursor listToUse).printList listToUse)
        cleared := false } := by
  simp only [step, Call.map, call, callDrawing, doListSelection_of_redraw hredraw,
    drawListSelection,
    h.storeCursor_eq]

/-- A call that returns early: only the reference draws. -/
lemma step_of_not_redraw (h : Simulates listToUse s) (hredraw : s.io.redrawNeeded = false)
    (u : Unit) :
    s.step listToUse (.doListSelection u) =
      { io := s.io
        screen := s.screen
        reference := s.io
        referenceScreen := s.referenceScreen.execAll (s.io.printList listToUse)
        cleared := false } := by
  have hstore : s.io.storeCursor listToUse = s.io := by
    simp only [storeCursor, h.clamped hredraw, ← hredraw]
  simp only [step, Call.map, call, callDrawing, doListSelection_of_not_redraw hredraw,
    drawListSelection, ← h.storeCursor_eq, hstore, execAll_nil]

/-- **A `doListSelection` shows what the reference shows** exactly when it meets the condition. -/
lemma sameAsReference_iff (h : Simulates listToUse s) (u : Unit) :
    SameAsReference listToUse s (.doListSelection u) ↔
      RedrawAfterClear listToUse s (.doListSelection u) := by
  cases hredraw : s.io.redrawNeeded with
  | true =>
      have hpicture := samePicture_printList (s.io.storeCursor listToUse) listToUse h.pen
      simp [SameAsReference, RedrawAfterClear, h.step_of_redraw hredraw u, hredraw, hpicture.grid]
  | false =>
      simp only [SameAsReference, RedrawAfterClear, h.step_of_not_redraw hredraw u, hredraw,
        Bool.false_eq_true, false_or, and_true]
      cases hcleared : s.cleared with
      | false => simp [h.shown hredraw hcleared]
      | true =>
          have hblank : s.screen.grid = fun _ _ => none := h.blank hredraw hcleared
          rw [← blank_printList _ _ s.referenceScreen, hblank]
          simp only [true_implies]
          exact eq_comm

lemma doListSelection (h : Simulates listToUse s) (u : Unit)
    (hsame : SameAsReference listToUse s (.doListSelection u)) :
    Simulates listToUse (s.step listToUse (.doListSelection u)) := by
  rcases hsame with ⟨hgrid, -⟩
  cases hredraw : s.io.redrawNeeded with
  | true =>
      have hpicture := samePicture_printList (s.io.storeCursor listToUse) listToUse h.pen
      have hpen := pen_printList (s.io.storeCursor listToUse) listToUse h.plain
      have hagain := samePicture_printList (s.io.storeCursor listToUse) listToUse
        (hpen.symm.trans hpicture.pen)
      rw [h.step_of_redraw hredraw u]
      refine ⟨rfl, rfl, rfl, hpicture.pen, ?_, ?_, ?_, ?_⟩
      · simp only [hpen, h.plain]
      · intro _
        simp only [storeCursor, clampCursor_clampCursor]
      · intro _ _
        exact hagain.grid
      · intro _ hcleared
        exact absurd hcleared Bool.false_ne_true
  | false =>
      have hpen := pen_printList s.io listToUse (h.pen ▸ h.plain)
      have hagain := samePicture_printList s.io listToUse hpen.symm
      rw [h.step_of_not_redraw hredraw u] at hgrid ⊢
      refine ⟨rfl, rfl, rfl, h.pen.trans hpen.symm, h.plain, h.clamped, ?_, ?_⟩
      · intro _ _
        exact hgrid.trans hagain.grid
      · intro _ hcleared
        exact absurd hcleared Bool.false_ne_true

/-- **One call.** -/
lemma step (h : Simulates listToUse s) (c : Call Unit) (hsame : SameAsReference listToUse s c) :
    Simulates listToUse (s.step listToUse c) := by
  cases c with
  | moveCursorUp =>
      exact h.of_redraw rfl ⟨rfl, rfl⟩ ⟨rfl, rfl⟩ (congrArg (· - 1) h.cursor) ⟨rfl, rfl⟩
  | moveCursorDown =>
      exact h.of_redraw rfl ⟨rfl, rfl⟩ ⟨rfl, rfl⟩ (congrArg (· + 1) h.cursor) ⟨rfl, rfl⟩
  | markRedraw => exact h.of_redraw rfl ⟨rfl, rfl⟩ ⟨rfl, rfl⟩ h.cursor ⟨rfl, rfl⟩
  | setCursor x y =>
      refine ⟨h.posX, h.posY, h.cursor, h.pen, h.plain, h.clamped, ?_, h.blank⟩
      intro hredraw hcleared
      show s.screen.grid =
        ((s.referenceScreen.exec (.cursorMove y x)).execAll (s.io.printList listToUse)).grid
      have hpen : s.referenceScreen.pen = (s.referenceScreen.exec (.cursorMove y x)).pen := rfl
      exact (h.shown hredraw hcleared).trans (samePicture_printList _ _ hpen).grid
  | clearScreen =>
      -- the picture is gone, and only `cleared` knows
      refine ⟨h.posX, h.posY, h.cursor, h.pen, h.plain, h.clamped, ?_, ?_⟩
      · intro _ hcleared
        exact absurd hcleared (by simp [Screens.step])
      · intro _ _
        exact blank_clearScreen _
  | doListSelection u => exact h.doListSelection u hsame

end Simulates

/-! ## Runs -/

/-- **When the redraw flag hides nothing**, over every run on one list from a terminal that shows
anything. -/
theorem sameAsReference_iff_redrawAfterClear (listToUse : StdVector StdString) (row col : ℤ)
    (foreground background : Int32) (grid : ℤ → ℤ → Option Cell) (calls : List (Call Unit)) :
    EveryStep (step listToUse) (SameAsReference listToUse)
        (start row col foreground background grid) calls ↔
      EveryStep (step listToUse) (RedrawAfterClear listToUse)
        (start row col foreground background grid) calls := by
  refine everyStep_congr (I := Simulates listToUse) (fun _ c h hsame => h.step c hsame) ?_
    (simulates_start row col foreground background grid)
  intro s c h
  cases c with
  | doListSelection u => exact h.sameAsReference_iff u
  | _ => exact Iff.rfl

/-- **A clearing alone** leaves the screen blank where the reference shows the list. -/
theorem sameAsReference_not_always :
    ¬ EveryStep (step (.ofList [[97]])) (SameAsReference (.ofList [[97]]))
      (start 1 1 7 0 fun _ _ => none)
      [.doListSelection (), .clearScreen, .doListSelection ()] := by
  rintro ⟨-, -, ⟨hgrid, -⟩, -⟩
  have hcell := congrFun (congrFun hgrid 1) 1
  exact absurd hcell (by decide)

end Screens

end MinSeq
