import MinSeq.TextIO.Vt100

/-!
# `TextIO` and its list selection

The class `TextIO` of `utils/textio.h` keeps a cursor into a list that its callers pass in anew with
each call, and a flag that says whether the list has to be drawn again.  Every call prints; a
function that prints returns what it printed.  The window size that the constructor asks the system
for is read by nothing here.

**Mixed arithmetic.**  The cursor is an `int` and the size of a list a `size_t`, and the source
compares and subtracts the one from the other as it comes.  An `int` becomes a `size_t` by sign
extension and a `size_t` an `int` by cutting it to 32 bits; `toSizeT` and `toInt` stand wherever the
source converts.  So a negative cursor is a very large one in a comparison with a size, and the size
of an empty list, less one, is the largest there is.

`doListSelection` is cut into the cursor's clamping, the choice of the rows to show and one row's
output.  `Call` is a call of one of the public functions, and `TextIO.call` makes it.
-/

namespace MinSeq

open Cpp

/-- **The members that the functions below read.**  The position of the list is set by the
constructor and by nothing after it. -/
structure TextIO where
  posX : Int32
  posY : Int32
  cursorPosInList : Int32
  redrawNeeded : Bool
  deriving DecidableEq

namespace TextIO

def markRedraw (t : TextIO) : TextIO := { t with redrawNeeded := true }

/-- The constructor: the cursor on the first entry, and a redraw due. -/
def new : TextIO :=
  markRedraw { posX := 1, posY := 1, cursorPosInList := 0, redrawNeeded := false }

/-- The move is not checked against the list, as there is none to check it against until the next
`doListSelection`. -/
def moveCursorUp (t : TextIO) : TextIO :=
  markRedraw { t with cursorPosInList := t.cursorPosInList - 1 }

def moveCursorDown (t : TextIO) : TextIO :=
  markRedraw { t with cursorPosInList := t.cursorPosInList + 1 }

/-- Takes `(x, y)`; the macro takes `(y, x)`.  It moves the cursor of the terminal, and not the one
in the list. -/
def setCursor (x y : Int32) : List Vt100 := [.cursorMove y x]

def clearScreen : List Vt100 := [.clearScreen]

def getListCursorPos (t : TextIO) : Int32 := t.cursorPosInList

/-! ## `doListSelection` -/

/-- **The two checks of the cursor.**  The second compares as `size_t`, so with an empty list the
bound `size() - 1` is the largest `size_t` there is. -/
def clampCursor (size : UInt64) (cursorPosInList : Int32) : Int32 :=
  let cursorPosInList := if cursorPosInList < 0 then 0 else cursorPosInList
  if toSizeT cursorPosInList > size - 1 then toInt (size - 1) else cursorPosInList

def numberVisibleListElements : Int32 := 5

def numberElementsToPrint (size : UInt64) : Int32 :=
  if size < toSizeT numberVisibleListElements then toInt size else numberVisibleListElements

/-- **The first row to show.**  The correction for the end of the list is computed as a `size_t` and
cut back to an `int`, and the last line undoes a negative start. -/
def startToPrint (size : UInt64) (cursorPosInList numberElementsToPrint : Int32) : Int32 :=
  let startToPrint := cursorPosInList - numberElementsToPrint / 2
  let startToPrint :=
    if toSizeT (startToPrint + numberElementsToPrint) > size then
      toInt (toSizeT startToPrint - (toSizeT (startToPrint + numberElementsToPrint) - size))
    else startToPrint
  if startToPrint < 0 then 0 else startToPrint

/-- **The body of the loop**: one row, inverted if it is the selected one. -/
def printEntry (t : TextIO) (listToUse : StdVector StdString) (startToPrint i : Int32) :
    List Vt100 :=
  .cursorMove (t.posY + i) t.posX ::
    ((if startToPrint + i = t.cursorPosInList then [.enableInvert] else []) ++
      [.text (listToUse.get (toSizeT (startToPrint + i))).cStr] ++
      (if startToPrint + i = t.cursorPosInList then [.disableInvert] else []))

/-- **What is printed once the cursor is clamped.**  The newline at the end is there to flush the
output. -/
def printList (t : TextIO) (listToUse : StdVector StdString) : List Vt100 :=
  let count := numberElementsToPrint listToUse.size
  let start := startToPrint listToUse.size t.cursorPosInList count
  .clearScreen ::
    (List.range count.toNatClampNeg).flatMap
        (fun i => t.printEntry listToUse start (Int32.ofNat i)) ++
    [.newline]

/-- What is stored before anything of the list is printed. -/
def storeCursor (t : TextIO) (listToUse : StdVector StdString) : TextIO :=
  { t with
    redrawNeeded := false
    cursorPosInList := clampCursor listToUse.size t.cursorPosInList }

/-- The part of `doListSelection` behind its early return: the object first, and then the output. -/
def drawListSelection (t : TextIO) (listToUse : StdVector StdString) : TextIO × List Vt100 :=
  (t.storeCursor listToUse, (t.storeCursor listToUse).printList listToUse)

/-- **`doListSelection`** returns early when no redraw is due, before it has looked at the list at
all. -/
def doListSelection (t : TextIO) (listToUse : StdVector StdString) : TextIO × List Vt100 :=
  if t.redrawNeeded = false then (t, []) else t.drawListSelection listToUse

/-! ## Calls -/

end TextIO

/-- A call of one of `TextIO`'s public functions, with a list of type `α` to select from. -/
inductive Call (α : Type) where
  | moveCursorUp
  | moveCursorDown
  | setCursor (x y : Int32)
  | clearScreen
  | markRedraw
  | doListSelection (listToUse : α)

/-- The call with another list. -/
def Call.map {α β : Type} (f : α → β) : Call α → Call β
  | .moveCursorUp => .moveCursorUp
  | .moveCursorDown => .moveCursorDown
  | .setCursor x y => .setCursor x y
  | .clearScreen => .clearScreen
  | .markRedraw => .markRedraw
  | .doListSelection listToUse => .doListSelection (f listToUse)

namespace TextIO

/-- The object after the call, and what the call printed. -/
def call (t : TextIO) : Call (StdVector StdString) → TextIO × List Vt100
  | .moveCursorUp => (t.moveCursorUp, [])
  | .moveCursorDown => (t.moveCursorDown, [])
  | .setCursor x y => (t, setCursor x y)
  | .clearScreen => (t, clearScreen)
  | .markRedraw => (t.markRedraw, [])
  | .doListSelection listToUse => t.doListSelection listToUse

variable {t : TextIO} {listToUse : StdVector StdString}

lemma doListSelection_of_redraw (h : t.redrawNeeded = true) :
    t.doListSelection listToUse = t.drawListSelection listToUse := by
  simp [doListSelection, h]

lemma doListSelection_of_not_redraw (h : t.redrawNeeded = false) :
    t.doListSelection listToUse = (t, []) := by
  simp [doListSelection, h]

/-! ## The clamped cursor -/

lemma toInt_floor (c : Int32) : (if c < 0 then 0 else c).toInt = max 0 c.toInt := by
  have hneg : c < 0 ↔ c.toInt < 0 := by rw [Int32.lt_iff_toInt_lt, Int32.toInt_zero]
  by_cases h : c < 0
  · rw [if_pos h, Int32.toInt_zero]
    rw [hneg] at h
    omega
  · rw [if_neg h]
    rw [hneg] at h
    omega

/-- **The cursor is clamped into a list that is not empty**, whatever its length: a list that does
not fit in an `int` never gets to the narrowing. -/
lemma toInt_clampCursor {size : UInt64} (hpos : 0 < size.toNat) (c : Int32) :
    (clampCursor size c).toInt = max 0 (min c.toInt (size.toNat - 1)) := by
  have hlast : (size - 1).toNat = size.toNat - 1 :=
    toNat_sub_of_le (by simp only [UInt64.reduceToNat]; omega)
  have hfloor := toInt_floor c
  simp only [clampCursor, gt_iff_lt, UInt64.lt_iff_toNat_lt]
  generalize (if c < 0 then 0 else c) = c' at hfloor ⊢
  have hsize := toNat_toSizeT_of_nonneg (i := c') (by omega)
  have hlt := c'.toInt_lt
  split
  · rw [toInt_toInt_of_lt] <;> omega
  · omega

/-- **An empty list bounds the cursor from below only.** -/
lemma toInt_clampCursor_of_empty {size : UInt64} (hempty : size.toNat = 0) (c : Int32) :
    (clampCursor size c).toInt = max 0 c.toInt := by
  have hlast : (size - 1).toNat = 2 ^ 64 - 1 := by
    rw [UInt64.toNat_sub]
    simp [hempty]
  have hlt := UInt64.toNat_lt (toSizeT (if c < 0 then 0 else c))
  simp only [clampCursor, gt_iff_lt, UInt64.lt_iff_toNat_lt]
  rw [if_neg (by omega), toInt_floor]

lemma toInt_clampCursor_nonneg (size : UInt64) (c : Int32) : 0 ≤ (clampCursor size c).toInt := by
  rcases Nat.eq_zero_or_pos size.toNat with hempty | hpos
  · rw [toInt_clampCursor_of_empty hempty]
    omega
  · rw [toInt_clampCursor hpos]
    omega

/-- **Clamping is idempotent**, also for the empty list, so that a second call with the same list
draws the same. -/
lemma clampCursor_clampCursor (size : UInt64) (c : Int32) :
    clampCursor size (clampCursor size c) = clampCursor size c := by
  rw [← Int32.toInt_inj]
  rcases Nat.eq_zero_or_pos size.toNat with hempty | hpos
  · simp only [toInt_clampCursor_of_empty hempty]
    omega
  · simp only [toInt_clampCursor hpos]
    omega

end TextIO

end MinSeq
