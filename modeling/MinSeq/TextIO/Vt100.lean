import MinSeq.Core.CppTypes

/-!
# VT100 output and the terminal behind it

The program draws by printing control codes between texts.  `Vt100` is what one `printf` sends,
under the name of the macro that sends it, and `Terminal` is the screen that receives it: a grid
with a cursor and the attributes the next character gets.  The grid has no edges, so nothing wraps
or scrolls.

**Texts.**  A text is a list of bytes, and each of them fills one cell.  A real terminal would act
on a control character in a text, and show the bytes of a multi-byte character in one cell.  What is
shown here is the text that was written to the cells, and two pictures are the same when the same
bytes were written to the same cells in the same colours.

* **`SamePicture.execAll_cursorMove`** — terminals that differ only in where their cursor is cannot
  be told apart once the cursor is moved.
-/

namespace MinSeq

open Cpp

/-- **One piece of output**: a control code, a text, or the newline that flushes the buffer. -/
inductive Vt100 where
  | clearScreen
  | cursorMove (y x : Int32)
  | enableInvert
  | disableInvert
  | setForeground (x : Int32)
  | setBackground (x : Int32)
  | text (bytes : List UInt8)
  | newline
  deriving DecidableEq

/-- **The attributes** that a printed character gets, and every one after it until they are
changed. -/
structure Pen where
  foreground : Int32
  background : Int32
  inverted : Bool
  deriving DecidableEq

/-- A character on the screen. -/
structure Cell where
  char : UInt8
  pen : Pen
  deriving DecidableEq

/-- **The terminal.**  A cell is `none` when nothing was written to it since the last clear. -/
structure Terminal where
  row : ℤ
  col : ℤ
  pen : Pen
  grid : ℤ → ℤ → Option Cell

namespace Terminal

/-- A character fills the current cell and advances one column, whichever column that is. -/
def put (t : Terminal) (char : UInt8) : Terminal :=
  { t with
    col := t.col + 1
    grid := fun r c => if r = t.row ∧ c = t.col then some ⟨char, t.pen⟩ else t.grid r c }

/-- **What one piece of output does.**  Clearing leaves the cursor and the attributes alone.  The
bytes of a text fill one cell each, control characters and the parts of multi-byte characters as
well: they are not interpreted. -/
def exec (t : Terminal) : Vt100 → Terminal
  | .clearScreen => { t with grid := fun _ _ => none }
  | .cursorMove y x => { t with row := y.toInt, col := x.toInt }
  | .enableInvert => { t with pen := { t.pen with inverted := true } }
  | .disableInvert => { t with pen := { t.pen with inverted := false } }
  | .setForeground x => { t with pen := { t.pen with foreground := x } }
  | .setBackground x => { t with pen := { t.pen with background := x } }
  | .text bytes => bytes.foldl put t
  | .newline => { t with row := t.row + 1, col := 1 }

/-- What a stream of output does, one piece after the other. -/
def execAll (t : Terminal) (out : List Vt100) : Terminal := out.foldl exec t

@[simp] lemma execAll_nil (t : Terminal) : t.execAll [] = t := rfl

@[simp] lemma execAll_cons (t : Terminal) (code : Vt100) (out : List Vt100) :
    t.execAll (code :: out) = (t.exec code).execAll out := rfl

@[simp] lemma execAll_append (t : Terminal) (out out' : List Vt100) :
    t.execAll (out ++ out') = (t.execAll out).execAll out' := List.foldl_append

@[simp] lemma pen_foldl_put (t : Terminal) (bytes : List UInt8) :
    (bytes.foldl put t).pen = t.pen := by
  induction bytes generalizing t with
  | nil => rfl
  | cons b bytes ih => exact ih (t.put b)

@[simp] lemma pen_clearScreen (t : Terminal) : (t.exec .clearScreen).pen = t.pen := rfl

@[simp] lemma pen_newline (t : Terminal) : (t.exec .newline).pen = t.pen := rfl

/-- **Nothing was written** since the last clear, so there is no character on the screen in any
colour. -/
def Blank (t : Terminal) : Prop := t.grid = fun _ _ => none

@[simp] lemma blank_clearScreen (t : Terminal) : (t.exec .clearScreen).Blank := rfl

@[simp] lemma blank_cursorMove (t : Terminal) (y x : Int32) :
    (t.exec (.cursorMove y x)).Blank ↔ t.Blank := Iff.rfl

@[simp] lemma blank_enableInvert (t : Terminal) : (t.exec .enableInvert).Blank ↔ t.Blank := Iff.rfl

@[simp] lemma blank_disableInvert (t : Terminal) :
    (t.exec .disableInvert).Blank ↔ t.Blank := Iff.rfl

@[simp] lemma blank_newline (t : Terminal) : (t.exec .newline).Blank ↔ t.Blank := Iff.rfl

lemma not_blank_put (t : Terminal) (char : UInt8) : ¬ (t.put char).Blank := by
  intro h
  have hcell := congrFun (congrFun h t.row) t.col
  simp [put] at hcell

/-- **A text leaves a mark**, unless it is empty. -/
@[simp] lemma blank_text (t : Terminal) (bytes : List UInt8) :
    (t.exec (.text bytes)).Blank ↔ t.Blank ∧ bytes = [] := by
  simp only [exec]
  induction bytes generalizing t with
  | nil => simp
  | cons b bytes ih => simp [ih, not_blank_put]

/-- **The same picture**, seen without the cursor. -/
structure SamePicture (t t' : Terminal) : Prop where
  pen : t.pen = t'.pen
  grid : t.grid = t'.grid

namespace SamePicture

variable {t t' : Terminal}

lemma refl (t : Terminal) : SamePicture t t := ⟨rfl, rfl⟩

lemma clearScreen (h : t.pen = t'.pen) :
    SamePicture (t.exec .clearScreen) (t'.exec .clearScreen) := ⟨h, rfl⟩

lemma newline (h : SamePicture t t') : SamePicture (t.exec .newline) (t'.exec .newline) :=
  ⟨h.pen, h.grid⟩

/-- The cursor was the only difference. -/
lemma execAll_cursorMove (h : SamePicture t t') (y x : Int32) (out : List Vt100) :
    t.execAll (.cursorMove y x :: out) = t'.execAll (.cursorMove y x :: out) := by
  have hmove : t.exec (.cursorMove y x) = t'.exec (.cursorMove y x) := by
    simp only [exec, h.pen, h.grid]
  simp only [execAll_cons, hmove]

end SamePicture

end Terminal

end MinSeq
