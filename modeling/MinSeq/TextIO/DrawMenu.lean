import MinSeq.TextIO.ListSelection

/-!
# Does `drawMenu` draw where it is asked to?

`drawMenu` of `main.cpp` prints one letter for each screen of the editor and marks the one that is
shown by its background.  It hands its `(x, y)` to the macro `cursorMove`, which takes `(y, x)`, as
the terminal does; `TextIO::setCursor` takes `(x, y)` too and passes them on the other way round.

**Where it should draw** is said by `DrawsMenu`, without the function: three cells side by side,
from column `x` of row `y` on, and every other cell as it was.

* **`grid_drawMenu`** — what it leaves in every cell, from any terminal: the letters are right and
  start at row `x`, column `y`.
* **`drawsMenu_iff`** — so the menu is where it should be exactly when `x = y`.
-/

namespace MinSeq

open TextIO

/-! ## The function -/

/-- The screens of the editor. -/
inductive EditScreenMode where
  | eSong
  | eChain
  | ePhrase
  deriving DecidableEq

/-- The editor's global state. -/
structure EditorState where
  mEditScreenMode : EditScreenMode

def colorBlack : Int32 := 0
def colorBlue : Int32 := 4
def colorWhite : Int32 := 7

/-- **`drawMenu`**: the letter of the screen that is shown gets another background.  Nothing sets
the colours back at the end. -/
def drawMenu (gEditorState : EditorState) (x y : Int32) : List Vt100 :=
  [.cursorMove x y,
   .setForeground colorWhite,
   if gEditorState.mEditScreenMode = .eSong then .setBackground colorBlue
     else .setBackground colorBlack,
   .text [0x53],
   if gEditorState.mEditScreenMode = .eChain then .setBackground colorBlue
     else .setBackground colorBlack,
   .text [0x43],
   if gEditorState.mEditScreenMode = .ePhrase then .setBackground colorBlue
     else .setBackground colorBlack,
   .text [0x50]]

/-! ## What it is for -/

namespace EditScreenMode

/-- Song, chain and phrase, as the menu abbreviates them: `S`, `C` and `P`. -/
def letter : EditScreenMode → UInt8
  | eSong => 0x53
  | eChain => 0x43
  | ePhrase => 0x50

/-- Where the menu has it. -/
def offset : EditScreenMode → ℤ
  | eSong => 0
  | eChain => 1
  | ePhrase => 2

/-- How the menu shows it. -/
def cell (mode : EditScreenMode) (gEditorState : EditorState) (inverted : Bool) : Cell where
  char := mode.letter
  pen := {
    foreground := colorWhite
    background := if gEditorState.mEditScreenMode = mode then colorBlue else colorBlack
    inverted := inverted }

end EditScreenMode

/-- **The menu is drawn at column `x` of row `y`**: its cells are right, no other has changed, and
drawing ends where it would have ended from `setCursor`, which is three columns further on. -/
structure DrawsMenu (gEditorState : EditorState) (x y : Int32) (t : Terminal) : Prop where
  cells : ∀ mode : EditScreenMode,
    (t.execAll (drawMenu gEditorState x y)).grid y.toInt (x.toInt + mode.offset) =
      some (mode.cell gEditorState t.pen.inverted)
  frame : ∀ r c, (∀ mode : EditScreenMode, ¬ (r = y.toInt ∧ c = x.toInt + mode.offset)) →
    (t.execAll (drawMenu gEditorState x y)).grid r c = t.grid r c
  /-- Drawing ends in the row of `setCursor`, and three letters to the right of its column. -/
  start :
    ((t.execAll (drawMenu gEditorState x y)).row, (t.execAll (drawMenu gEditorState x y)).col) =
    ((t.execAll (setCursor x y)).row, (t.execAll (setCursor x y)).col + 3)

/-! ## What it does -/

variable {gEditorState : EditorState} {x y : Int32} {t : Terminal}

/-- One letter, in whatever colours came before. -/
lemma exec_letter (t : Terminal) (b : Prop) [Decidable b] (colour other : Int32) (char : UInt8) :
    (t.exec (if b then .setBackground colour else .setBackground other)).exec (.text [char]) =
      ({ t with pen := { t.pen with background := if b then colour else other } } :
        Terminal).put char := by
  split <;> rfl

/-- **The whole effect**, on every terminal: three cells, and no other.  The colours are those of
the menu, and the inversion is what it was. -/
theorem grid_drawMenu (gEditorState : EditorState) (x y : Int32) (t : Terminal) (r c : ℤ) :
    (t.execAll (drawMenu gEditorState x y)).grid r c =
      if r = x.toInt ∧ c = y.toInt + 2 then
        some (EditScreenMode.ePhrase.cell gEditorState t.pen.inverted)
      else if r = x.toInt ∧ c = y.toInt + 1 then
        some (EditScreenMode.eChain.cell gEditorState t.pen.inverted)
      else if r = x.toInt ∧ c = y.toInt then
        some (EditScreenMode.eSong.cell gEditorState t.pen.inverted)
      else t.grid r c := by
  have hcol : y.toInt + 1 + 1 = y.toInt + 2 := by omega
  simp only [drawMenu, Terminal.execAll_cons, Terminal.execAll_nil, exec_letter]
  simp only [Terminal.put, Terminal.exec, hcol]
  rfl

/-- Where drawing ends: three letters on, in the row that it began in. -/
lemma cursor_drawMenu (gEditorState : EditorState) (x y : Int32) (t : Terminal) :
    ((t.execAll (drawMenu gEditorState x y)).row, (t.execAll (drawMenu gEditorState x y)).col) =
      (x.toInt, y.toInt + 3) := by
  simp only [drawMenu, Terminal.execAll_cons, Terminal.execAll_nil, exec_letter]
  simp only [Terminal.put, Terminal.exec, Prod.mk.injEq, true_and]
  omega

/-- **When the menu is drawn where it is asked for**, whatever the terminal showed before. -/
theorem drawsMenu_iff (gEditorState : EditorState) (x y : Int32) (t : Terminal) :
    DrawsMenu gEditorState x y t ↔ x = y := by
  constructor
  · intro h
    have hstart := h.start
    rw [cursor_drawMenu, Prod.mk.injEq] at hstart
    exact Int32.toInt_inj.1 hstart.1
  · rintro rfl
    refine ⟨?_, ?_, ?_⟩
    · intro mode
      rw [grid_drawMenu]
      cases mode <;> simp [EditScreenMode.offset]
    · intro r c hapart
      have hsong : ¬ (r = x.toInt ∧ c = x.toInt + 0) := hapart .eSong
      have hchain : ¬ (r = x.toInt ∧ c = x.toInt + 1) := hapart .eChain
      have hphrase : ¬ (r = x.toInt ∧ c = x.toInt + 2) := hapart .ePhrase
      rw [Int.add_zero] at hsong
      rw [grid_drawMenu, if_neg hphrase, if_neg hchain, if_neg hsong]
    · rw [cursor_drawMenu]
      rfl

/-- **Column 1 of row 2**, on an empty screen: the menu is drawn into row 1. -/
theorem not_drawsMenu : ¬ DrawsMenu ⟨.ePhrase⟩ 1 2
    { row := 1, col := 1, pen := ⟨colorWhite, colorBlack, false⟩, grid := fun _ _ => none } := by
  intro h
  have hrow := congrArg Prod.fst h.start
  rw [cursor_drawMenu] at hrow
  exact absurd hrow (by decide)

end MinSeq
