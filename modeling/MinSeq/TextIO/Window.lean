import Mathlib.Data.List.Basic
import MinSeq.TextIO.ListSelection

/-!
# The scrolling window

What the list selection is for: it shows a window onto the list, a few consecutive entries with the
selected one among them.  `Window size` is such a window onto a list of `size` entries; the two
facts that make it one are its fields, so there is no window that leaves the list or that hides the
selected entry.

**Sizes.**  The source keeps the first row in an `int` and corrects it with a `size_t`, and both are
right as long as the sum of the two does not overflow.  Hence the bound of `2 ^ 31 - 3` entries:
five rows are shown, and the cursor is in the middle of them.

* **`doListSelection_window`** — a call that draws shows the window around the clamped cursor, for
  every cursor it finds stored.
* `toInt_numberElementsToPrint`, `toInt_startToPrint` — what the mixed `int` and `size_t` arithmetic
  of the source computes, as integers.
-/

namespace MinSeq

open Cpp

/-- **A window** onto a list of `size` entries: the first one shown, how many are, and the selected
one.  It lies inside the list, and the selected entry lies inside it. -/
structure Window (size : ℕ) where
  start : ℕ
  count : ℕ
  cursor : ℕ
  inside : start + count ≤ size
  selected : start ≤ cursor ∧ cursor < start + count

def clamp (lo hi z : ℤ) : ℤ := max lo (min z hi)

lemma le_clamp (lo hi z : ℤ) : lo ≤ clamp lo hi z := by
  simp only [clamp]
  omega

namespace Window

/-- **One line of the window**: the selected entry stands between `enableInvert` and
`disableInvert`. -/
def row {size : ℕ} (w : Window size) (posX posY : Int32) (entry : ℕ → List UInt8) (k : ℕ) :
    List Vt100 :=
  .cursorMove (posY + Int32.ofNat k) posX ::
    if w.start + k = w.cursor then
      [.enableInvert, .text (entry (w.start + k)), .disableInvert]
    else [.text (entry (w.start + k))]

/-- **The window on a cleared screen**, one line under the other. -/
def frame {size : ℕ} (w : Window size) (posX posY : Int32) (entry : ℕ → List UInt8) : List Vt100 :=
  .clearScreen :: (List.range w.count).flatMap (w.row posX posY entry) ++ [.newline]

/-- **The window around a cursor**: at most five entries, the cursor in the middle of them as far as
the ends of the list allow. -/
def around (size : ℕ) (hpos : 0 < size) (cursor : ℤ) : Window size where
  start := (clamp 0 (size - min 5 size) (clamp 0 (size - 1) cursor - (min 5 size : ℕ) / 2)).toNat
  count := min 5 size
  cursor := (clamp 0 (size - 1) cursor).toNat
  inside := by
    simp only [clamp]
    omega
  selected := by
    simp only [clamp]
    omega

lemma cursor_around (size : ℕ) (hpos : 0 < size) (cursor : ℤ) :
    ((around size hpos cursor).cursor : ℤ) = clamp 0 (size - 1) cursor :=
  Int.toNat_of_nonneg (le_clamp 0 _ _)

lemma start_around (size : ℕ) (hpos : 0 < size) (cursor : ℤ) :
    ((around size hpos cursor).start : ℤ) =
      clamp 0 (size - (around size hpos cursor).count)
        ((around size hpos cursor).cursor - (around size hpos cursor).count / 2) := by
  have hcount : ((around size hpos cursor).count : ℤ) = min 5 (size : ℤ) := by
    simp only [around]
    omega
  rw [cursor_around, hcount]
  have hfive : ((min 5 size : ℕ) : ℤ) = min 5 (size : ℤ) := hcount
  exact (Int.toNat_of_nonneg (le_clamp 0 _ _)).trans (by rw [hfive])

end Window

namespace TextIO

variable {size : UInt64} {t : TextIO} {listToUse : StdVector StdString}

/-- Five rows, or the whole list if it is shorter. -/
lemma toInt_numberElementsToPrint (size : UInt64) :
    (numberElementsToPrint size).toInt = min 5 size.toNat := by
  have hfive : (toSizeT numberVisibleListElements).toNat = 5 := rfl
  have hfive' : numberVisibleListElements.toInt = 5 := rfl
  simp only [numberElementsToPrint, UInt64.lt_iff_toNat_lt, hfive]
  split
  · rw [toInt_toInt_of_lt] <;> omega
  · omega

/-- The correction `start -= start + count - size` in `size_t` arithmetic: it is `size - count`,
also where `start` is negative and its `size_t` value close to the top. -/
lemma toInt_correction {start count : Int32} (hsize : size.toNat < 2 ^ 31)
    (hsum : (start + count).toInt = start.toInt + count.toInt)
    (hover : (size.toNat : ℤ) < start.toInt + count.toInt)
    (hcount : 0 ≤ count.toInt ∧ count.toInt ≤ size.toNat) :
    (toInt (toSizeT start - (toSizeT (start + count) - size))).toInt
      = size.toNat - count.toInt := by
  have hstart := toNat_toSizeT start
  have hstop := toNat_toSizeT_of_nonneg (i := start + count) (by omega)
  have hexcess :
      (toSizeT (start + count) - size).toNat = start.toInt + count.toInt - size.toNat := by
    rw [toNat_sub_of_le] <;> omega
  have hback :
      (toSizeT start - (toSizeT (start + count) - size)).toNat = size.toNat - count.toInt := by
    have := start.toInt_lt
    have := UInt64.toNat_lt (toSizeT (start + count))
    rw [UInt64.toNat_sub]
    omega
  rw [toInt_toInt_of_lt] <;> omega

/-- **The first row shown**, for a cursor that is an index of the list. -/
lemma toInt_startToPrint {c n : Int32} (hsize : size.toNat ≤ 2 ^ 31 - 3)
    (hc : 0 ≤ c.toInt ∧ c.toInt < size.toNat) (hn : n.toInt = min 5 size.toNat) :
    (startToPrint size c n).toInt = clamp 0 (size.toNat - n.toInt) (c.toInt - n.toInt / 2) := by
  have htwo : (2 : Int32).toInt = 2 := rfl
  have hhalf : (n / 2).toInt = n.toInt / 2 := by
    rw [Int32.toInt_div, htwo, Int.tdiv_eq_ediv_of_nonneg (by omega), bmod_of_range] <;> omega
  have hstart : (c - n / 2).toInt = c.toInt - n.toInt / 2 := by
    rw [toInt_sub_of_range, hhalf] <;> omega
  have hstop : (c - n / 2 + n).toInt = (c - n / 2).toInt + n.toInt := by
    rw [toInt_add_of_range] <;> omega
  have hstopSize := toNat_toSizeT_of_nonneg (i := c - n / 2 + n) (by omega)
  simp only [startToPrint, clamp, gt_iff_lt, UInt64.lt_iff_toNat_lt]
  rw [toInt_floor]
  split
  · rw [toInt_correction (by omega) hstop (by omega) (by omega)]
    omega
  · omega

/-- One turn of the loop prints one line of the window. -/
lemma printEntry_eq_row (w : Window listToUse.size.toNat) {start : Int32} {k : ℕ}
    (hsize : listToUse.size.toNat < 2 ^ 31) (hstart : start.toInt = w.start)
    (hcursor : t.cursorPosInList.toInt = w.cursor) (hk : k < w.count) :
    t.printEntry listToUse start (Int32.ofNat k) =
      w.row t.posX t.posY (fun i => (listToUse.get (UInt64.ofNat i)).cStr) k := by
  have hinside := w.inside
  have hofNat : (Int32.ofNat k).toInt = k := Int32.toInt_ofNat_of_lt (by omega)
  have hindex : (start + Int32.ofNat k).toInt = w.start + k := by
    rw [toInt_add_of_range] <;> omega
  have hget : toSizeT (start + Int32.ofNat k) = UInt64.ofNat (w.start + k) := by
    have hsizeT := toNat_toSizeT_of_nonneg (i := start + Int32.ofNat k) (by omega)
    rw [← UInt64.toNat_inj, UInt64.toNat_ofNat_of_lt' (by simp only [UInt64.size]; omega)]
    omega
  have hselected : start + Int32.ofNat k = t.cursorPosInList ↔ w.start + k = w.cursor := by
    rw [← Int32.toInt_inj]
    omega
  simp only [printEntry, Window.row, hget, hselected]
  split <;> rfl

/-- The loop prints the window. -/
lemma printList_eq_frame (w : Window listToUse.size.toNat)
    (hsize : listToUse.size.toNat ≤ 2 ^ 31 - 3) (hcursor : t.cursorPosInList.toInt = w.cursor)
    (hcount : w.count = min 5 listToUse.size.toNat)
    (hstart : w.start = clamp 0 (listToUse.size.toNat - w.count) (w.cursor - w.count / 2)) :
    t.printList listToUse =
      w.frame t.posX t.posY (fun i => (listToUse.get (UInt64.ofNat i)).cStr) := by
  have hinside := w.inside
  have hselected := w.selected
  have hn := toInt_numberElementsToPrint listToUse.size
  have hrange : (numberElementsToPrint listToUse.size).toNatClampNeg = w.count := by
    rw [← Int32.toNat_toInt]
    omega
  have hs : (startToPrint listToUse.size t.cursorPosInList
      (numberElementsToPrint listToUse.size)).toInt = w.start := by
    rw [toInt_startToPrint hsize (by omega) hn, hstart, hcursor, hn, hcount]
  have hrows := List.flatMap_congr (l := List.range w.count) fun k hk =>
    printEntry_eq_row (t := t) w (by omega) hs hcursor (List.mem_range.1 hk)
  simp only [printList, Window.frame, hrange, hrows]

/-- **The scrolling window.**  Whatever cursor a drawing call finds stored, it leaves the cursor
clamped to the list and shows at most five consecutive entries around it, each on its own row;
`Window` says that they are entries of the list and that the selected one, alone inverted, is among
them. -/
theorem doListSelection_window (t : TextIO) (listToUse : StdVector StdString)
    (hredraw : t.redrawNeeded = true) (hpos : 0 < listToUse.size.toNat)
    (hsize : listToUse.size.toNat ≤ 2 ^ 31 - 3) :
    ∃ w : Window listToUse.size.toNat,
      w.cursor = clamp 0 (listToUse.size.toNat - 1) t.cursorPosInList.toInt ∧
      w.count = min 5 listToUse.size.toNat ∧
      w.start = clamp 0 (listToUse.size.toNat - w.count) (w.cursor - w.count / 2) ∧
      (t.doListSelection listToUse).1.cursorPosInList.toInt = w.cursor ∧
      (t.doListSelection listToUse).2 =
        w.frame t.posX t.posY (fun i => (listToUse.get (UInt64.ofNat i)).cStr) := by
  have hcursor := Window.cursor_around listToUse.size.toNat hpos t.cursorPosInList.toInt
  have hstart := Window.start_around listToUse.size.toNat hpos t.cursorPosInList.toInt
  refine ⟨Window.around listToUse.size.toNat hpos t.cursorPosInList.toInt, hcursor, rfl, hstart, ?_⟩
  rw [doListSelection_of_redraw hredraw]
  have hstored : (t.storeCursor listToUse).cursorPosInList.toInt =
      (Window.around listToUse.size.toNat hpos t.cursorPosInList.toInt).cursor := by
    rw [storeCursor, toInt_clampCursor hpos, hcursor]
    rfl
  exact ⟨hstored, printList_eq_frame _ hsize hstored rfl hstart⟩

/-- Seven entries, `"a"` to `"g"`. -/
def sevenEntries : StdVector StdString :=
  StdVector.ofList [[97], [98], [99], [100], [101], [102], [103]]

/-- A cursor far past the end of seven entries: `"c"` to `"g"` are shown, and the last is
selected. -/
theorem doListSelection_window_far_past_end :
    (doListSelection { new with cursorPosInList := 2000000000 }
        sevenEntries).1.cursorPosInList.toInt = 6 ∧
      (doListSelection { new with cursorPosInList := 2000000000 } sevenEntries).2 =
        [.clearScreen, .cursorMove 1 1, .text [99], .cursorMove 2 1, .text [100],
          .cursorMove 3 1, .text [101], .cursorMove 4 1, .text [102],
          .cursorMove 5 1, .enableInvert, .text [103], .disableInvert, .newline] := by
  rcases doListSelection_window { new with cursorPosInList := 2000000000 } sevenEntries
    rfl (by decide) (by decide) with ⟨w, hcursor, hcount, hstart, hstored, hout⟩
  rcases w with ⟨start, count, cursor, hinside, hselected⟩
  obtain rfl : cursor = 6 := Int.natCast_inj.1 hcursor
  obtain rfl : count = 5 := hcount
  have hfirst : clamp 0 ((7 : ℕ) - (5 : ℕ)) ((6 : ℕ) - (5 : ℕ) / 2) = (2 : ℕ) := by decide
  obtain rfl : start = 2 := Int.natCast_inj.1 (hstart.trans hfirst)
  exact ⟨hstored, hout⟩

end TextIO

end MinSeq
