import MinSeq.Editor.LinuxInput
import MinSeq.TextIO.DrawMenu

/-!
# The editor's main loop

`main` puts the terminal into raw mode, clears the screen and draws its menu again and again until a
signal arrives or a `q` is read.  Nothing that it reads changes what it draws.  `select` is called
without waiting, and `read` only when `select` says that there is something, so the loop never
stands still, with one exception: a `select` that fails returns -1, which counts as a key hit, and
`read` may then wait for a key.

**Polls.**  `Poll` is what the system does to the program in one turn of the loop, and a run is a
list of these; a run that has not ended yet gives `none`.  How long a turn takes makes no difference
here.  A signal that arrives before its handler is installed kills the program, and is not a run.

* **`main_eq`** — a run ends with the first poll that quits, after drawing one menu for each poll
  before it and one more if it was a key.
* **`main_leaves`** — what such a run leaves behind, whatever was on the screen before and however
  long it ran: the terminal's mode as it was, the menu alone, and a pen that still writes on blue.
-/

namespace MinSeq

/-- **What one turn of the loop sees of the system.**  The signal is looked at first, then the menu
is drawn, and only then is there a look at the keys. -/
structure Poll where
  /-- A signal arrived since the flag was looked at last. -/
  signalled : Bool
  /-- What `select` returns. -/
  select : Int32
  /-- What `read` returns, if it is called, and what is in the character then. -/
  read : Int32
  byte : UInt8

namespace Poll

/-- **The key ends the loop.**  A failed `select` counts as a key hit, and a failed `read` as no key
that ends anything. -/
def quitKey (poll : Poll) : Bool :=
  kbhit poll.select ≠ 0 && (getch poll.read poll.byte = 0x71 || getch poll.read poll.byte = 0x51)

def quits (poll : Poll) : Bool := poll.signalled || poll.quitKey

/-- How many menus the turn that ends the loop draws. -/
def lastDraws (poll : Poll) : ℕ := if poll.signalled then 0 else 1

end Poll

/-- **The loop of `main`**: all that it prints.  The flag is set by a key as well as by the handler,
so a key ends the loop at the beginning of the next turn. -/
def mainLoop (gEditorState : EditorState) (interruptReceived : Bool) :
    List Poll → Option (List Vt100)
  | [] => if interruptReceived then some [] else none
  | poll :: polls =>
      if interruptReceived || poll.signalled then some []
      else (mainLoop gEditorState poll.quitKey polls).map (drawMenu gEditorState 10 10 ++ ·)

/-- **`main`**: the process after its exit, and what it printed. -/
def main (p : Process) (polls : List Poll) : Option (Process × List Vt100) :=
  let p := p.setConioTerminalMode
  let gEditorState : EditorState := { mEditScreenMode := .ePhrase }
  (mainLoop gEditorState false polls).map fun out => (p.exit, .clearScreen :: out)

/-! ## The loop -/

/-- The menu, drawn `n` times. -/
def menus (gEditorState : EditorState) (n : ℕ) : List Vt100 :=
  (List.replicate n (drawMenu gEditorState 10 10)).flatten

/-- How many menus a run draws that ends. -/
def drawn (polls : List Poll) (last : Poll) : ℕ :=
  (polls.takeWhile fun poll => !poll.quits).length + last.lastDraws

variable {gEditorState : EditorState} {polls : List Poll}

@[simp] lemma mainLoop_interrupted : mainLoop gEditorState true polls = some [] := by
  cases polls <;> simp [mainLoop]

lemma menus_succ (gEditorState : EditorState) (n : ℕ) :
    menus gEditorState (n + 1) = drawMenu gEditorState 10 10 ++ menus gEditorState n := by
  simp [menus, List.replicate_succ]

/-- **The loop ends with the first poll that quits.** -/
lemma mainLoop_eq (gEditorState : EditorState) (polls : List Poll) :
    mainLoop gEditorState false polls
      = (polls.find? Poll.quits).map fun last => menus gEditorState (drawn polls last) := by
  induction polls with
  | nil => rfl
  | cons poll polls ih =>
      rw [mainLoop]
      by_cases hsignal : poll.signalled = true
      · have hquits : poll.quits = true := by simp [Poll.quits, hsignal]
        simp [hsignal, hquits, drawn, Poll.lastDraws, menus]
      · rw [Bool.not_eq_true] at hsignal
        by_cases hkey : poll.quitKey = true
        · -- the turn still draws before it reads the key
          have hquits : poll.quits = true := by simp [Poll.quits, hkey]
          simp [hsignal, hkey, hquits, drawn, Poll.lastDraws, menus]
        · rw [Bool.not_eq_true] at hkey
          have hquiet : poll.quits = false := by simp [Poll.quits, hsignal, hkey]
          have hdrawn : ∀ last, drawn (poll :: polls) last = drawn polls last + 1 := by
            intro last
            simp only [drawn, List.takeWhile_cons, hquiet, Bool.not_false, if_true,
              List.length_cons]
            omega
          simp [hsignal, hkey, hquiet, ih, hdrawn, menus_succ, Function.comp_def]

/-- **What a run does.** -/
theorem main_eq (p : Process) (polls : List Poll) :
    main p polls
      = (polls.find? Poll.quits).map fun last =>
          (p.setConioTerminalMode.exit, .clearScreen :: menus ⟨.ePhrase⟩ (drawn polls last)) := by
  simp only [main, mainLoop_eq, Option.map_map, Function.comp_def]

/-! ## What it leaves behind -/

/-- **The screen shows the menu alone**, whatever it showed before, and the pen stays the menu's. -/
structure ShowsMenu (gEditorState : EditorState) (inverted : Bool) (t : Terminal) : Prop where
  cells : ∀ mode : EditScreenMode,
    t.grid 10 (10 + mode.offset) = some (mode.cell gEditorState inverted)
  blank : ∀ r c, (∀ mode : EditScreenMode, ¬ (r = 10 ∧ c = 10 + mode.offset)) → t.grid r c = none
  pen : t.pen = (EditScreenMode.ePhrase.cell gEditorState inverted).pen

/-- The menu leaves the pen in the colours of its last letter. -/
lemma pen_drawMenu (gEditorState : EditorState) (x y : Int32) (t : Terminal) :
    (t.execAll (drawMenu gEditorState x y)).pen =
      (EditScreenMode.ePhrase.cell gEditorState t.pen.inverted).pen := by
  simp only [drawMenu, Terminal.execAll_cons, Terminal.execAll_nil, exec_letter]
  rfl

attribute [ext] Terminal

/-- **Drawing the menu again changes nothing**, not even the cursor. -/
lemma drawMenu_drawMenu (gEditorState : EditorState) (x y : Int32) (t : Terminal) :
    (t.execAll (drawMenu gEditorState x y)).execAll (drawMenu gEditorState x y)
      = t.execAll (drawMenu gEditorState x y) := by
  have hpen := pen_drawMenu gEditorState x y t
  have hinverted : (t.execAll (drawMenu gEditorState x y)).pen.inverted = t.pen.inverted := by
    rw [hpen]
    rfl
  have hcursor := cursor_drawMenu gEditorState x y t
  have hcursor' := cursor_drawMenu gEditorState x y (t.execAll (drawMenu gEditorState x y))
  have hpen' := pen_drawMenu gEditorState x y (t.execAll (drawMenu gEditorState x y))
  rw [Prod.mk.injEq] at hcursor hcursor'
  have hgrid : ((t.execAll (drawMenu gEditorState x y)).execAll (drawMenu gEditorState x y)).grid
      = (t.execAll (drawMenu gEditorState x y)).grid := by
    funext r c
    rw [grid_drawMenu, grid_drawMenu, hinverted]
    split_ifs <;> rfl
  rw [hinverted, ← hpen] at hpen'
  exact Terminal.ext (hcursor'.1.trans hcursor.1.symm) (hcursor'.2.trans hcursor.2.symm)
    hpen' hgrid

/-- However many menus are drawn, the screen is as after the first. -/
lemma execAll_menus (gEditorState : EditorState) (n : ℕ) (t : Terminal) :
    t.execAll (menus gEditorState (n + 1)) = t.execAll (drawMenu gEditorState 10 10) := by
  induction n generalizing t with
  | zero => simp [menus]
  | succ n ih => rw [menus_succ, Terminal.execAll_append, ih, drawMenu_drawMenu]

/-- Any number of menus on a blank screen. -/
lemma showsMenu_menus (gEditorState : EditorState) {n : ℕ} (hn : 0 < n) {t : Terminal}
    (hblank : t.Blank) :
    ShowsMenu gEditorState t.pen.inverted (t.execAll (menus gEditorState n)) := by
  obtain ⟨n, rfl⟩ := Nat.exists_eq_succ_of_ne_zero (Nat.ne_of_gt hn)
  rw [execAll_menus]
  refine ⟨?_, ?_, pen_drawMenu gEditorState 10 10 t⟩
  · intro mode
    rw [grid_drawMenu]
    cases mode <;> simp [EditScreenMode.offset]
  · intro r c hapart
    have hsong := hapart .eSong
    have hchain := hapart .eChain
    have hphrase := hapart .ePhrase
    simp only [EditScreenMode.offset, Int.add_zero] at hsong hchain hphrase
    have h10 : (10 : Int32).toInt = 10 := rfl
    rw [grid_drawMenu, h10, if_neg hphrase, if_neg hchain, if_neg hsong, hblank]

/-- **What a run leaves behind that ends**: the terminal's mode is the one it had, and the screen is
empty if the first poll brought a signal and shows the menu otherwise. -/
theorem main_leaves (terminal : Option Termios) (polls : List Poll) (t : Terminal) :
    ∀ end' ∈ main (.start terminal) polls, end'.1.terminal = terminal ∧
      if ∃ poll ∈ polls.head?, poll.signalled then t.execAll end'.2 = t.exec .clearScreen
      else ShowsMenu ⟨.ePhrase⟩ t.pen.inverted (t.execAll end'.2) := by
  intro end' hend
  simp only [main, mainLoop_eq, Option.map_map, Option.mem_def, Option.map_eq_some_iff,
    Function.comp_apply] at hend
  obtain ⟨last, hlast, rfl⟩ := hend
  constructor
  · -- `main` has called `set_conio_terminal_mode` once
    have hexit := Process.terminal_exit terminal 1
    simpa using hexit
  · rw [Terminal.execAll_cons]
    obtain ⟨first, rest, rfl⟩ := List.exists_cons_of_ne_nil
      (List.ne_nil_of_mem (List.mem_of_find?_eq_some hlast))
    simp only [List.head?_cons, Option.mem_some_iff, exists_eq_left']
    split_ifs with hsignal
    · have hquits : first.quits = true := by simp [Poll.quits, hsignal]
      have hfirst : first = last := by simpa [hquits] using hlast
      have hnone : drawn (first :: rest) last = 0 := by
        simp [drawn, hquits, ← hfirst, Poll.lastDraws, hsignal]
      rw [hnone]
      rfl
    · have hpos : 0 < drawn (first :: rest) last := by
        by_cases hquits : first.quits = true
        · have hfirst : first = last := by simpa [hquits] using hlast
          simp [drawn, ← hfirst, Poll.lastDraws, hsignal]
        · simp only [drawn, List.takeWhile_cons, hquits, Bool.not_false, if_true, List.length_cons]
          omega
      exact showsMenu_menus ⟨.ePhrase⟩ hpos (Terminal.blank_clearScreen t)

/-- A terminal in its usual mode, with text on it: no key, an `a`, and then a `q`. -/
theorem main_leaves_quit :
    let terminal : Termios := ⟨0x4500, 0x5, 0xbf, 0x8a3b, fun _ => 0⟩
    let polls : List Poll := [⟨false, 0, 0, 0⟩, ⟨false, 1, 1, 0x61⟩, ⟨false, 1, 1, 0x71⟩]
    let t : Terminal := ⟨5, 5, ⟨2, 0, true⟩, fun _ _ => some ⟨0x78, ⟨2, 0, true⟩⟩⟩
    ∃ end' ∈ main (.start (some terminal)) polls, end'.1.terminal = some terminal ∧
      ShowsMenu ⟨.ePhrase⟩ true (t.execAll end'.2) := by
  intro terminal polls t
  have hleaves := main_leaves (some terminal) polls t _ rfl
  refine ⟨_, rfl, hleaves.1, ?_⟩
  have hquiet : ¬ ∃ poll ∈ polls.head?, poll.signalled = true := by simp [polls]
  have hscreen := hleaves.2
  rwa [if_neg hquiet] at hscreen

end MinSeq
