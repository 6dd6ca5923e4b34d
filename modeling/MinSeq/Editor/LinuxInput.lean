import Mathlib.Logic.Function.Iterate
import Mathlib.Tactic.Common

/-!
# Terminal modes and keys

`utils/linuxinput.h`: the program switches its terminal to a raw mode and registers a handler that
switches it back at exit.  The handler restores what `set_conio_terminal_mode` saved, and that is
whatever mode the terminal was in when it was called last.  The mode is saved in a global, of which
there is one however often the function is called.

`Process` is what these functions see of the system: the standard input, which may be no terminal at
all, the global `orig_termios`, and how often the handler was registered.  The masks are those of
the platform's `termios.h`.

* **`attributes_exit`** — after any number of calls, exit brings the terminal back exactly when
  there was at most one call, or the terminal was raw from the beginning.

**Keys.**  `kbhit` and `getch` return what the system calls behind them return, which are arguments
here; `Editor/Main` says what a program makes of that.
-/

namespace MinSeq

/-! ## `termios.h` -/

/-- **A terminal's mode**: the flags that are switched, and the control characters by their
position. -/
structure Termios where
  iflag : UInt32
  oflag : UInt32
  cflag : UInt32
  lflag : UInt32
  cc : ℕ → UInt8

namespace Termios

def BRKINT : UInt32 := 0x2
def ICRNL : UInt32 := 0x100
def INPCK : UInt32 := 0x10
def ISTRIP : UInt32 := 0x20
def IXON : UInt32 := 0x400
def OPOST : UInt32 := 0x1
def CS8 : UInt32 := 0x30
def ECHO : UInt32 := 0x8
def ICANON : UInt32 := 0x2
def IEXTEN : UInt32 := 0x8000
def ISIG : UInt32 := 0x1
def VTIME : ℕ := 5
def VMIN : ℕ := 6

/-- **The mode `set_conio_terminal_mode` makes** out of the one it found.  The comment above the
last mask says that it turns off the signal characters too, but that flag is commented out. -/
def raw (t : Termios) : Termios where
  iflag := t.iflag &&& ~~~(BRKINT ||| ICRNL ||| INPCK ||| ISTRIP ||| IXON)
  oflag := t.oflag &&& ~~~OPOST
  cflag := t.cflag ||| CS8
  lflag := t.lflag &&& ~~~(ECHO ||| ICANON ||| IEXTEN)
  cc := Function.update (Function.update t.cc VMIN 1) VTIME 0

@[simp] lemma raw_raw (t : Termios) : t.raw.raw = t.raw := by
  have hcc : Function.update (Function.update (Function.update (Function.update t.cc VMIN 1)
        VTIME 0) VMIN 1) VTIME 0
      = Function.update (Function.update t.cc VMIN 1) VTIME 0 := by
    funext i
    simp only [Function.update_apply]
    split_ifs <;> rfl
  simp only [raw, UInt32.and_assoc, UInt32.and_self, UInt32.or_assoc, UInt32.or_self, hcc]

/-- **What the mode leaves alone**: the interrupt key still sends a signal, which is how the program
can be left with it. -/
lemma raw_isig (t : Termios) : t.raw.lflag &&& ISIG = t.lflag &&& ISIG := by
  have hmask : ~~~(ECHO ||| ICANON ||| IEXTEN) &&& ISIG = ISIG := by decide
  rw [raw, UInt32.and_assoc, hmask]

end Termios

/-! ## The functions -/

/-- **What the functions see of the system.** -/
structure Process where
  /-- The mode of the terminal behind the standard input, if there is one. -/
  terminal : Option Termios
  origTermios : Termios
  /-- How often `reset_terminal_mode` was registered with `atexit`. -/
  atexit : ℕ

namespace Process

/-- `tcgetattr(STDIN_FILENO, &orig_termios)`, which leaves the variable alone when it fails. -/
def tcgetattr (p : Process) : Process := { p with origTermios := p.terminal.getD p.origTermios }

/-- `tcsetattr(STDIN_FILENO, …, &t)`: what it returns, and what it does.  It fails where there is no
terminal. -/
def tcsetattr (t : Termios) (p : Process) : Int32 × Process :=
  match p.terminal with
  | some _ => (0, { p with terminal := some t })
  | none => (-1, p)

/-- **`reset_terminal_mode`**, which runs at exit. -/
def resetTerminalMode (p : Process) : Process := (p.tcsetattr p.origTermios).2

/-- **`set_conio_terminal_mode`** saves the mode and changes it; between the two it registers the
handler.  What `tcsetattr` returns is not looked at. -/
def setConioTerminalMode (p : Process) : Process :=
  let p := p.tcgetattr
  let p := { p with atexit := p.atexit + 1 }
  let raw := p.origTermios.raw
  (p.tcsetattr raw).2

/-- A process that has called nothing yet; the global starts zeroed. -/
def start (terminal : Option Termios) : Process := ⟨terminal, ⟨0, 0, 0, 0, fun _ => 0⟩, 0⟩

/-- `exit` calls every registered handler, the one that was registered last first.  They are all the
same here. -/
def exit (p : Process) : Process := resetTerminalMode^[p.atexit] p

end Process

/-- `kbhit`: what `select` returns for the standard input, without waiting.  That is -1 if it fails,
which is not 0 either. -/
def kbhit (select : Int32) : Int32 := select

/-- `getch`, by what `read` returns and what is in `c` then.  At the end of the input nothing is
read, and the character is whatever was there. -/
def getch (r : Int32) (c : UInt8) : Int32 := if r < 0 then r else c.toUInt32.toInt32

/-! ## Back at exit -/

namespace Process

variable {p : Process}

@[simp] lemma resetTerminalMode_resetTerminalMode (p : Process) :
    p.resetTerminalMode.resetTerminalMode = p.resetTerminalMode := by
  cases hp : p.terminal <;> simp [resetTerminalMode, tcsetattr, hp]

/-- Calling the handler again changes nothing, so it does not matter how often it was registered. -/
lemma exit_of_pos (h : 0 < p.atexit) : p.exit = p.resetTerminalMode := by
  obtain ⟨k, hk⟩ := Nat.exists_eq_succ_of_ne_zero (Nat.ne_of_gt h)
  rw [exit, hk]
  clear hk
  induction k with
  | zero => rfl
  | succ k ih => rw [Function.iterate_succ_apply', ih, resetTerminalMode_resetTerminalMode]

/-- One call of `set_conio_terminal_mode` on a terminal: the mode is saved and the raw one is
set. -/
lemma setConioTerminalMode_some {t : Termios} (h : p.terminal = some t) :
    p.setConioTerminalMode = ⟨some t.raw, t, p.atexit + 1⟩ := by
  simp [setConioTerminalMode, tcgetattr, tcsetattr, h]

/-- Without a terminal the call only registers the handler. -/
lemma setConioTerminalMode_none (h : p.terminal = none) :
    p.setConioTerminalMode = { p with atexit := p.atexit + 1 } := by
  simp [setConioTerminalMode, tcgetattr, tcsetattr, h]

/-- After two calls or more the saved mode is the raw one: the second call saves what the first has
set. -/
lemma iterate_setConioTerminalMode {t : Termios} (h : p.terminal = some t) (k : ℕ) :
    setConioTerminalMode^[k + 1] p
      = ⟨some t.raw, if k = 0 then t else t.raw, p.atexit + (k + 1)⟩ := by
  induction k with
  | zero => exact setConioTerminalMode_some h
  | succ k ih =>
      rw [Function.iterate_succ_apply', ih, setConioTerminalMode_some (t := t.raw) rfl]
      simp [Nat.add_assoc]

lemma terminal_iterate_none (k : ℕ) :
    (setConioTerminalMode^[k] (start none)).terminal = none := by
  induction k with
  | zero => rfl
  | succ k ih => rw [Function.iterate_succ_apply', setConioTerminalMode_none ih, ih]

/-- The mode after exit, for any number of calls: with two or more, the one that the first call has
set. -/
lemma terminal_exit (terminal : Option Termios) (k : ℕ) :
    (setConioTerminalMode^[k] (start terminal)).exit.terminal
      = terminal.map fun t => if k ≤ 1 then t else t.raw := by
  cases k with
  | zero => cases terminal <;> rfl
  | succ k =>
      cases terminal with
      | none =>
          have hnone := terminal_iterate_none (k + 1)
          rcases Nat.eq_zero_or_pos (setConioTerminalMode^[k + 1] (start none)).atexit with
            hnever | hpos
          · rw [exit, hnever]
            exact hnone
          · rw [exit_of_pos hpos, resetTerminalMode, tcsetattr, hnone]
            exact hnone
      | some t =>
          rw [iterate_setConioTerminalMode (t := t) rfl, exit_of_pos (Nat.succ_pos _)]
          simp [resetTerminalMode, tcsetattr]

/-- **Exit brings the terminal back** from any number of calls exactly when there was at most one,
or there was nothing to change. -/
theorem attributes_exit (terminal : Option Termios) (k : ℕ) :
    (setConioTerminalMode^[k] (start terminal)).exit.terminal = terminal
      ↔ k ≤ 1 ∨ ∀ t ∈ terminal, t.raw = t := by
  rw [terminal_exit]
  cases terminal with
  | none => simp
  | some t => by_cases hk : k ≤ 1 <;> simp [hk]

end Process

end MinSeq
