/-
  CompilerFuzz.Host.Signal

  Signals by number: their names, the words for a process that one of them has ended, and
  which of them end a process that takes no care of them.
-/
import CompilerFuzz.Text.Numeral

namespace CompilerFuzz.Host.Signal

open CompilerFuzz.Text

/-- Names and words of the signals from one on. -/
def table : List (String × String) :=
  [ ("HUP", "Hangup"), ("INT", "Interrupt"), ("QUIT", "Quit"), ("ILL", "Illegal instruction"),
    ("TRAP", "Trace/breakpoint trap"), ("ABRT", "Aborted"), ("BUS", "Bus error"),
    ("FPE", "Floating point exception"), ("KILL", "Killed"), ("USR1", "User defined signal 1"),
    ("SEGV", "Segmentation fault"), ("USR2", "User defined signal 2"), ("PIPE", "Broken pipe"),
    ("ALRM", "Alarm clock"), ("TERM", "Terminated"), ("STKFLT", "Stack fault"),
    ("CHLD", "Child exited"), ("CONT", "Continued"), ("STOP", "Stopped (signal)"),
    ("TSTP", "Stopped"), ("TTIN", "Stopped (tty input)"), ("TTOU", "Stopped (tty output)"),
    ("URG", "Urgent I/O condition"), ("XCPU", "CPU time limit exceeded"),
    ("XFSZ", "File size limit exceeded"), ("VTALRM", "Virtual timer expired"),
    ("PROF", "Profiling timer expired"), ("WINCH", "Window changed"), ("IO", "I/O possible"),
    ("PWR", "Power failure"), ("SYS", "Bad system call") ]

/-- The largest signal. -/
def largest : Nat := 64

/-- The name of a signal; zero stands for the end of a shell. -/
def name (n : Nat) : String :=
  if n = 0 then "EXIT" else (table[n - 1]?).elim (numeralText n) Prod.fst

/-- The words for a signal. -/
def words (n : Nat) : String :=
  (table[n - 1]?).elim ("Unknown signal " ++ numeralText n) Prod.snd

/-- Signals that leave a process as it is: none at all, and those that only tell of a child,
    a stopped process that goes on, urgent data, or a new size of the window. -/
def harmless : List Nat := [0, 17, 18, 23, 28]

/-- Signals that make a process wait until another one lets it go on. -/
def suspending : List Nat := [19, 20, 21, 22]

/-- The signals that no process can catch. -/
def uncatchable : List Nat := [9, 19]

/-- Does the signal end a process that takes no care of it? -/
def isFatal (n : Nat) : Bool :=
  n ≤ largest && !harmless.contains n && !suspending.contains n

/-- The interrupt. -/
def interrupt : Nat := 2

/-- The broken pipe. -/
def brokenPipe : Nat := 13

/-- The request to end. -/
def terminate : Nat := 15

end CompilerFuzz.Host.Signal
