import Flowline.Json.Writer

/-!
# Signals

The signals that processes send to each other, by number and name, and what is said of a process
that one of them has ended.
-/

namespace Flowline.Shell

/-- The names of the signals that count from the first or the last one of a range. -/
def countedSignals (name : String) (sign : Char) (first : Nat) (offsets : List Nat) :
    List (Nat × String) :=
  offsets.zipIdx.map fun (offset, i) =>
    (first + i, name ++ String.singleton sign ++ Json.intText offset)

/-- The signals by their numbers and names; 0 is the end of the process. -/
def signalNames : List (Nat × String) :=
  [(0, "EXIT"), (1, "HUP"), (2, "INT"), (3, "QUIT"), (4, "ILL"), (5, "TRAP"), (6, "ABRT"),
    (7, "BUS"), (8, "FPE"), (9, "KILL"), (10, "USR1"), (11, "SEGV"), (12, "USR2"), (13, "PIPE"),
    (14, "ALRM"), (15, "TERM"), (16, "16"), (17, "CHLD"), (18, "CONT"), (19, "STOP"),
    (20, "TSTP"), (21, "TTIN"), (22, "TTOU"), (23, "URG"), (24, "XCPU"), (25, "XFSZ"),
    (26, "VTALRM"), (27, "PROF"), (28, "WINCH"), (29, "IO"), (30, "PWR"), (31, "SYS"), (32, "32"),
    (33, "33"), (34, "RTMIN")] ++
  countedSignals "RTMIN" '+' 35 ((List.range 15).map (· + 1)) ++
  countedSignals "RTMAX" '-' 50 ((List.range 14).map (14 - ·)) ++ [(64, "RTMAX")]

/-- What is said of a process that a signal has ended; nothing is said of an interrupt or a broken
pipe. -/
def signalReport? (n : Nat) : Option String :=
  [(1, "Hangup"), (3, "Quit"), (4, "Illegal instruction"), (5, "Trace/breakpoint trap"),
    (6, "Aborted"), (7, "Bus error"), (8, "Floating point exception"), (9, "Killed"),
    (10, "User defined signal 1"), (11, "Segmentation fault"), (12, "User defined signal 2"),
    (14, "Alarm clock"), (15, "Terminated"), (16, "Stack fault"),
    (24, "CPU time limit exceeded"), (25, "File size limit exceeded"),
    (26, "Virtual timer expired"), (27, "Profiling timer expired"), (29, "I/O possible"),
    (30, "Power failure"), (31, "Bad system call")].lookup n

end Flowline.Shell
