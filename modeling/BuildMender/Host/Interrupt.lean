import BuildMender.Text.Basic

/-!
# Interrupts

A process can be interrupted by a signal. A signal has a number and a name, and something to be said of
a process that it ends. Unless a process says otherwise, most signals end it; a few do nothing, and a
few stop it until it is told to go on.
-/

namespace BuildMender.Host.Interrupt

/-- The number of the first signal that has no name. -/
def bound : Nat := 65

/-- The names of the first signals, from number zero, which stands for the end of a process. -/
def firstNames : List Text :=
  Text.split (· = ' ') ("EXIT HUP INT QUIT ILL TRAP ABRT BUS FPE KILL USR1 SEGV USR2 PIPE ALRM TERM 16 " ++
    "CHLD CONT STOP TSTP TTIN TTOU URG XCPU XFSZ VTALRM PROF WINCH IO PWR SYS 32 33" : String).toList

/-- The first and the last of the signals that are told apart by their distance only. -/
def distant : Nat × Nat := (34, 64)

/-- **The name of a signal.** -/
def name (n : Nat) : Text :=
  match firstNames[n]? with
  | some t => t
  | none =>
    if n = distant.1 then "RTMIN"
    else if n = distant.2 then "RTMAX"
    else if n < 50 then "RTMIN+" ++ Text.decimal (n - distant.1)
    else "RTMAX-" ++ Text.decimal (distant.2 - n)

/-- The number of a signal with a name, large or small letters. -/
def number? (t : Text) : Option Nat := (List.range bound).find? fun n => name n == t

/-- The end of a process in its own way. -/
def exit : Nat := 0

/-- The wish that a process ends, from the keyboard. -/
def interrupt : Nat := 2

/-- The wish that a process ends and leaves a picture of itself, from the keyboard. -/
def quit : Nat := 3

/-- A sum of a process that the machine cannot do. -/
def overflow : Nat := 8

/-- The end of a process that it cannot avoid. -/
def kill : Nat := 9

/-- Nobody reads what a process writes. -/
def pipe : Nat := 13

/-- The wish that a process ends. -/
def terminate : Nat := 15

/-- The end of a child. -/
def child : Nat := 17

/-- The end of a stop. -/
def resume : Nat := 18

/-- A stop that a process cannot avoid. -/
def stop : Nat := 19

/-- What is said of a process that a signal has ended, from number one. -/
def descriptions : List Text :=
  Text.split (· = ';') ("Hangup;Interrupt;Quit;Illegal instruction;Trace/breakpoint trap;Aborted;" ++
    "Bus error;Floating point exception;Killed;User defined signal 1;Segmentation fault;" ++
    "User defined signal 2;Broken pipe;Alarm clock;Terminated;Stack fault;Child exited;Continued;" ++
    "Stopped (signal);Stopped;Stopped (tty input);Stopped (tty output);Urgent I/O condition;" ++
    "CPU time limit exceeded;File size limit exceeded;Virtual timer expired;" ++
    "Profiling timer expired;Window changed;I/O possible;Power failure;Bad system call" : String).toList

/-- What is said of a process that a signal has ended. -/
def description (n : Nat) : Text :=
  match descriptions[n - 1]? with
  | some t => t
  | none =>
    if distant.1 ≤ n then "Real-time signal " ++ Text.decimal (n - distant.1)
    else "Unknown signal " ++ Text.decimal n

/-- The signals that do nothing of themselves. -/
def idle : List Nat := [child, resume, 23, 28]

/-- The signals that stop a process. -/
def stopping : List Nat := [stop, 20, 21, 22]

end BuildMender.Host.Interrupt
