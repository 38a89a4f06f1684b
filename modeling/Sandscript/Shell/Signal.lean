import Sandscript.Shell.Tool

/-!
# Signals

Signals by name and number, and what each does to a process that has no other plans.
-/

namespace Sandscript

namespace Shell

/-- The names of signals; the first has the number one. -/
def signalNames : List String :=
  ["HUP", "INT", "QUIT", "ILL", "TRAP", "ABRT", "BUS", "FPE", "KILL", "USR1", "SEGV", "USR2",
    "PIPE", "ALRM", "TERM", "STKFLT", "CHLD", "CONT", "STOP", "TSTP", "TTIN", "TTOU", "URG", "XCPU",
    "XFSZ", "VTALRM", "PROF", "WINCH", "IO", "PWR", "SYS"]

/-- The number of a signal that is given by name or number; zero is no signal. -/
def signal? (t : Text) : Option Nat :=
  match decimal? t with
  | some n => if n < 65 then some n else none
  | none =>
    if t = "EXIT".toList then some 0
    else
      let short := if Text.opens "SIG".toList t then t.drop 3 else t
      (signalNames.idxOf? (String.ofList short)).map (· + 1)

/-- What a shell says about a process that a signal has ended. -/
def obituary (signal : Nat) : Text :=
  (match signal with
  | 1 => "Hangup"
  | 2 | 13 => ""
  | 3 => "Quit"
  | 4 => "Illegal instruction"
  | 5 => "Trace/breakpoint trap"
  | 6 => "Aborted"
  | 7 => "Bus error"
  | 8 => "Floating point exception"
  | 9 => "Killed"
  | 10 => "User defined signal 1"
  | 11 => "Segmentation fault"
  | 12 => "User defined signal 2"
  | 14 => "Alarm clock"
  | 15 => "Terminated"
  | _ => "Unknown signal").toList

/-- What a signal does. -/
inductive Reaction where
  | nothing
  | stops
  | kills
deriving DecidableEq, Repr

/-- What a signal does to a process that has no other plans. -/
def reaction (signal : Nat) : Reaction :=
  if [0, 17, 18, 23, 28].contains signal then .nothing
  else if [19, 20, 21, 22].contains signal then .stops
  else .kills

end Shell

end Sandscript
