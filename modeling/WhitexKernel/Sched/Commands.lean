import WhitexKernel.Sched.Model

/-!
# Commands — the shell commands on processes (`sys_tools.h`)

An argument is the string the command was called with; an empty one and a null pointer are the same
to the commands.
-/

namespace WhitexKernel
namespace Sched

open Machine

/-- `*str >= '0' && *str <= '9'` -/
def isDigit (c : Char) : Bool := decide ('0' ≤ c) && decide (c ≤ '9')

/-- The loop of `parse_integer`, with the digits read so far in `result`. -/
def parseIntegerLoop : List Char → Nat → Nat
  | [], result => result
  | c :: str, result =>
      if isDigit c then
        parseIntegerLoop str (wrap32 (wrap32 (result * 10) + (c.toNat - '0'.toNat)))
      else result

def parseInteger (str : List Char) : Nat := parseIntegerLoop str 0

/-- The process table afterwards, and what is printed. -/
def cmdKill (s : SchedulerState) (arg : List Char) : SchedulerState × String :=
  if arg = [] then (s, "Usage: kill <pid>\n")
  else
    match schedulerTerminateProcess s (parseInteger arg) with
    | (s, .ok) => (s, "Process terminated successfully.\n")
    | (s, .ioPermission) => (s, "Error: System critical processes cannot be terminated!\n")
    | (s, _) => (s, "Error: Specified PID not found.\n")

theorem cmdKill_sched (s : SchedulerState) {arg : List Char} (h : arg ≠ []) :
    (cmdKill s arg).1 = (schedulerTerminateProcess s (parseInteger arg)).1 := by
  unfold cmdKill
  rw [if_neg h]
  split
  case h_1 t hterminate => rw [hterminate]
  case h_2 t hterminate => rw [hterminate]
  case h_3 t e _ _ hterminate => rw [hterminate]

/-- The word in front of the first blank, at most 15 characters, and the text behind the blank. -/
def splitTarget (args : List Char) : List Char × List Char :=
  let pidStr := (args.take 15).takeWhile (· ≠ ' ')
  let rest := args.drop pidStr.length
  (pidStr, if rest.head? = some ' ' then rest.drop 1 else rest)

/-- The byte at offset `i` of a string in memory, the terminating zero included. -/
def stringByte (text : List Char) (i : Nat) : UInt8 :=
  match text[i]? with
  | some c => c.toNat.toUInt8
  | none => 0

def cmdMsgsend (s : SchedulerState) (args : List Char) : SchedulerState × String :=
  if args = [] then (s, "Usage: msgsend <target_pid> <message>\n")
  else
    let (pidStr, message) := splitTarget args
    match schedulerIpcSend s (parseInteger pidStr) (stringByte message) (message.length + 1) 1 with
    | (s, .ok) => (s, "Message sent successfully.\n")
    | (s, _) => (s, "Error: Message could not be sent.\n")

theorem cmdMsgsend_sched (s : SchedulerState) {args : List Char} (h : args ≠ []) :
    (cmdMsgsend s args).1 =
      (schedulerIpcSend s (parseInteger (splitTarget args).1) (stringByte (splitTarget args).2)
        ((splitTarget args).2.length + 1) 1).1 := by
  unfold cmdMsgsend
  rw [if_neg h]
  simp only
  split
  case h_1 t hsend => rw [hsend]
  case h_2 t e _ hsend => rw [hsend]

end Sched
end WhitexKernel
