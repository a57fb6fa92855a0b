import WhitexKernel.Machine.Word
import WhitexKernel.Shell.Keyboard

/-!
# Shell — commands, privileges and the log (`Kernel.c`)

A string is the list of its characters before the terminating NUL; what `print` is given goes to
the end of `printed`.  A routine that the dispatcher calls is recorded in `invoked`: the call is the
last thing the dispatcher does, and what the routine does is its own code.

Code that stops the processor does not return (`Stop`).
-/

namespace WhitexKernel
namespace Shell

open Machine

/-! ## Constants -/

/-- `SYS_STACK_GUARD` -/
def sysStackGuard : Nat := 0xDEADBEEF

/-- `SYS_MAX_BUFFER` -/
abbrev sysMaxBuffer : Nat := 256

/-- `SYS_CMD_MAX` -/
abbrev sysCmdMax : Nat := 64

/-- `SYS_ARG_MAX` -/
abbrev sysArgMax : Nat := 190

/-- `SYS_LOG_CAPACITY` -/
abbrev sysLogCapacity : Nat := 128

/-- `CANARY_VALUE` has more than 32 bits, so its initialiser is cut to them. -/
def canaryValue : Nat := wrap32 0xCAFEBABE0

/-! ## Strings -/

/-- A `char` as it is added to a `uint32_t`: signed, so the upper half is negative. -/
def charWord (c : Char) : Nat :=
  let byte := c.toNat % 256
  if byte < 128 then byte else wrap32 (2 ^ 32 - 256 + byte)

def sysCalculateChecksum (str : List Char) (len : Nat) : Nat :=
  (str.take len).foldl (fun hash c => wrap32 (wrap32 (hash <<< 5) + hash + charWord c)) 5381

/-- The differences of the characters are collected in `result`, all of them. -/
def sysConstantTimeCompare (input expected : List Char) (maxLen : Nat) : Bool :=
  let actualLen := min input.length maxLen
  let expectedLen := min expected.length maxLen
  if actualLen ≠ expectedLen then false
  else
    let result := ((input.take actualLen).zip (expected.take actualLen)).foldl
      (fun result pair => result ||| (pair.1.toNat ^^^ pair.2.toNat)) 0
    result = 0

/-- What `dest` holds afterwards. -/
def sysSafeStrncpy (src : List Char) (maxLen : Nat) : List Char := src.take (maxLen - 1)

/-- The characters that end a sanitised string. -/
def cutCharacters : List Char := ['\n', '\r', ';', '&', '|']

def sysSanitizeString : List Char → Nat → List Char
  | str, 0 => str
  | [], _ + 1 => []
  | c :: str, maxLen + 1 =>
      if c ∈ cutCharacters then [] else c :: sysSanitizeString str maxLen

/-! ## State -/

structure LogEntry where
  logLevel : Nat
  timestamp : Nat
  message : List Char
  integrityChecksum : Nat
  deriving DecidableEq, Repr

def LogEntry.zero : LogEntry :=
  { logLevel := 0
    timestamp := 0
    message := []
    integrityChecksum := 0 }

/-- `sys_log_ring_t` -/
structure SysLogRing where
  entries : Nat → LogEntry
  head : Nat
  tail : Nat
  count : Nat
  structuresCanary : Nat

structure MemoryZone where
  baseAddress : Nat
  limit : Nat
  flags : Nat
  privilegeLevel : Nat
  isPresent : Nat
  deriving DecidableEq, Repr

/-- `sys_environment_t` -/
structure SysEnvironment where
  systemState : Nat
  memoryGuard : Nat
  executionCycles : Nat
  faultDetected : Nat
  kernelZone : MemoryZone
  isRoot : Nat
  isolationActive : Nat
  structuralCanary : Nat
  deriving DecidableEq, Repr

/-- `routine_void_t` values of the dispatch table. -/
inductive Routine
  | help | logo | cls | uname | reboot | shutdown | ls | mkdir | cd | pwd | hexdump | initFs | cpuid
  | notepad | ant | time | internetmain | shellfs | ram | htop | melodi | newTask | ps | cmdTop
  | cmdMsgrecv | cmdLifecycleTelemetry | ping | cmdRandomFortune | batt
  deriving DecidableEq, Repr

/-- `routine_arg_t` values of the dispatch table. -/
inductive ArgRoutine
  | cmdEchoHandler | cmdKill | cmdMsgsend | wxPkgCliHandler | cmdCalcHandler | cmdLifecycleReset
  | faulthandler | cmdSudoHandler | executeNanoTerminalSimulator
  deriving DecidableEq, Repr

/-- A call through one of the two pointers of an entry. -/
inductive Invocation
  | plain (routine : Routine)
  | withArgs (routine : ArgRoutine) (args : List Char)
  deriving DecidableEq, Repr

/-- The globals of `Kernel.c`, with what has been printed and the routines that were called. -/
structure ShellState where
  env : SysEnvironment
  sysLog : SysLogRing
  globalCanary : Nat
  tickCounter : Nat
  printed : List Char
  invoked : List Invocation

/-- Why a function does not return. -/
inductive Stop
  /-- `cli`, then `hlt` for ever. -/
  | halted (s : ShellState)
  /-- A read of `g_dispatch_table` outside the table. -/
  | outOfBounds (index : Nat)

namespace ShellState

def print (s : ShellState) (text : List Char) : ShellState :=
  { s with printed := s.printed ++ text }

def invoke (s : ShellState) (call : Invocation) : ShellState :=
  { s with invoked := s.invoked ++ [call] }

/-- Before `sys_env_bootstrap`: the globals as they are initialised. -/
def initial : ShellState :=
  { env :=
      { systemState := 0
        memoryGuard := 0
        executionCycles := 0
        faultDetected := 0
        kernelZone :=
          { baseAddress := 0
            limit := 0
            flags := 0
            privilegeLevel := 0
            isPresent := 0 }
        isRoot := 0
        isolationActive := 0
        structuralCanary := 0 }
    sysLog :=
      { entries := fun _ => LogEntry.zero
        head := 0
        tail := 0
        count := 0
        structuresCanary := 0 }
    globalCanary := canaryValue
    tickCounter := 0
    printed := []
    invoked := [] }

end ShellState

/-! ## Log -/

namespace SysLogRing

/-- The oldest entry is dropped when the ring is full. -/
def makeRoom (r : SysLogRing) : SysLogRing :=
  if r.count ≥ sysLogCapacity then
    { r with head := (r.head + 1) % sysLogCapacity, count := r.count - 1 }
  else r

/-- The stores of `sys_log_write`. -/
def store (r : SysLogRing) (entry : LogEntry) : SysLogRing :=
  { r with
    entries := Function.update r.entries r.tail entry
    tail := (r.tail + 1) % sysLogCapacity
    count := r.count + 1 }

end SysLogRing

def logEntry (level timestamp : Nat) (msg : List Char) : LogEntry :=
  { logLevel := level
    timestamp := timestamp
    message := sysSafeStrncpy msg 128
    integrityChecksum := sysCalculateChecksum msg 128 }

/-- The state with one more entry in the log. -/
def ShellState.logged (s : ShellState) (level : Nat) (msg : List Char) : ShellState :=
  { s with sysLog := s.sysLog.makeRoom.store (logEntry level s.tickCounter msg) }

def sysLogWrite (level : Nat) (msg : List Char) (s : ShellState) : Except Stop ShellState :=
  if s.sysLog.structuresCanary ≠ s.globalCanary then .error (.halted s)
  else .ok (s.logged level msg)

/-- `notgud` and `hexdump` print, too. -/
def sysPanic (errorCode : List Char) (s : ShellState) : Except Stop ShellState := do
  let s := { s with env := { s.env with faultDetected := 1, systemState := 0 } }
  let s := s.print "\n[CRITICAL KERNEL PANIC] HARDWARE MUTEX LOCK APPLIED.\nCODE: ".toList
  let s := (s.print errorCode).print "\n".toList
  let s ← sysLogWrite 3 errorCode s
  .error (.halted s)

def sysVerifyIntegrity (s : ShellState) : Except Stop ShellState :=
  if s.env.structuralCanary ≠ s.globalCanary ∨ s.sysLog.structuresCanary ≠ s.globalCanary then
    sysPanic "ERR_INTEGRITY_VIOLATION_CANARY_BURST".toList s
  else if s.env.memoryGuard ≠ sysStackGuard ∧ s.env.isolationActive ≠ 0 then
    sysPanic "ERR_INTEGRITY_VIOLATION_STACK_SMASH".toList s
  else if s.env.kernelZone.baseAddress ≠ 0x00000000 ∨ s.env.kernelZone.limit ≠ 0x000FFFFF then
    sysPanic "ERR_INTEGRITY_VIOLATION_KERNEL_ZONE".toList s
  else .ok s

/-! ## Bootstrap -/

/-- What `sys_env_bootstrap` stores. -/
def bootstrapState (s : ShellState) : ShellState :=
  let canary := s.globalCanary ^^^ 0x55AA55AA
  { s with
    globalCanary := canary
    env :=
      { systemState := 1
        memoryGuard := sysStackGuard
        executionCycles := 0
        faultDetected := 0
        kernelZone :=
          { baseAddress := 0x00000000
            limit := 0x000FFFFF
            flags := 0x9A
            privilegeLevel := 0
            isPresent := 1 }
        isRoot := 0
        isolationActive := 1
        structuralCanary := canary }
    sysLog :=
      { entries := fun _ => LogEntry.zero
        head := 0
        tail := 0
        count := 0
        structuresCanary := canary } }

def sysEnvBootstrap (s : ShellState) : Except Stop ShellState :=
  sysLogWrite 0 "KERNEL_BOOTSTRAP_INITIALIZED_WITH_ASLR".toList (bootstrapState s)

/-! ## Privileges -/

/-- The first question of `sudo` accepts this answer. -/
def confirms (authQuery : List Char) : Bool :=
  sysConstantTimeCompare authQuery "yes".toList sysMaxBuffer ||
    sysConstantTimeCompare authQuery "y".toList sysMaxBuffer

/-- `authLine` and `credLine` are what is typed when `sudo` asks; the second question may not be
asked. -/
def cmdSudoHandler (authLine credLine : TypedLine) (s : ShellState) : Except Stop ShellState := do
  let s ← sysVerifyIntegrity s
  let s := s.print "Do you have root privileges? (yes/no): ".toList
  let authQuery := sysSanitizeString authLine.text sysMaxBuffer
  if confirms authQuery then
    let s := s.print "Enter root authentication password: ".toList
    let credEntry := sysSanitizeString credLine.text sysMaxBuffer
    if sysConstantTimeCompare credEntry "root".toList sysMaxBuffer then
      let s := { s with env := { s.env with isRoot := 1, isolationActive := 0, memoryGuard := 0 } }
      let s ← sysLogWrite 1 "PRIVILEGE_ESCALATION_SUCCESS_RING0".toList s
      return s.print "Authentication successful. Ring 0 overrides active.\n".toList
    else
      let s := { s with env := { s.env with isRoot := 0 } }
      let s ← sysLogWrite 2 "PRIVILEGE_ESCALATION_FAILED_INVALID_CREDENTIAL".toList s
      return s.print "Authentication rejected. Invalid credential matrix context.\n".toList
  else
    let s := { s with env := { s.env with isRoot := 0 } }
    return s.print "Access denied. Operational authority state remains unverified.\n".toList

def sysKillProtect (s : ShellState) : Except Stop ShellState := do
  let s ← sysVerifyIntegrity s
  if s.env.isRoot = 0 then
    return s.print "Access denied. Insufficient security clearance.\n".toList
  else
    let s := { s with env := { s.env with isRoot := 1, memoryGuard := 0, isolationActive := 0 } }
    let s ← sysLogWrite 2 "SECURITY_PROTECTION_DISABLED_WARNING".toList s
    return s.print "System protection disabled. Ring 0 override active.\n".toList

def sysOpenSafe (s : ShellState) : Except Stop ShellState := do
  let s :=
    { s with env := { s.env with memoryGuard := sysStackGuard, isRoot := 0, isolationActive := 1 } }
  let s ← sysLogWrite 0 "SECURITY_PROTECTION_RESTORED".toList s
  return s.print "WARNING: System integrity restored. Protection routines re-enabled.\n".toList

/-! ## Dispatch -/

structure DispatchEntry where
  signature : String
  execPtr : Option Routine
  execArgPtr : Option ArgRoutine
  requiresArgs : Nat
  minPrivilege : Nat
  deriving DecidableEq, Repr

/-- `g_dispatch_table`; no initialiser gives `min_privilege`. -/
def dispatchTable : List DispatchEntry :=
  [⟨"help", some .help, none, 0, 0⟩,
    ⟨"logo", some .logo, none, 0, 0⟩,
    ⟨"cls", some .cls, none, 0, 0⟩,
    ⟨"uname", some .uname, none, 0, 0⟩,
    ⟨"reboot", some .reboot, none, 0, 0⟩,
    ⟨"shutdown", some .shutdown, none, 0, 0⟩,
    ⟨"ls", some .ls, none, 0, 0⟩,
    ⟨"mkdir", some .mkdir, none, 0, 0⟩,
    ⟨"cd", some .cd, none, 0, 0⟩,
    ⟨"pwd", some .pwd, none, 0, 0⟩,
    ⟨"hexdump", some .hexdump, none, 0, 0⟩,
    ⟨"initfs", some .initFs, none, 0, 0⟩,
    ⟨"cpuid", some .cpuid, none, 0, 0⟩,
    ⟨"notepad", some .notepad, none, 0, 0⟩,
    ⟨"kiskrnl", some .ant, none, 0, 0⟩,
    ⟨"time", some .time, none, 0, 0⟩,
    ⟨"internet", some .internetmain, none, 0, 0⟩,
    ⟨"sddshell", some .shellfs, none, 0, 0⟩,
    ⟨"ram", some .ram, none, 0, 0⟩,
    ⟨"htop", some .htop, none, 0, 0⟩,
    ⟨"song", some .melodi, none, 0, 0⟩,
    ⟨"echo", none, some .cmdEchoHandler, 1, 0⟩,
    ⟨"ntask", some .newTask, none, 0, 0⟩,
    ⟨"ps", some .ps, none, 0, 0⟩,
    ⟨"top", some .cmdTop, none, 0, 0⟩,
    ⟨"kill", none, some .cmdKill, 1, 0⟩,
    ⟨"msgsend", none, some .cmdMsgsend, 1, 0⟩,
    ⟨"msgrecv", some .cmdMsgrecv, none, 0, 0⟩,
    ⟨"pkg", none, some .wxPkgCliHandler, 1, 0⟩,
    ⟨"calc", none, some .cmdCalcHandler, 1, 0⟩,
    ⟨"telemetry", some .cmdLifecycleTelemetry, none, 0, 0⟩,
    ⟨"lcreset", none, some .cmdLifecycleReset, 1, 0⟩,
    ⟨"panic", none, some .faulthandler, 0, 0⟩,
    ⟨"sudo", none, some .cmdSudoHandler, 1, 0⟩,
    ⟨"nano", none, some .executeNanoTerminalSimulator, 0, 0⟩,
    ⟨"ping", some .ping, none, 0, 0⟩,
    ⟨"fortune", some .cmdRandomFortune, none, 0, 0⟩,
    ⟨"power", some .batt, none, 0, 0⟩]

/-- `DISPATCH_TABLE_SIZE` -/
def dispatchTableSize : Nat := 40

/-- The call of an entry's routine, through the pointer that `requires_args` selects. -/
def DispatchEntry.call (entry : DispatchEntry) (args : List Char) : Option Invocation :=
  if entry.requiresArgs ≠ 0 then entry.execArgPtr.map (Invocation.withArgs · args)
  else entry.execPtr.map Invocation.plain

/-- The body of the loop for an entry whose signature is the command. -/
def executeEntry (entry : DispatchEntry) (cmdName args : List Char) (s : ShellState) :
    Except Stop ShellState :=
  if entry.minPrivilege > 0 ∧ s.env.isRoot = 0 ∧ s.env.isolationActive ≠ 0 then do
    let s ← sysLogWrite 2 "UNAUTHORIZED_EXECUTION_ATTEMPT".toList s
    return s.print
      "Permission denied. System operation restricted to authorized context.\n".toList
  else do
    let s := { s with env := { s.env with executionCycles := wrap32 (s.env.executionCycles + 1) } }
    let s ← sysLogWrite 0 cmdName s
    match entry.call args with
    | some call => return s.invoke call
    | none => return s

def unknownCommand (cmdName : List Char) : List Char :=
  "Unknown command -> ".toList ++ cmdName ++ "\n".toList

/-- The loop of `sys_execute_vector` over the indices still to come. -/
def executeLoop (cmdName args : List Char) (s : ShellState) : List Nat → Except Stop ShellState
  | [] => .ok (s.print (unknownCommand cmdName))
  | i :: is =>
      match dispatchTable[i]? with
      | none => .error (.outOfBounds i)
      | some entry =>
          if sysConstantTimeCompare cmdName entry.signature.toList sysCmdMax then
            executeEntry entry cmdName args s
          else executeLoop cmdName args s is

def sysExecuteVector (cmdName args : List Char) (s : ShellState) : Except Stop ShellState := do
  let s ← sysVerifyIntegrity s
  if cmdName = [] then return s
  else executeLoop cmdName args s (List.range dispatchTableSize)

/-! ## Parsing -/

/-- A copy loop with room for some characters: what it copies and what it leaves. -/
def copyWhile (p : Char → Bool) : Nat → List Char → List Char × List Char
  | 0, raw => ([], raw)
  | _ + 1, [] => ([], [])
  | room + 1, c :: raw =>
      if p c then
        let copied := copyWhile p room raw
        (c :: copied.1, copied.2)
      else ([], c :: raw)

/-- `extracted_cmd` and `extracted_args` -/
def extractCommand (rawBuffer : List Char) : List Char × List Char :=
  let command := copyWhile (· ≠ ' ') (sysCmdMax - 1) rawBuffer
  let rest := command.2.dropWhile (· = ' ')
  (command.1, (copyWhile (fun _ => true) (sysArgMax - 1) rest).1)

def sysParseInput (rawBuffer : List Char) (s : ShellState) : Except Stop ShellState := do
  let s ← sysVerifyIntegrity s
  if rawBuffer = [] ∨ rawBuffer.head? = some ' ' then return s
  else
    let extracted := extractCommand rawBuffer
    sysExecuteVector extracted.1 extracted.2 s

end Shell
end WhitexKernel
