import WhitexKernel.Lib.Ring
import WhitexKernel.Shell.Privilege

/-!
# Log — the log is a bounded queue that drops its oldest entry

`sys_log_write` makes room at the head before it writes at the tail, so the ring is overwritten like
`Lib.Ring.overwrite`; `cmd_sys_logs` follows it from the head, which is the order of its contents.
-/

namespace WhitexKernel
namespace Shell

open Lib Machine

/-! ## Reading -/

namespace SysLogRing

/-- The entries `cmd_sys_logs` comes by in `remaining` rounds, from the index `current`. -/
def walkFrom (r : SysLogRing) : Nat → Nat → List LogEntry
  | 0, _ => []
  | remaining + 1, current =>
      r.entries current :: r.walkFrom remaining ((current + 1) % sysLogCapacity)

def walk (r : SysLogRing) : List LogEntry := r.walkFrom r.count r.head

end SysLogRing

/-- A round of the loop of `cmd_sys_logs`, with `line` for what it prints of an entry. -/
def showEntry (line : LogEntry → List Char) (s : ShellState) (entry : LogEntry) :
    Except Stop ShellState :=
  if sysCalculateChecksum entry.message 128 ≠ entry.integrityChecksum then
    sysPanic "ERR_LOG_BUFFER_TAMPERED".toList s
  else .ok (s.print (line entry))

def cmdSysLogsLoop (line : LogEntry → List Char) : Nat → Nat → ShellState → Except Stop ShellState
  | 0, _, s => .ok s
  | remaining + 1, current, s => do
      let s ← showEntry line s (s.sysLog.entries current)
      cmdSysLogsLoop line remaining ((current + 1) % sysLogCapacity) s

def cmdSysLogs (line : LogEntry → List Char) (s : ShellState) : Except Stop ShellState := do
  let s ← sysVerifyIntegrity s
  if s.sysLog.count = 0 then return s.print "Log buffer is empty.\n".toList
  else cmdSysLogsLoop line s.sysLog.count s.sysLog.head s

/-- A round does not touch the log, if it ends. -/
theorem sysLog_showEntry {line : LogEntry → List Char} {s t : ShellState} {entry : LogEntry}
    (h : showEntry line s entry = .ok t) : t.sysLog = s.sysLog := by
  unfold showEntry at h
  split at h
  · unfold sysPanic at h
    simp only [bind, Except.bind] at h
    split at h
    · cases h
    · cases h
  · cases h
    rfl

/-- The loop shows the entries of its walk, one after the other. -/
theorem cmdSysLogsLoop_eq (line : LogEntry → List Char) (remaining current : Nat) (s : ShellState) :
    cmdSysLogsLoop line remaining current s =
      (s.sysLog.walkFrom remaining current).foldlM (showEntry line) s := by
  induction remaining generalizing current s with
  | zero => rfl
  | succ remaining ih =>
      unfold cmdSysLogsLoop SysLogRing.walkFrom
      rw [List.foldlM_cons]
      cases hshow : showEntry line s (s.sysLog.entries current) with
      | error e => rfl
      | ok t =>
          change cmdSysLogsLoop line remaining _ t = _
          rw [ih, sysLog_showEntry hshow]
          rfl

theorem cmdSysLogs_eq (line : LogEntry → List Char) {s t : ShellState}
    (h : sysVerifyIntegrity s = .ok t) :
    cmdSysLogs line s =
      if t.sysLog.count = 0 then .ok (t.print "Log buffer is empty.\n".toList)
      else t.sysLog.walk.foldlM (showEntry line) t := by
  unfold cmdSysLogs SysLogRing.walk
  rw [h, ← cmdSysLogsLoop_eq]
  rfl

/-! ## The ring -/

def SysLogRing.ring (r : SysLogRing) : Lib.Ring LogEntry :=
  { slots := r.entries
    head := r.head
    tail := r.tail
    count := r.count }

theorem SysLogRing.ring_logged (r : SysLogRing) (entry : LogEntry) :
    (r.makeRoom.store entry).ring = r.ring.overwrite sysLogCapacity entry := by
  unfold SysLogRing.makeRoom Ring.overwrite
  have hcount : r.ring.count = r.count := rfl
  rw [hcount]
  split <;> rfl

/-- The walk goes through the contents, oldest entry first. -/
theorem SysLogRing.walkFrom_eq (r : SysLogRing) (remaining current : Nat)
    (hcurrent : current < sysLogCapacity) :
    r.walkFrom remaining current =
      (List.range remaining).map fun k => r.entries ((current + k) % sysLogCapacity) := by
  induction remaining generalizing current with
  | zero => rfl
  | succ remaining ih =>
      have hnext : current % sysLogCapacity = current := Nat.mod_eq_of_lt hcurrent
      rw [SysLogRing.walkFrom, ih _ (Nat.mod_lt _ (by decide)), List.range_succ_eq_map,
        List.map_cons, List.map_map]
      congr 1
      · exact congrArg r.entries hnext.symm
      · refine List.map_congr_left fun k _ => ?_
        rw [Function.comp_apply, Nat.mod_add_mod]
        congr 2
        omega

theorem SysLogRing.walk_eq {r : SysLogRing} (h : r.ring.WellFormed sysLogCapacity) :
    r.walk = r.ring.contents sysLogCapacity :=
  r.walkFrom_eq r.count r.head h.head_lt

/-! ## Writing -/

/-- A call of `sys_log_write`, with the value of `g_tick_counter` it finds. -/
structure LogWrite where
  level : Nat
  tick : Nat
  msg : List Char

/-- What the call is asked to keep. -/
def LogWrite.entry (w : LogWrite) : LogEntry := logEntry w.level w.tick w.msg

def sysLogWrites (writes : List LogWrite) (s : ShellState) : Except Stop ShellState :=
  writes.foldlM (fun s w => sysLogWrite w.level w.msg { s with tickCounter := w.tick }) s

/-- The canary holds, so every call returns, and overwrites the ring. -/
theorem sysLogWrites_ring {s : ShellState} (hs : s.sysLog.structuresCanary = s.globalCanary)
    (writes : List LogWrite) : ∃ t, sysLogWrites writes s = .ok t ∧
      t.sysLog.ring = (writes.map LogWrite.entry).foldl (Ring.overwrite sysLogCapacity)
        s.sysLog.ring := by
  induction writes generalizing s with
  | nil => exact ⟨s, rfl, rfl⟩
  | cons w writes ih =>
      have hcanary : (({ s with tickCounter := w.tick } : ShellState).logged w.level
          w.msg).sysLog.structuresCanary = s.globalCanary := by
        rw [structuresCanary_logged]
        exact hs
      rcases ih hcanary with ⟨t, ht, hring⟩
      have hfirst : sysLogWrite w.level w.msg { s with tickCounter := w.tick } =
          .ok (({ s with tickCounter := w.tick } : ShellState).logged w.level w.msg) :=
        sysLogWrite_ok (s := { s with tickCounter := w.tick }) hs _ _
      refine ⟨t, ?_, ?_⟩
      · unfold sysLogWrites at ht ⊢
        rw [List.foldlM_cons, hfirst]
        exact ht
      · rw [hring, List.map_cons, List.foldl_cons]
        congr 1
        exact SysLogRing.ring_logged _ _

/-- The entry that `sys_env_bootstrap` writes itself. -/
def bootstrapWrite (s : ShellState) : LogWrite :=
  { level := 0
    tick := s.tickCounter
    msg := "KERNEL_BOOTSTRAP_INITIALIZED_WITH_ASLR".toList }

/-- The last elements of a list, as many as fit. -/
theorem rtake_eq_drop {α : Type} (cap : Nat) (xs : List α) :
    xs.rtake cap = xs.drop (xs.length - min xs.length cap) := by
  unfold List.rtake
  congr 1
  omega

/-- The log after the bootstrap and some calls: in order, with the last entries as its contents. -/
theorem sysLogWrites_bootstrapped (s : ShellState) (writes : List LogWrite) :
    ∃ u, sysLogWrites writes (bootstrapped s) = .ok u ∧
      u.sysLog.ring.WellFormed sysLogCapacity ∧
      u.sysLog.walk = ((bootstrapWrite s :: writes).map LogWrite.entry).rtake sysLogCapacity := by
  have hcanary : (bootstrapState s).sysLog.structuresCanary = (bootstrapState s).globalCanary := rfl
  rcases sysLogWrites_ring hcanary (bootstrapWrite s :: writes) with ⟨u, hu, hring⟩
  have hempty : (bootstrapState s).sysLog.ring.WellFormed sysLogCapacity :=
    ⟨show 0 < sysLogCapacity by decide, Nat.zero_le _, rfl⟩
  have hlast := hempty.foldl_overwrite ((bootstrapWrite s :: writes).map LogWrite.entry)
  rw [← hring] at hlast
  -- the bootstrap is the first of the calls
  have hrest : sysLogWrites writes (bootstrapped s) = .ok u := by
    have hfirst : sysLogWrite (bootstrapWrite s).level (bootstrapWrite s).msg
        { bootstrapState s with tickCounter := (bootstrapWrite s).tick } =
          .ok (bootstrapped s) := sysEnvBootstrap_ok s
    unfold sysLogWrites at hu ⊢
    rw [List.foldlM_cons, hfirst] at hu
    exact hu
  refine ⟨u, hrest, hlast.1, ?_⟩
  have hnone : (bootstrapState s).sysLog.ring.contents sysLogCapacity = [] :=
    Ring.contents_of_count_eq_zero rfl
  rw [SysLogRing.walk_eq hlast.1, hlast.2, hnone, List.nil_append]

/-- After `sys_env_bootstrap`, from any state of the globals, and any calls of `sys_log_write`, all of
which return, the log is in order, and holds the last of the entries that were written since the log
was cleared, the one of the bootstrap included. -/
theorem logRefines_run (s : ShellState) (writes : List LogWrite) :
    ∃ t u, sysEnvBootstrap s = .ok t ∧ sysLogWrites writes t = .ok u ∧
      u.sysLog.head < sysLogCapacity ∧ u.sysLog.tail < sysLogCapacity ∧
      u.sysLog.count ≤ sysLogCapacity ∧
      u.sysLog.tail = (u.sysLog.head + u.sysLog.count) % sysLogCapacity ∧
      u.sysLog.walk =
        ((bootstrapWrite s :: writes).map LogWrite.entry).drop
          ((bootstrapWrite s :: writes).length -
            min (bootstrapWrite s :: writes).length sysLogCapacity) := by
  rcases sysLogWrites_bootstrapped s writes with ⟨u, hu, hring, hwalk⟩
  refine ⟨_, u, sysEnvBootstrap_ok s, hu, hring.head_lt, hring.tail_lt, hring.count_le,
    hring.tail_eq, ?_⟩
  rw [hwalk, rtake_eq_drop, List.length_map]

end Shell
end WhitexKernel
