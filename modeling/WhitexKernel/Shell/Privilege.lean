import WhitexKernel.Lib.Outcome
import WhitexKernel.Lib.Transition
import WhitexKernel.Shell.Strings

/-!
# Privilege — `sudo`, `sys_kill_protect` and `sys_open_safe`

Three flags say what the kernel lets through.  `Authority` is what they amount to: protected, root
with the protections off, or neither root nor protected.  The calls move between these three, and
the kernel's flags follow (`Shows.step`).

The protections come back only with `sys_open_safe`: a refused `sudo` takes the root flag away and
leaves them as they are (`protected_run_iff`).
-/

namespace WhitexKernel
namespace Shell

open Lib Machine

/-! ## Calls -/

/-- A call, with what is typed in answer to its questions. -/
inductive PrivilegeCall
  | sudoAttempt (authLine credLine : TypedLine)
  | killProtect
  | openSafe

def PrivilegeCall.run (call : PrivilegeCall) (s : ShellState) : Except Stop ShellState :=
  match call with
  | .sudoAttempt authLine credLine => cmdSudoHandler authLine credLine s
  | .killProtect => sysKillProtect s
  | .openSafe => sysOpenSafe s

/-- A call that returns. -/
def privilegeStep (s : ShellState) (call : PrivilegeCall) : Option ShellState :=
  (call.run s).toOption

/-- The state `sys_env_bootstrap` leaves. -/
def bootstrapped (s : ShellState) : ShellState :=
  match sysEnvBootstrap s with
  | .ok t => t
  | .error _ => s

/-- `sudo` gets the answers it wants. -/
def granted (authLine credLine : TypedLine) : Prop :=
  confirms (sysSanitizeString authLine.text sysMaxBuffer) = true ∧
    sysConstantTimeCompare (sysSanitizeString credLine.text sysMaxBuffer) "root".toList
      sysMaxBuffer = true

instance (authLine credLine : TypedLine) : Decidable (granted authLine credLine) :=
  inferInstanceAs (Decidable (_ ∧ _))

/-! ## What the flags amount to -/

inductive Authority
  /-- Not root, protections on. -/
  | guarded
  /-- Root, protections off. -/
  | root
  /-- Not root, protections off. -/
  | exposed
  deriving DecidableEq, Repr

namespace Authority

def next : Authority → PrivilegeCall → Authority
  | _, .openSafe => guarded
  | a, .killProtect => a
  | a, .sudoAttempt authLine credLine =>
      if granted authLine credLine then root else if a = guarded then guarded else exposed

def isRoot : Authority → Nat
  | guarded => 0
  | root => 1
  | exposed => 0

def isolationActive : Authority → Nat
  | guarded => 1
  | root => 0
  | exposed => 0

def memoryGuard : Authority → Nat
  | guarded => sysStackGuard
  | root => 0
  | exposed => 0

end Authority

/-- The canaries and the kernel zone are as `sys_verify_integrity` wants them. -/
structure Sound (s : ShellState) : Prop where
  structuralCanary : s.env.structuralCanary = s.globalCanary
  structuresCanary : s.sysLog.structuresCanary = s.globalCanary
  baseAddress : s.env.kernelZone.baseAddress = 0x00000000
  limit : s.env.kernelZone.limit = 0x000FFFFF

/-- The flags of `s` show `a`. -/
structure Shows (a : Authority) (s : ShellState) : Prop where
  sound : Sound s
  isRoot : s.env.isRoot = a.isRoot
  isolationActive : s.env.isolationActive = a.isolationActive
  memoryGuard : s.env.memoryGuard = a.memoryGuard

/-! ## The code returns -/

@[simp] theorem env_logged (s : ShellState) (level : Nat) (msg : List Char) :
    (s.logged level msg).env = s.env := rfl

@[simp] theorem globalCanary_logged (s : ShellState) (level : Nat) (msg : List Char) :
    (s.logged level msg).globalCanary = s.globalCanary := rfl

@[simp] theorem structuresCanary_logged (s : ShellState) (level : Nat) (msg : List Char) :
    (s.logged level msg).sysLog.structuresCanary = s.sysLog.structuresCanary := by
  unfold ShellState.logged SysLogRing.makeRoom SysLogRing.store
  split <;> rfl

/-- With its canary in place, the log takes the message. -/
theorem sysLogWrite_ok {s : ShellState} (h : s.sysLog.structuresCanary = s.globalCanary)
    (level : Nat) (msg : List Char) : sysLogWrite level msg s = .ok (s.logged level msg) := by
  simp [sysLogWrite, h]

namespace Sound

variable {s : ShellState}

theorem print (h : Sound s) (text : List Char) : Sound (s.print text) :=
  ⟨h.structuralCanary, h.structuresCanary, h.baseAddress, h.limit⟩

theorem logged (h : Sound s) (level : Nat) (msg : List Char) : Sound (s.logged level msg) :=
  ⟨h.structuralCanary, (structuresCanary_logged s level msg).trans h.structuresCanary,
    h.baseAddress, h.limit⟩

end Sound

namespace ShellState

/-- The state with the three flags set. -/
def withFlags (s : ShellState) (isRoot isolationActive memoryGuard : Nat) : ShellState :=
  { s with env := { s.env with
      isRoot := isRoot, isolationActive := isolationActive, memoryGuard := memoryGuard } }

end ShellState

namespace Shows

variable {a : Authority} {s : ShellState}

theorem print (h : Shows a s) (text : List Char) : Shows a (s.print text) :=
  ⟨h.sound.print text, h.isRoot, h.isolationActive, h.memoryGuard⟩

theorem logged (h : Shows a s) (level : Nat) (msg : List Char) : Shows a (s.logged level msg) :=
  ⟨h.sound.logged level msg, h.isRoot, h.isolationActive, h.memoryGuard⟩

theorem withFlags (h : Sound s) (b : Authority) :
    Shows b (s.withFlags b.isRoot b.isolationActive b.memoryGuard) :=
  ⟨⟨h.structuralCanary, h.structuresCanary, h.baseAddress, h.limit⟩, rfl, rfl, rfl⟩

theorem verify (h : Shows a s) : sysVerifyIntegrity s = .ok s := by
  have hstack : ¬(s.env.memoryGuard ≠ sysStackGuard ∧ s.env.isolationActive ≠ 0) := by
    rw [h.memoryGuard, h.isolationActive]
    cases a <;> decide
  unfold sysVerifyIntegrity
  rw [if_neg (by simp [h.sound.structuralCanary, h.sound.structuresCanary]), if_neg hstack,
    if_neg (by simp [h.sound.baseAddress, h.sound.limit])]

/-- A refused attempt takes the root flag away, and no more. -/
theorem refused (h : Shows a s) :
    Shows (if a = .guarded then .guarded else .exposed)
      { s with env := { s.env with isRoot := 0 } } := by
  refine ⟨⟨h.sound.structuralCanary, h.sound.structuresCanary, h.sound.baseAddress,
    h.sound.limit⟩, ?_, ?_, ?_⟩
  · cases a <;> rfl
  · calc s.env.isolationActive
        = a.isolationActive := h.isolationActive
      _ = (if a = .guarded then Authority.guarded else .exposed).isolationActive := by
        cases a <;> rfl
  · calc s.env.memoryGuard
        = a.memoryGuard := h.memoryGuard
      _ = (if a = .guarded then Authority.guarded else .exposed).memoryGuard := by
        cases a <;> rfl

/-- The log entry and the message a call ends with. -/
theorem report (h : Shows a s) (level : Nat) (msg text : List Char) :
    ∃ t, (do
      let s ← sysLogWrite level msg s
      return s.print text) = Except.ok t ∧ Shows a t :=
  ⟨(s.logged level msg).print text, by simp [sysLogWrite_ok h.sound.structuresCanary, pure,
    Except.pure], (h.logged level msg).print text⟩

theorem cmdSudoHandler (h : Shows a s) (authLine credLine : TypedLine) :
    ∃ t, cmdSudoHandler authLine credLine s = .ok t ∧
      Shows (a.next (.sudoAttempt authLine credLine)) t := by
  have hasked := h.print "Do you have root privileges? (yes/no): ".toList
  have hcred := hasked.print "Enter root authentication password: ".toList
  unfold Shell.cmdSudoHandler
  simp only [h.verify, Outcome.ok_bind, Authority.next]
  by_cases hauth : confirms (sysSanitizeString authLine.text sysMaxBuffer) = true
  · by_cases hroot : sysConstantTimeCompare (sysSanitizeString credLine.text sysMaxBuffer)
        "root".toList sysMaxBuffer = true
    · -- both answers are right
      have hgranted : granted authLine credLine := ⟨hauth, hroot⟩
      rw [if_pos hauth, if_pos hroot, if_pos hgranted]
      exact (withFlags hcred.sound .root).report _ _ _
    · -- the password is wrong
      have hgranted : ¬ granted authLine credLine := fun hboth => hroot hboth.2
      rw [if_pos hauth, if_neg hroot, if_neg hgranted]
      exact hcred.refused.report _ _ _
  · have hgranted : ¬ granted authLine credLine := fun hboth => hauth hboth.1
    rw [if_neg hauth, if_neg hgranted]
    exact ⟨_, rfl, hasked.refused.print _⟩

theorem sysKillProtect (h : Shows a s) :
    ∃ t, sysKillProtect s = .ok t ∧ Shows (a.next .killProtect) t := by
  unfold Shell.sysKillProtect
  simp only [h.verify, Outcome.ok_bind]
  by_cases hroot : s.env.isRoot = 0
  · rw [if_pos hroot]
    exact ⟨_, rfl, h.print _⟩
  · -- only root gets here, and has the protections off already
    have ha : a = .root := by
      rw [h.isRoot] at hroot
      cases a with
      | guarded => exact absurd rfl hroot
      | root => rfl
      | exposed => exact absurd rfl hroot
    subst ha
    rw [if_neg hroot]
    exact (withFlags h.sound .root).report _ _ _

theorem sysOpenSafe (h : Shows a s) :
    ∃ t, sysOpenSafe s = .ok t ∧ Shows (a.next .openSafe) t :=
  (withFlags h.sound .guarded).report _ _ _

/-- The kernel follows the authority: every call returns, and does what it should to the flags. -/
theorem step (h : Shows a s) (call : PrivilegeCall) :
    ∃ t, privilegeStep s call = some t ∧ Shows (a.next call) t := by
  have hrun : ∃ t, call.run s = .ok t ∧ Shows (a.next call) t := by
    cases call with
    | sudoAttempt authLine credLine => exact h.cmdSudoHandler authLine credLine
    | killProtect => exact h.sysKillProtect
    | openSafe => exact h.sysOpenSafe
  rcases hrun with ⟨t, hcall, hshows⟩
  exact ⟨t, by simp [privilegeStep, hcall, Except.toOption], hshows⟩

/-- No call of a run stops the kernel, and the flags show where the calls lead. -/
theorem run {a : Authority} {s : ShellState} (h : Shows a s) (calls : List PrivilegeCall) :
    ∃ t, exec privilegeStep s calls = some t ∧ Shows (calls.foldl Authority.next a) t := by
  induction calls generalizing a s with
  | nil => exact ⟨s, rfl, h⟩
  | cons call calls ih =>
      rcases h.step call with ⟨t, ht, hshows⟩
      rcases ih hshows with ⟨u, hu, hlast⟩
      exact ⟨u, by simp [ht, hu], hlast⟩

end Shows

theorem sysEnvBootstrap_ok (s : ShellState) : sysEnvBootstrap s = .ok (bootstrapped s) := by
  have hlog : ∃ t, sysEnvBootstrap s = .ok t := ⟨_, sysLogWrite_ok rfl _ _⟩
  rcases hlog with ⟨t, ht⟩
  simp [bootstrapped, ht]

theorem bootstrapped_shows (s : ShellState) : Shows .guarded (bootstrapped s) := by
  have hlog : sysEnvBootstrap s = .ok _ := sysLogWrite_ok rfl _ _
  rw [← Except.ok.inj (hlog.symm.trans (sysEnvBootstrap_ok s))]
  exact Shows.logged ⟨⟨rfl, rfl, rfl, rfl⟩, rfl, rfl, rfl⟩ _ _

/-! ## Runs -/

/-- Only root goes without the protections. -/
def Protected (s : ShellState) : Prop :=
  s.env.isRoot = 0 → s.env.isolationActive = 1 ∧ s.env.memoryGuard = sysStackGuard

/-- `is_root` becomes 1 only for the right answers, exactly as they should be typed. -/
def RootByPassword (s : ShellState) (call : PrivilegeCall) : Prop :=
  ∀ t, privilegeStep s call = some t → s.env.isRoot ≠ 1 → t.env.isRoot = 1 →
    ∃ authLine credLine, call = .sudoAttempt authLine credLine ∧
      (authLine.text = "yes".toList ∨ authLine.text = "y".toList) ∧ credLine.text = "root".toList

/-- No attempt is refused while the protections are off, and nobody becomes root by answers that
are right only up to a cut character. -/
def Harmless (s : ShellState) (call : PrivilegeCall) : Prop :=
  match call with
  | .sudoAttempt authLine credLine =>
      if granted authLine credLine then
        s.env.isRoot = 0 → Clean authLine.text ∧ Clean credLine.text
      else s.env.isRoot = 0
  | .killProtect => True
  | .openSafe => True

instance (s : ShellState) (call : PrivilegeCall) : Decidable (Harmless s call) :=
  match call with
  | .sudoAttempt authLine credLine =>
      inferInstanceAs (Decidable (if granted authLine credLine then
        s.env.isRoot = 0 → Clean authLine.text ∧ Clean credLine.text else s.env.isRoot = 0))
  | .killProtect => isTrue trivial
  | .openSafe => isTrue trivial

namespace Shows

variable {a b : Authority} {s t : ShellState}

theorem protected_iff (h : Shows a s) : Protected s ↔ a ≠ .exposed := by
  unfold Protected
  rw [h.isRoot, h.isolationActive, h.memoryGuard]
  cases a <;> decide

theorem isRoot_eq_one_iff (h : Shows a s) : s.env.isRoot = 1 ↔ a = .root := by
  rw [h.isRoot]
  cases a <;> decide

theorem isRoot_eq_zero_iff (h : Shows a s) : s.env.isRoot = 0 ↔ a ≠ .root := by
  rw [h.isRoot]
  cases a <;> decide

end Shows

theorem confirms_iff (authQuery : List Char) :
    confirms authQuery = true ↔ authQuery = "yes".toList ∨ authQuery = "y".toList := by
  unfold confirms
  rw [Bool.or_eq_true, sysConstantTimeCompare_eq_true (by decide),
    sysConstantTimeCompare_eq_true (by decide)]

theorem granted_iff (authLine credLine : TypedLine) :
    granted authLine credLine ↔
      (sysSanitizeString authLine.text sysMaxBuffer = "yes".toList ∨
        sysSanitizeString authLine.text sysMaxBuffer = "y".toList) ∧
      sysSanitizeString credLine.text sysMaxBuffer = "root".toList := by
  unfold granted
  rw [confirms_iff, sysConstantTimeCompare_eq_true (by decide)]

/-- A typed line passes as it is exactly when it is clean. -/
theorem sanitized_eq_self_iff (line : TypedLine) :
    sysSanitizeString line.text sysMaxBuffer = line.text ↔ Clean line.text :=
  sysSanitizeString_eq_self_iff (Nat.le_trans line.length_le (by decide))

/-- Right answers are typed exactly when nothing is cut from them. -/
theorem typed_exactly_iff {authLine credLine : TypedLine} (h : granted authLine credLine) :
    (authLine.text = "yes".toList ∨ authLine.text = "y".toList) ∧ credLine.text = "root".toList ↔
      Clean authLine.text ∧ Clean credLine.text := by
  rcases (granted_iff authLine credLine).1 h with ⟨hauth, hcred⟩
  constructor
  · rintro ⟨hyes, hroot⟩
    refine ⟨?_, by rw [hroot]; decide⟩
    rcases hyes with hyes | hyes <;> rw [hyes] <;> decide
  · rintro ⟨hcleanAuth, hcleanCred⟩
    rw [(sanitized_eq_self_iff authLine).2 hcleanAuth] at hauth
    rw [(sanitized_eq_self_iff credLine).2 hcleanCred] at hcred
    exact ⟨hauth, hcred⟩

/-- One call from a protected state does what it may exactly when it is harmless. -/
theorem harmless_iff {a : Authority} {s t : ShellState} {call : PrivilegeCall} (h : Shows a s)
    (hs : Protected s) (hstep : privilegeStep s call = some t) :
    RootByPassword s call ∧ Protected t ↔ Harmless s call := by
  rcases h.step call with ⟨u, hu, hshows⟩
  obtain rfl : u = t := Option.some.inj (hu.symm.trans hstep)
  have ha : a ≠ .exposed := h.protected_iff.1 hs
  rw [hshows.protected_iff]
  cases call with
  | killProtect =>
      -- nobody becomes root that was not root before
      refine ⟨fun _ => trivial, fun _ => ⟨?_, ha⟩⟩
      intro v hv hroot hbecomes
      obtain rfl : u = v := Option.some.inj (hu.symm.trans hv)
      exact absurd (h.isRoot_eq_one_iff.2 (hshows.isRoot_eq_one_iff.1 hbecomes)) hroot
  | openSafe =>
      refine ⟨fun _ => trivial, fun _ => ⟨?_, by simp [Authority.next]⟩⟩
      intro v hv _ hbecomes
      obtain rfl : u = v := Option.some.inj (hu.symm.trans hv)
      exact absurd (hshows.isRoot_eq_one_iff.1 hbecomes) (by simp [Authority.next])
  | sudoAttempt authLine credLine =>
      by_cases hgranted : granted authLine credLine
      · have hroot : u.env.isRoot = 1 := hshows.isRoot_eq_one_iff.2 (by
          simp [Authority.next, hgranted])
        have htyped := typed_exactly_iff hgranted
        simp only [Harmless, if_pos hgranted, h.isRoot_eq_zero_iff, ← htyped]
        constructor
        · rintro ⟨hby, _⟩ hnot
          have hne : s.env.isRoot ≠ 1 := fun hone => hnot (h.isRoot_eq_one_iff.1 hone)
          rcases hby u hu hne hroot with ⟨auth, cred, heq, hanswers⟩
          cases heq
          exact hanswers
        · intro hanswers
          refine ⟨?_, by simp [Authority.next, hgranted]⟩
          intro v _ hne _
          have hnot : a ≠ .root := fun heq => hne (h.isRoot_eq_one_iff.2 heq)
          exact ⟨authLine, credLine, rfl, hanswers hnot⟩
      · simp only [Harmless, if_neg hgranted, h.isRoot_eq_zero_iff, Authority.next]
        cases a with
        | guarded =>
            refine ⟨fun _ => by decide, fun _ => ⟨?_, by decide⟩⟩
            intro v hv _ hbecomes
            obtain rfl : u = v := Option.some.inj (hu.symm.trans hv)
            have hnext := hshows.isRoot_eq_one_iff.1 hbecomes
            simp [Authority.next, hgranted] at hnext
        | root => simp
        | exposed => exact absurd rfl ha

/-- After `sys_env_bootstrap`, for every sequence of calls and every typed answer: root comes only
from the right answers, exactly typed, and only root goes without the protections, exactly as long
as every call is harmless. -/
theorem protected_run_iff (s : ShellState) (calls : List PrivilegeCall) :
    AllSteps privilegeStep RootByPassword (bootstrapped s) calls ∧
        AllStates privilegeStep Protected (bootstrapped s) calls ↔
      AllSteps privilegeStep Harmless (bootstrapped s) calls := by
  refine allSteps_and_allStates_iff (J := fun s => ∃ a, Shows a s) ?_ ?_
    ⟨.guarded, bootstrapped_shows s⟩ ((bootstrapped_shows s).protected_iff.2 (by decide))
  · rintro s call t ⟨a, h⟩ hstep
    rcases h.step call with ⟨u, hu, hshows⟩
    obtain rfl : u = t := Option.some.inj (hu.symm.trans hstep)
    exact ⟨a.next call, hshows⟩
  · rintro s call t ⟨a, h⟩ hs hstep
    exact harmless_iff h hs hstep

/-! ## The protections stay off -/

/-- A line of characters that are all on keys. -/
def typed (text : List Char) (h : text.length ≤ 254 ∧ OnKeys text) : TypedLine :=
  { text := text
    length_le := h.1
    typable := h.2 }

/-- `sudo` with the right answers, then `sudo` with a "no". -/
def refusedAfterGranted : List PrivilegeCall :=
  [.sudoAttempt (typed ['y', 'e', 's'] (by decide +kernel))
      (typed ['r', 'o', 'o', 't'] (by decide +kernel)),
    .sudoAttempt (typed ['n', 'o'] (by decide +kernel)) (typed [] (by decide +kernel))]

theorem protected_run_false :
    ¬ ∀ (s : ShellState) (calls : List PrivilegeCall),
      AllSteps privilegeStep RootByPassword (bootstrapped s) calls ∧
        AllStates privilegeStep Protected (bootstrapped s) calls := by
  intro h
  rcases (bootstrapped_shows ShellState.initial).run refusedAfterGranted with ⟨t, ht, hshows⟩
  have hprotected : Protected t := (h ShellState.initial refusedAfterGranted).2.last ht
  -- not root any more, and still without the protections
  have hexposed : refusedAfterGranted.foldl Authority.next .guarded = .exposed := by decide
  exact hshows.protected_iff.1 hprotected hexposed

end Shell
end WhitexKernel
