import WhitexKernel.Shell.Log

/-!
# SelfCheck — the log checks the entries it has written

`sys_log_write` takes the checksum of up to 128 characters of a message and stores up to 127 of them,
and `cmd_sys_logs` takes the checksum of what is stored.  The two are the same for every shorter
message, and for a longer one only if its 128th character happens to make no difference.

* `checksum_stored_iff` — for which messages they are the same;
* `logSound_iff` — when the log accepts its own entries.
-/

namespace WhitexKernel
namespace Shell

open Lib Machine

/-! ## Checksums -/

/-- The stored part of a message has the checksum of the message: its 128th character, if there is
one, makes no difference to the checksum of the 127 in front of it. -/
def KeepsChecksum (msg : List Char) : Prop :=
  ∀ c ∈ msg[127]?, (32 * sysCalculateChecksum msg 127 + charWord c) % 2 ^ 32 = 0

instance (msg : List Char) : Decidable (KeepsChecksum msg) :=
  Option.decidableForallMem _

theorem sysCalculateChecksum_lt (str : List Char) (len : Nat) :
    sysCalculateChecksum str len < 2 ^ 32 := by
  unfold sysCalculateChecksum
  induction str.take len using List.reverseRecOn with
  | nil => decide
  | append_singleton front c _ =>
      rw [List.foldl_append]
      exact Nat.mod_lt _ (by decide)

/-- One more character. -/
theorem sysCalculateChecksum_succ {str : List Char} {len : Nat} {c : Char}
    (hc : str[len]? = some c) : sysCalculateChecksum str (len + 1) =
      (33 * sysCalculateChecksum str len + charWord c) % 2 ^ 32 := by
  have htake : str.take (len + 1) = str.take len ++ [c] := by
    rw [List.take_add_one, hc, Option.toList_some]
  unfold sysCalculateChecksum
  rw [htake, List.foldl_append, List.foldl_cons, List.foldl_nil]
  generalize (str.take len).foldl _ 5381 = hash
  unfold wrap32
  rw [Nat.shiftLeft_eq]
  omega

/-- A string that ends is read to its end. -/
theorem sysCalculateChecksum_of_length_le {str : List Char} {len len' : Nat}
    (h : str.length ≤ len) (hle : len ≤ len') :
    sysCalculateChecksum str len = sysCalculateChecksum str len' := by
  unfold sysCalculateChecksum
  rw [List.take_of_length_le h, List.take_of_length_le (h.trans hle)]

/-- What is stored is the front of the message. -/
theorem checksum_stored (msg : List Char) :
    sysCalculateChecksum (sysSafeStrncpy msg 128) 128 = sysCalculateChecksum msg 127 := by
  have hmin : min 128 (128 - 1) = 127 := by decide
  unfold sysCalculateChecksum sysSafeStrncpy
  rw [List.take_take, hmin]

/-- When what is stored has the checksum of the message. -/
theorem checksum_stored_iff (msg : List Char) :
    sysCalculateChecksum (sysSafeStrncpy msg 128) 128 = sysCalculateChecksum msg 128 ↔
      KeepsChecksum msg := by
  rw [checksum_stored]
  unfold KeepsChecksum
  cases hlast : msg[127]? with
  | none =>
      have hlength : msg.length ≤ 127 := List.getElem?_eq_none_iff.1 hlast
      have hsame := sysCalculateChecksum_of_length_le hlength (show 127 ≤ 128 by decide)
      simp [hsame]
  | some c =>
      have hlt := sysCalculateChecksum_lt msg 127
      have hnext : sysCalculateChecksum msg 128 =
          (33 * sysCalculateChecksum msg 127 + charWord c) % 2 ^ 32 :=
        sysCalculateChecksum_succ hlast
      rw [hnext]
      simp only [Option.mem_def, Option.some.injEq, forall_eq']
      omega

/-! ## The log -/

/-- Every entry that the log holds has the checksum stored with it, and `cmd_sys_logs` comes to its
end. -/
structure LogSound (line : LogEntry → List Char) (s : ShellState) : Prop where
  matching : ∀ e ∈ s.sysLog.walk, sysCalculateChecksum e.message 128 = e.integrityChecksum
  shown : ∃ t, cmdSysLogs line s = .ok t

theorem Shows.tick {a : Authority} {s : ShellState} (h : Shows a s) (tick : Nat) :
    Shows a { s with tickCounter := tick } :=
  ⟨⟨h.sound.structuralCanary, h.sound.structuresCanary, h.sound.baseAddress, h.sound.limit⟩,
    h.isRoot, h.isolationActive, h.memoryGuard⟩

/-- Writing to the log touches nothing else. -/
theorem Shows.sysLogWrites {a : Authority} {s t : ShellState} (h : Shows a s)
    {writes : List LogWrite} (hwrites : sysLogWrites writes s = .ok t) : Shows a t := by
  induction writes generalizing s with
  | nil =>
      cases hwrites
      exact h
  | cons w writes ih =>
      have hlogged := (h.tick w.tick).logged w.level w.msg
      refine ih hlogged ?_
      unfold Shell.sysLogWrites at hwrites ⊢
      rwa [List.foldlM_cons, sysLogWrite_ok (h.tick w.tick).sound.structuresCanary] at hwrites

/-- `cmd_sys_logs` comes to its end if it finds nothing wrong. -/
theorem cmdSysLogs_of_matching {a : Authority} (line : LogEntry → List Char) {s : ShellState}
    (h : Shows a s)
    (hmatching : ∀ e ∈ s.sysLog.walk, sysCalculateChecksum e.message 128 = e.integrityChecksum) :
    ∃ t, cmdSysLogs line s = .ok t := by
  rw [cmdSysLogs_eq line h.verify]
  split
  case isTrue => exact ⟨_, rfl⟩
  case isFalse =>
    have hround : ∀ e ∈ s.sysLog.walk, ∀ t, True → ∃ u, showEntry line t e = .ok u ∧ True := by
      intro e he t _
      exact ⟨t.print (line e), if_neg (not_not.2 (hmatching e he)), trivial⟩
    rcases Outcome.foldlM_total hround (b := s) trivial with ⟨t, ht, _⟩
    exact ⟨t, ht⟩

/-- A list with an element in front of it ends as before, or is kept whole. -/
theorem mem_rtake_cons {α : Type} {n : Nat} {x y : α} {xs : List α} :
    (y ∈ (x :: xs).rtake n → y = x ∨ y ∈ xs.rtake n) ∧
      (y ∈ xs.rtake n → y ∈ (x :: xs).rtake n) := by
  unfold List.rtake
  rcases Nat.lt_or_ge xs.length n with hshort | hlong
  · have hcons : (x :: xs).length - n = 0 := by
      rw [List.length_cons]
      omega
    have htail : xs.length - n = 0 := by omega
    rw [hcons, htail]
    simp only [List.drop_zero, List.mem_cons]
    exact ⟨id, .inr⟩
  · have hcons : (x :: xs).length - n = xs.length - n + 1 := by
      rw [List.length_cons]
      omega
    rw [hcons, List.drop_succ_cons]
    exact ⟨.inr, id⟩

theorem keepsChecksum_bootstrap (s : ShellState) : KeepsChecksum (bootstrapWrite s).msg := by
  have hshort : "KERNEL_BOOTSTRAP_INITIALIZED_WITH_ASLR".toList[127]? = none := by decide
  intro c hc
  rw [show (bootstrapWrite s).msg[127]? = none from hshort] at hc
  cases hc

/-- After `sys_env_bootstrap` and any calls of `sys_log_write`, the log accepts its entries exactly
when each of the last 128 messages keeps its checksum. -/
theorem logSound_iff (line : LogEntry → List Char) (s : ShellState) (writes : List LogWrite) :
    ∃ t u, sysEnvBootstrap s = .ok t ∧ sysLogWrites writes t = .ok u ∧
      (LogSound line u ↔ ∀ w ∈ writes.rtake sysLogCapacity, KeepsChecksum w.msg) := by
  rcases sysLogWrites_bootstrapped s writes with ⟨u, hu, _, hwalk⟩
  have hshows : Shows .guarded u := (bootstrapped_shows s).sysLogWrites hu
  have hentries : u.sysLog.walk =
      ((bootstrapWrite s :: writes).rtake sysLogCapacity).map LogWrite.entry := by
    rw [hwalk]
    unfold List.rtake
    rw [List.length_map, List.map_drop]
  -- an entry carries the checksum of the whole message, the check reads 128 bytes of it
  have hmatching : (∀ e ∈ u.sysLog.walk,
      sysCalculateChecksum e.message 128 = e.integrityChecksum) ↔
        ∀ w ∈ (bootstrapWrite s :: writes).rtake sysLogCapacity, KeepsChecksum w.msg := by
    rw [hentries, List.forall_mem_map]
    exact forall₂_congr fun w _ => checksum_stored_iff w.msg
  refine ⟨bootstrapped s, u, sysEnvBootstrap_ok s, hu, ?_⟩
  constructor
  · intro h w hw
    exact hmatching.1 h.matching w (mem_rtake_cons.2 hw)
  · intro hkeeps
    -- the bootstrap entry is short, so it never spoils the check
    have hall : ∀ e ∈ u.sysLog.walk,
        sysCalculateChecksum e.message 128 = e.integrityChecksum := by
      refine hmatching.2 fun w hw => ?_
      rcases mem_rtake_cons.1 hw with rfl | hw
      · exact keepsChecksum_bootstrap s
      · exact hkeeps w hw
    exact ⟨hall, cmdSysLogs_of_matching line hshows hall⟩

/-- A message of 128 characters. -/
def longMessage : LogWrite :=
  { level := 0
    tick := 0
    msg := List.replicate 128 'a' }

/-- The log does not accept its entry. -/
theorem logSound_false :
    ¬ ∀ (line : LogEntry → List Char) (s : ShellState) (writes : List LogWrite),
      ∃ t u, sysEnvBootstrap s = .ok t ∧ sysLogWrites writes t = .ok u ∧ LogSound line u := by
  intro h
  rcases h (fun e => e.message) ShellState.initial [longMessage] with ⟨t, u, ht, hu, hsound⟩
  rcases sysLogWrites_bootstrapped ShellState.initial [longMessage] with ⟨v, hv, _, hwalk⟩
  cases (sysEnvBootstrap_ok _).symm.trans ht
  cases hv.symm.trans hu
  have hmem : longMessage.entry ∈ u.sysLog.walk := by
    rw [hwalk]
    exact List.mem_cons_of_mem _ List.mem_cons_self
  have hkeeps : ∀ w : LogWrite, w.entry ∈ u.sysLog.walk → KeepsChecksum w.msg := fun w hw =>
    (checksum_stored_iff w.msg).1 (hsound.matching w.entry hw)
  have hlast : longMessage.msg[127]? = some 'a' := by decide +kernel
  have hdifference : (32 * sysCalculateChecksum longMessage.msg 127 + charWord 'a') % 2 ^ 32 ≠ 0 := by
    decide +kernel
  exact hdifference (hkeeps longMessage hmem 'a' hlast)

end Shell
end WhitexKernel
