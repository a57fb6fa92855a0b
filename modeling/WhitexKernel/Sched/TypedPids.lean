import WhitexKernel.Sched.PidText
import WhitexKernel.Sched.Wakeup

/-!
# TypedPids — the PIDs that `kill` and `msgsend` are given

Both commands read a PID modulo `2 ^ 32`, and `msgsend` reads no more than 15 characters of it, so a
long number can mean the process with another PID.  Every PID is that of a live process in some run,
so the numbers which are always understood are those that the arguments alone show to be
(`typedPids_iff`).
-/

namespace WhitexKernel
namespace Sched

open Lib Machine Oom SchedulerState

/-! ## The PIDs that are given out -/

/-- The PIDs that the master and the processes registered after it have, until the table is full. -/
def GivenOut (pid : Nat) : Prop := 100 ≤ pid ∧ pid ≤ 1122

instance (pid : Nat) : Decidable (GivenOut pid) := by
  unfold GivenOut
  infer_instance

/-- There are no others. -/
theorem Paced.givenOut {pages : Nat} {k : Kernel} (hk : Paced pages k) {i : Nat}
    (hi : i < k.sched.activeProcessCount) : GivenOut (k.sched.processTable i).taskId := by
  have hmax : sysMaxTasks = 1024 := rfl
  have hroom := hk.room
  have hpid := hk.pid i hi
  unfold GivenOut
  omega

/-- A process in the table that a command finds by its PID. -/
structure Addressed (s : SchedulerState) (pid i : Nat) : Prop where
  found : (s.findIndex fun pcb => pcb.taskId == pid) = some i
  running : (s.processTable i).executionState = .running
  spared : pid = 100 ∨ (s.processTable i).allocationFlags.testBit oomFlagCritical = false
  empty : (s.channel i).count = 0

/-- The entry that the last registration has filled is found by its PID, unless it is the first one,
which has the PID of the master. -/
theorem Paced.findIndex {pages : Nat} {k : Kernel} (hk : Paced pages k) {n : Nat} (hn : 1 < n)
    (hcount : k.sched.activeProcessCount = n + 1) :
    (k.sched.findIndex fun pcb => pcb.taskId == 99 + n) = some n := by
  refine List.find?_range_eq_some.2 ⟨?_, ?_, fun j hj => ?_⟩
  · have hpid := hk.pid n (by omega)
    exact beq_iff_eq.2 (by omega)
  · exact List.mem_range.2 (by omega)
  · have hpid := hk.pid j (by omega)
    have hne : (k.sched.processTable j).taskId ≠ 99 + n := by omega
    simpa using hne

/-- Each of them is that of a live process in some run, which is not protected unless it is the
master. -/
theorem exists_addressed {pid : Nat} (hpid : GivenOut pid) :
    ∃ (as : List Action) (s : System) (i : Nat),
      exec System.step (System.boot (coldKernel 4096)) as = some s ∧ Addressed s.sched pid i := by
  rcases hpid with ⟨hlow, hhigh⟩
  have hmax : sysMaxTasks = 1024 := rfl
  rcases Nat.eq_or_lt_of_le hlow with hmaster | hlater
  · refine ⟨[], System.boot (coldKernel 4096), 0, rfl, ?_⟩
    rw [← hmaster]
    exact ⟨by decide, by decide, .inl rfl, by decide⟩
  · -- as many registrations as lead up to this PID, and one more
    obtain ⟨n, rfl⟩ : ∃ n, pid = 100 + n := ⟨pid - 100, by omega⟩
    rcases exists_registered (n := n) (by omega) with ⟨s, hexec, hs, hcount, hidle⟩
    rcases hs.registers (by decide) (by decide) (by rw [hcount]; omega) hidle with
      ⟨t, stackRaw, hstep, hsched, _⟩
    have ht : Paced 4096 t.kernel := hs.step (by decide) hstep
    have hadded : t.kernel.sched.activeProcessCount = n + 1 + 1 := by
      have hnext : t.sched.activeProcessCount = s.sched.activeProcessCount + 1 := by
        rw [hsched]
        rfl
      exact hnext.trans (congrArg (· + 1) hcount)
    have hnew : s.kernel.drawPid.1.sched.activeProcessCount = n + 1 := hcount
    refine ⟨List.replicate n registration ++ [registration], t, n + 1, ?_, ?_, ?_, .inr ?_, ?_⟩
    · rw [exec_append, hexec, Option.bind_some, exec_cons, hstep]
      rfl
    · have hfound := ht.findIndex (by omega) hadded
      have hsame : 99 + (n + 1) = 100 + n := by omega
      rwa [hsame] at hfound
    all_goals
      rw [hsched]
      simp [SchedulerState.addProcess, SchedulerState.channel, newPcb, hnew, IpcChannel.zero]

/-! ## `kill` -/

/-- `cmd_kill` makes a process dead only if its PID is the number typed. -/
def KillsTyped (s : SchedulerState) (arg : List Char) : Prop :=
  ∀ i < s.activeProcessCount, (s.processTable i).executionState ≠ .dead →
    ((cmdKill s arg).1.processTable i).executionState = .dead →
      (s.processTable i).taskId = typedNumber arg

/-- Releasing a waiter does not make it dead. -/
theorem dead_releaseWaiters {s : SchedulerState} {pid i : Nat}
    (h : ((releaseWaiters s pid).processTable i).executionState = .dead) :
    (s.processTable i).executionState = .dead := by
  unfold releaseWaiters releasePcb at h
  simp only at h
  split at h
  · split at h
    · cases h
    · exact h
  · exact h

/-- What a termination makes dead has the PID that it was called with, and is not the master. -/
theorem taskId_of_terminated {s : SchedulerState} {pid i : Nat}
    (hlive : (s.processTable i).executionState ≠ .dead)
    (hdead : ((schedulerTerminateProcess s pid).1.processTable i).executionState = .dead) :
    (s.processTable i).taskId = pid ∧ pid ≠ 100 := by
  unfold schedulerTerminateProcess at hdead
  cases hfind : s.findIndex fun pcb => pcb.taskId == pid with
  | none =>
      rw [hfind] at hdead
      exact absurd hdead hlive
  | some j =>
      rw [hfind] at hdead
      simp only at hdead
      split at hdead
      · exact absurd hdead hlive
      case isFalse hallowed =>
        have hset := dead_releaseWaiters hdead
        rw [modifyPcb_processTable] at hset
        split at hset
        case isTrue hij =>
          rw [hij]
          exact ⟨beq_iff_eq.1 (findIndex_eq_some hfind).2.1, fun h => hallowed (.inl h)⟩
        case isFalse => exact absurd hset hlive

/-- An addressed process other than the master is terminated. -/
theorem Addressed.terminated {s : SchedulerState} {pid i : Nat} (h : Addressed s pid i)
    (hpid : pid ≠ 100) :
    ((schedulerTerminateProcess s pid).1.processTable i).executionState = .dead := by
  unfold schedulerTerminateProcess
  rw [h.found]
  simp only
  rw [if_neg (not_or.2 ⟨hpid, by rw [h.spared.resolve_left hpid]; exact Bool.false_ne_true⟩)]
  unfold releaseWaiters releasePcb
  simp only [modifyPcb_self]
  have hawake : ¬ ((setState .dead (s.processTable i)).executionState = .blocked ∧
      (setState .dead (s.processTable i)).waitingOnPid = pid) := fun hblocked => by
    cases hblocked.1
  rw [if_neg hawake]
  split
  · rfl
  · rfl

/-! ## `msgsend` -/

/-- In `arg`, `text` is what follows the number and one blank; nothing follows a bare number. -/
def FollowsNumber (arg text : List Char) : Prop :=
  arg = digitRun arg ++ ' ' :: text ∨ arg = digitRun arg ∧ text = []

/-- A message holds a text with its terminating zero. -/
def IpcMessage.Carries (m : IpcMessage) (text : List Char) : Prop :=
  m.length = text.length + 1 ∧ ∀ j ≤ text.length, m.data j = stringByte text j

/-- `cmd_msgsend` queues a message only for a process whose PID is the number typed, and what it
queues is the text behind it. -/
def SendsTyped (s : SchedulerState) (arg : List Char) : Prop :=
  ∀ i < s.activeProcessCount,
    ((cmdMsgsend s arg).1.channel i).count ≠ (s.channel i).count →
      (s.processTable i).taskId = typedNumber arg ∧
        ∃ text, FollowsNumber arg text ∧
          (((cmdMsgsend s arg).1.channel i).queue (s.channel i).tail).Carries text

/-- A process that gets a message is the first live one with the PID; the text is short enough. -/
theorem queued_schedulerIpcSend {s : SchedulerState} {pid length type i : Nat}
    {message : Nat → UInt8}
    (h : ((schedulerIpcSend s pid message length type).1.channel i).count ≠ (s.channel i).count) :
    length ≤ schedIpcMsgSize ∧ s.findLive pid = some i ∧
      (schedulerIpcSend s pid message length type).1.channel i =
        (s.channel i).push (fillMessage message s.current.taskId length type) := by
  by_cases hlength : length > schedIpcMsgSize
  · unfold schedulerIpcSend at h
    rw [if_pos hlength] at h
    exact absurd rfl h
  rcases schedulerIpcSend_cases s pid message length type with
    ⟨j, hfind, _, hsend⟩ | ⟨e, _, hsend⟩
  · rw [hsend] at h ⊢
    unfold SchedulerState.channel at h ⊢
    rw [modifyPcb_processTable] at h ⊢
    split at h
    case isTrue hij =>
      subst hij
      rw [if_pos rfl]
      exact ⟨Nat.le_of_not_gt hlength, hfind, rfl⟩
    case isFalse => exact absurd rfl h
  · rw [hsend] at h
    exact absurd rfl h

theorem Addressed.lt {s : SchedulerState} {pid i : Nat} (h : Addressed s pid i) :
    i < s.activeProcessCount := (findIndex_eq_some h.found).1

theorem Addressed.findLive {s : SchedulerState} {pid i : Nat} (h : Addressed s pid i) :
    s.findLive pid = some i := by
  obtain ⟨hlt, hpid, hbefore⟩ := findIndex_eq_some h.found
  refine List.find?_range_eq_some.2 ⟨?_, List.mem_range.2 hlt, fun j hj => ?_⟩
  · simp [beq_iff_eq.1 hpid, h.running]
  · simp [hbefore j hj]

/-- An addressed process gets the message, if this is not too long. -/
theorem Addressed.queued {s : SchedulerState} {pid i : Nat} (h : Addressed s pid i)
    {length : Nat} (hlength : length ≤ schedIpcMsgSize) (message : Nat → UInt8) (type : Nat) :
    (schedulerIpcSend s pid message length type).1.channel i =
      (s.channel i).push (fillMessage message s.current.taskId length type) := by
  have hroom : ¬ (s.processTable i).communicationChannel.count ≥ schedIpcMaxMessages := by
    have hempty : (s.processTable i).communicationChannel.count = 0 := h.empty
    rw [hempty]
    decide
  unfold schedulerIpcSend
  rw [if_neg (Nat.not_lt.2 hlength), h.findLive]
  simp only
  rw [if_neg hroom]
  unfold SchedulerState.channel
  rw [modifyPcb_self]
  rfl

theorem carries_push (channel : IpcChannel) (text : List Char) (senderId : Nat) :
    ((channel.push (fillMessage (stringByte text) senderId (text.length + 1) 1)).queue
      channel.tail).Carries text := by
  unfold IpcChannel.push
  simp only [Function.update_self]
  refine ⟨rfl, fun j hj => if_pos (Nat.lt_succ_of_le hj)⟩

/-- A message carries one text. -/
theorem IpcMessage.Carries.length_eq {m : IpcMessage} {text text' : List Char}
    (h : m.Carries text) (h' : m.Carries text') : text.length = text'.length :=
  Nat.succ.inj (h.1.symm.trans h'.1)

/-! ## What is typed -/

/-- What is behind the digits at the start of a text. -/
def behindNumber (text : List Char) : List Char := text.dropWhile isDigit

/-- Where `cmd_msgsend` takes its text from: behind the first word, or 15 characters of it, and one
blank. -/
def textStart (arg : List Char) : Nat :=
  let word := min 15 (arg.takeWhile (· ≠ ' ')).length
  if arg[word]? = some ' ' then word + 1 else word

theorem digitRun_append (arg : List Char) : digitRun arg ++ behindNumber arg = arg :=
  List.takeWhile_append_dropWhile

theorem followsNumber_iff {arg text : List Char} :
    FollowsNumber arg text ↔ behindNumber arg = ' ' :: text ∨ behindNumber arg = [] ∧ text = [] := by
  have hcons : ∀ rest, arg = digitRun arg ++ rest ↔ behindNumber arg = rest := by
    intro rest
    refine ⟨fun h => ?_, fun h => ?_⟩
    · exact List.append_cancel_left ((digitRun_append arg).trans h)
    · rw [← h, digitRun_append]
  unfold FollowsNumber
  rw [hcons]
  have hnil := hcons []
  rw [List.append_nil] at hnil
  rw [hnil]

/-- The target is cut off at the first blank, and behind 15 characters. -/
theorem splitTarget_eq (arg : List Char) :
    splitTarget arg = ((arg.takeWhile (· ≠ ' ')).take 15, arg.drop (textStart arg)) := by
  have hword : (arg.take 15).takeWhile (fun c => decide (c ≠ ' ')) =
      (arg.takeWhile (fun c => decide (c ≠ ' '))).take 15 := List.take_takeWhile.symm
  unfold splitTarget textStart
  simp only [hword, List.length_take, List.head?_drop]
  split
  · rw [List.drop_drop]
  · rfl

theorem isDigit_blank : isDigit ' ' = false := by decide

/-- A word that begins with digits. -/
theorem takeWhile_word (arg : List Char) : arg.takeWhile (· ≠ ' ') =
    digitRun arg ++ (behindNumber arg).takeWhile (· ≠ ' ') := by
  conv_lhs => rw [← digitRun_append arg]
  refine List.takeWhile_append_of_pos fun c hc => ?_
  have hdigit : isDigit c = true := List.mem_takeWhile_imp hc
  refine decide_eq_true fun hblank => ?_
  rw [hblank, isDigit_blank] at hdigit
  cases hdigit

/-- A number of at most 15 digits with nothing or a blank behind it is taken as it is. -/
theorem splitTarget_number {arg : List Char} (hshort : (digitRun arg).length ≤ 15)
    (hbehind : behindNumber arg = [] ∨ (behindNumber arg).head? = some ' ') :
    splitTarget arg = (digitRun arg, (behindNumber arg).drop 1) := by
  have hword : arg.takeWhile (· ≠ ' ') = digitRun arg := by
    have hnone : (behindNumber arg).takeWhile (· ≠ ' ') = [] := by
      cases hrest : behindNumber arg with
      | nil => rfl
      | cons c rest =>
          rw [hrest] at hbehind
          have hc : c = ' ' := by simpa using hbehind
          rw [hc, List.takeWhile_cons_of_neg (by simp)]
    rw [takeWhile_word, hnone, List.append_nil]
  have hdrop : ∀ k, arg.drop ((digitRun arg).length + k) = (behindNumber arg).drop k := by
    intro k
    have hrest : (digitRun arg ++ behindNumber arg).drop ((digitRun arg).length + k) =
        (behindNumber arg).drop k := List.drop_length_add_append k
    rwa [digitRun_append] at hrest
  have hfirst : arg[(digitRun arg).length]? = (behindNumber arg).head? := by
    rw [← List.head?_drop]
    exact congrArg List.head? (hdrop 0)
  have hstart : arg.drop (textStart arg) = (behindNumber arg).drop 1 := by
    unfold textStart
    simp only [hword, Nat.min_eq_right hshort, hfirst]
    split
    case isTrue => exact hdrop 1
    case isFalse hblank =>
      have hnil := hbehind.resolve_right hblank
      have hall := hdrop 0
      rw [hnil] at hall ⊢
      exact hall
  rw [splitTarget_eq, hword, hstart, List.take_of_length_le hshort]

/-- Of more than 15 digits only these are taken, and the others belong to the text. -/
theorem splitTarget_long {arg : List Char} (hlong : 15 < (digitRun arg).length) :
    splitTarget arg = ((digitRun arg).take 15, arg.drop 15) := by
  have hlength : 15 ≤ (arg.takeWhile (· ≠ ' ')).length := by
    rw [takeWhile_word, List.length_append]
    omega
  have hdigit : arg[15]? ≠ some ' ' := by
    have hfront : (digitRun arg ++ behindNumber arg)[15]? = (digitRun arg)[15]? :=
      List.getElem?_append_left hlong
    rw [digitRun_append] at hfront
    intro hblank
    rw [hfront] at hblank
    have hmem : isDigit ' ' = true := List.mem_takeWhile_imp (List.mem_of_getElem? hblank)
    rw [isDigit_blank] at hmem
    cases hmem
  have hstart : textStart arg = 15 := by
    unfold textStart
    simp only [Nat.min_eq_left hlength]
    rw [if_neg hdigit]
  rw [splitTarget_eq, hstart, takeWhile_word, List.take_append_of_le_length (Nat.le_of_lt hlong)]

theorem typedNumber_digitRun (arg : List Char) : typedNumber (digitRun arg) = typedNumber arg := by
  have hrun : digitRun (digitRun arg) = digitRun arg :=
    List.takeWhile_eq_self_iff.2 fun _ hc => List.mem_takeWhile_imp hc
  unfold typedNumber
  rw [hrun]

theorem FollowsNumber.length_le {arg text : List Char} (h : FollowsNumber arg text) :
    (digitRun arg).length + text.length ≤ arg.length := by
  rcases h with h | ⟨h, hnil⟩
  · have hlength := congrArg List.length h
    rw [List.length_append, List.length_cons] at hlength
    omega
  · rw [← h, hnil]
    exact Nat.le_refl _

theorem followsNumber_drop {arg : List Char}
    (h : behindNumber arg = [] ∨ (behindNumber arg).head? = some ' ') :
    FollowsNumber arg ((behindNumber arg).drop 1) := by
  rw [followsNumber_iff]
  cases hrest : behindNumber arg with
  | nil => exact .inr ⟨rfl, rfl⟩
  | cons c rest =>
      rw [hrest] at h
      have hc : c = ' ' := by simpa using h
      exact .inl (by rw [hc]; rfl)

/-- `msgsend` takes the number for the PID, and what follows it for the text, of an argument with a
number of at most 15 digits and less than `2 ^ 32`, and nothing or a blank behind it. -/
theorem splitTarget_iff {arg : List Char} :
    (parseInteger (splitTarget arg).1 = typedNumber arg ∧
        ∃ text, FollowsNumber arg text ∧ (splitTarget arg).2.length = text.length) ↔
      (digitRun arg).length ≤ 15 ∧ typedNumber arg < 2 ^ 32 ∧
        (behindNumber arg = [] ∨ (behindNumber arg).head? = some ' ') := by
  by_cases hshort : (digitRun arg).length ≤ 15
  · by_cases hbehind : behindNumber arg = [] ∨ (behindNumber arg).head? = some ' '
    · have hfollows := followsNumber_drop hbehind
      rw [splitTarget_number hshort hbehind, parseInteger_eq, typedNumber_digitRun]
      refine ⟨fun h => ⟨hshort, ?_, hbehind⟩, fun h => ⟨wrap32_of_lt h.2.1, _, hfollows, rfl⟩⟩
      rw [← h.1]
      exact wrap32_lt _
    · refine iff_of_false (fun h => hbehind ?_) fun h => hbehind h.2.2
      obtain ⟨text, hfollows, -⟩ := h.2
      rcases followsNumber_iff.1 hfollows with hrest | hrest
      · exact .inr (by rw [hrest]; rfl)
      · exact .inl hrest.1
  · -- the text begins inside the number
    refine iff_of_false (fun h => ?_) fun h => hshort h.1
    obtain ⟨text, hfollows, hlength⟩ := h.2
    have hle := hfollows.length_le
    rw [splitTarget_long (Nat.lt_of_not_le hshort), List.length_drop] at hlength
    omega

/-! ## All arguments -/

theorem killsTyped {pages : Nat} {k : Kernel} (hk : Paced pages k) {arg : List Char}
    (h : typedNumber arg < 2 ^ 32 ∨ typedNumber arg % 2 ^ 32 = 100 ∨
      ¬ GivenOut (typedNumber arg % 2 ^ 32)) : KillsTyped k.sched arg := by
  intro i hi hlive hdead
  by_cases harg : arg = []
  · rw [cmdKill, if_pos harg] at hdead
    exact absurd hdead hlive
  rw [cmdKill_sched k.sched harg, parseInteger_eq] at hdead
  obtain ⟨hpid, hmaster⟩ := taskId_of_terminated hlive hdead
  have hgiven := hk.givenOut hi
  rw [hpid] at hgiven ⊢
  exact wrap32_of_lt ((h.resolve_right fun hr => hr.elim hmaster fun hnot => hnot hgiven))

/-- A number that is not read as it is addresses another process in some run. -/
theorem not_killsTyped {s : SchedulerState} {arg : List Char} {i : Nat}
    (hlarge : 2 ^ 32 ≤ typedNumber arg) (hmaster : typedNumber arg % 2 ^ 32 ≠ 100)
    (hs : Addressed s (parseInteger arg) i) : ¬ KillsTyped s arg := by
  intro h
  have harg : arg ≠ [] := by
    rintro rfl
    exact absurd hlarge (by decide)
  have hpid : parseInteger arg = typedNumber arg % 2 ^ 32 := parseInteger_eq arg
  have hdead := hs.terminated (by rwa [hpid])
  rw [← cmdKill_sched s harg] at hdead
  have htyped := h i hs.lt (by rw [hs.running]; decide) hdead
  have htask : (s.processTable i).taskId = parseInteger arg :=
    beq_iff_eq.1 (findIndex_eq_some hs.found).2.1
  rw [htask, hpid] at htyped
  omega

theorem parseInteger_mod (text : List Char) :
    parseInteger text = typedNumber text % 2 ^ 32 := parseInteger_eq text

/-- The PID that `msgsend` takes its target for, of which it reads at most 15 digits. -/
theorem parseInteger_splitTarget (arg : List Char) :
    parseInteger (splitTarget arg).1 = typedNumber ((digitRun arg).take 15) % 2 ^ 32 := by
  have hrun : digitRun ((arg.takeWhile (· ≠ ' ')).take 15) = (digitRun arg).take 15 := by
    have hword : digitRun (arg.takeWhile (· ≠ ' ')) = digitRun arg := by
      unfold digitRun
      rw [List.takeWhile_takeWhile]
      congr 1
      funext c
      by_cases hblank : c = ' '
      · rw [hblank, isDigit_blank]
        simp
      · simp [hblank]
    exact (List.take_takeWhile.symm.trans (congrArg (List.take 15) hword))
  rw [splitTarget_eq, parseInteger_mod, ← typedNumber_digitRun, hrun]

theorem sendsTyped {pages : Nat} {k : Kernel} (hk : Paced pages k) {arg : List Char}
    (h : textStart arg + 127 < arg.length ∨
      ¬ GivenOut (typedNumber ((digitRun arg).take 15) % 2 ^ 32) ∨
      (digitRun arg).length ≤ 15 ∧ typedNumber arg < 2 ^ 32 ∧
        (behindNumber arg = [] ∨ (behindNumber arg).head? = some ' ')) :
    SendsTyped k.sched arg := by
  intro i hi hqueued
  by_cases harg : arg = []
  · rw [cmdMsgsend, if_pos harg] at hqueued
    exact absurd rfl hqueued
  rw [cmdMsgsend_sched k.sched harg] at hqueued ⊢
  obtain ⟨hlength, hfind, hchannel⟩ := queued_schedulerIpcSend hqueued
  have hfits : ¬ textStart arg + 127 < arg.length := by
    rw [splitTarget_eq, List.length_drop] at hlength
    unfold schedIpcMsgSize at hlength
    omega
  have hpid := (findLive_eq_some hfind).2
  have hgiven := hk.givenOut hi
  rw [hpid, parseInteger_splitTarget] at hgiven
  have hwhole := (h.resolve_left hfits).resolve_left fun hnot => hnot hgiven
  rw [hchannel]
  refine ⟨hpid.trans (splitTarget_iff.2 hwhole).1, (splitTarget arg).2, ?_, carries_push _ _ _⟩
  rw [splitTarget_number hwhole.1 hwhole.2.2]
  exact followsNumber_drop hwhole.2.2

theorem not_sendsTyped {s : SchedulerState} {arg : List Char} {i : Nat}
    (hfits : arg.length ≤ textStart arg + 127)
    (hwrong : ¬ ((digitRun arg).length ≤ 15 ∧ typedNumber arg < 2 ^ 32 ∧
      (behindNumber arg = [] ∨ (behindNumber arg).head? = some ' ')))
    (hs : Addressed s (parseInteger (splitTarget arg).1) i) : ¬ SendsTyped s arg := by
  intro h
  have harg : arg ≠ [] := by
    rintro rfl
    exact hwrong ⟨by decide, by decide, .inl rfl⟩
  have hlength : (splitTarget arg).2.length + 1 ≤ schedIpcMsgSize := by
    rw [splitTarget_eq, List.length_drop]
    unfold schedIpcMsgSize
    omega
  have hchannel := hs.queued hlength (stringByte (splitTarget arg).2) 1
  have hqueued := h i hs.lt
  rw [cmdMsgsend_sched s harg, hchannel] at hqueued
  obtain ⟨hpid, text, hfollows, hcarries⟩ := hqueued (Nat.succ_ne_self _)
  have htask : (s.processTable i).taskId = parseInteger (splitTarget arg).1 :=
    beq_iff_eq.1 (findIndex_eq_some hs.found).2.1
  exact hwrong (splitTarget_iff.1 ⟨htask.symm.trans hpid, text, hfollows,
    (carries_push _ _ _).length_eq hcarries⟩)

/-- In every run, `kill` and `msgsend` with an argument reach only the process whose PID is typed,
exactly when the number is less than `2 ^ 32`, or means the master, which is never killed, or a PID that
is not given out, and `msgsend` has a text that is too long, or 15 digits that mean a PID that is not
given out, or a number of at most 15 digits with nothing or a blank behind it. -/
theorem typedPids_iff (arg : CString) :
    (∀ (k : Kernel) (pages : Nat) (as : List Action) (s : System), k.OomInitialised pages →
        exec System.step (System.boot k) as = some s →
          KillsTyped s.sched arg.chars ∧ SendsTyped s.sched arg.chars) ↔
      (typedNumber arg.chars < 2 ^ 32 ∨ typedNumber arg.chars % 2 ^ 32 = 100 ∨
        ¬ GivenOut (typedNumber arg.chars % 2 ^ 32)) ∧
        (textStart arg.chars + 127 < arg.chars.length ∨
          ¬ GivenOut (typedNumber ((digitRun arg.chars).take 15) % 2 ^ 32) ∨
          (digitRun arg.chars).length ≤ 15 ∧ typedNumber arg.chars < 2 ^ 32 ∧
            (behindNumber arg.chars = [] ∨ (behindNumber arg.chars).head? = some ' ')) := by
  have hcold := @coldKernel_oomInitialised 4096 (by decide)
  constructor
  · intro h
    constructor
    · by_contra hkill
      rw [not_or, not_or, not_not, Nat.not_lt] at hkill
      obtain ⟨hlarge, hmaster, hgiven⟩ := hkill
      obtain ⟨as, s, i, hexec, hs⟩ := exists_addressed hgiven
      rw [← parseInteger_mod] at hs
      exact not_killsTyped hlarge hmaster hs (h _ _ as s hcold hexec).1
    · by_contra hsend
      rw [not_or, not_or, not_not, Nat.not_lt, ← parseInteger_splitTarget] at hsend
      obtain ⟨hfits, hgiven, hwrong⟩ := hsend
      obtain ⟨as, s, i, hexec, hs⟩ := exists_addressed hgiven
      exact not_sendsTyped hfits hwrong hs (h _ _ as s hcold hexec).2
  · intro h k pages as s hk hexec
    have hpaced : Paced pages s.kernel := (paced_run hk as).last hexec
    exact ⟨killsTyped hpaced h.1, sendsTyped hpaced h.2⟩

/-- 2 ^ 32 + 101 -/
def aliasOf101 : CString :=
  { chars := ['4', '2', '9', '4', '9', '6', '7', '3', '9', '7']
    byte := by simp }

/-- With a second and a third process, `kill 4294967397` terminates PID 101. -/
theorem typedPids_false :
    ¬ ∀ (arg : CString) (k : Kernel) (pages : Nat) (as : List Action) (s : System),
      k.OomInitialised pages → exec System.step (System.boot k) as = some s →
        KillsTyped s.sched arg.chars ∧ SendsTyped s.sched arg.chars := by
  intro h
  have hrun : (exec System.step (System.boot (coldKernel 4096)) [registration, registration]).any
      (fun s => decide (s.sched.activeProcessCount = 3) &&
        decide ((s.sched.processTable 2).taskId = 101) &&
        decide ((s.sched.processTable 2).executionState ≠ .dead) &&
        decide (((cmdKill s.sched aliasOf101.chars).1.processTable 2).executionState = .dead)) =
      true := by
    decide +kernel
  obtain ⟨s, hexec, hs⟩ := exists_of_exec_any hrun
  simp only [Bool.and_eq_true, decide_eq_true_eq] at hs
  obtain ⟨⟨⟨hcount, hpid⟩, hlive⟩, hdead⟩ := hs
  have hcold := @coldKernel_oomInitialised 4096 (by decide)
  have htyped := (h aliasOf101 _ _ _ s hcold hexec).1 2 (by rw [hcount]; decide) hlive hdead
  rw [hpid] at htyped
  revert htyped
  decide

end Sched
end WhitexKernel
