import WhitexKernel.Sched.Selection

/-!
# Echo — what `kernel_daemon_worker` tells its clients about each other

A worker receives every message into one buffer and sends the whole of it back, so a message that is
shorter than the buffer is answered with the rest of an earlier one.

* `Echo` — the system together with the worker that runs in one of its entries;
* `answers` — the replies to a list of messages, by the buffer alone; the replies of a run are a
  prefix of them (`Echo.Answering`);
* `repliesAgree_iff` — which messages are answered alike in any two runs.
-/

namespace WhitexKernel
namespace Sched

open Lib Machine Oom SchedulerState

/-! ## Pending signals -/

/-- The signals that are pending and not blocked, one bit each. -/
def SignalContext.active (c : SignalContext) : Nat :=
  c.pendingSignals &&& (0xFFFFFFFF ^^^ c.blockedSignals)

/-- `pending_signals &= ~(1 << i)`, for each of the signals. -/
def clearPending (signals : List Nat) (pcb : ProcessControlBlock) : ProcessControlBlock :=
  { pcb with
    signalSubsystem := { pcb.signalSubsystem with
      pendingSignals := signals.foldl (fun pending i => pending &&& (0xFFFFFFFF ^^^ 1 <<< i))
        pcb.signalSubsystem.pendingSignals } }

/-- The globals after the call, and the signals whose handlers it calls. -/
def schedulerCheckPendingSignals (s : SchedulerState) : SchedulerState × List Nat :=
  let subsystem := s.current.signalSubsystem
  if subsystem.active = 0 then (s, [])
  else
    let taken := (List.range 32).filter fun i => subsystem.active.testBit i
    (s.modifyPcb s.runningProcessIndex (clearPending taken),
      taken.filter fun i => decide (subsystem.handlers i ≠ 0))

/-! ## The worker -/

/-- The next thing that `kernel_daemon_worker` does. -/
inductive WorkerPoint
  | checkSignals
  | receive
  | reply
  | yield
  deriving DecidableEq, Repr

/-- What a worker asks `scheduler_ipc_send` to deliver. -/
structure Reply where
  destinationPid : Nat
  payload : List UInt8
  type : Nat
  deriving DecidableEq, Repr

/-- The system, the locals of the worker in one of its entries, and what that worker has received
and replied so far; a message that gets no reply counts with `none`. -/
structure Echo where
  system : System
  point : WorkerPoint
  packetBuffer : Nat → UInt8
  senderId : Nat
  messageType : Nat
  received : List Receipt
  replies : List (Option Reply)

/-- Whose turn it is: the worker's, or that of another process. -/
inductive EchoTurn
  | worker
  | others (a : Action)

/-- `scheduler_memory_copy(buffer_ptr, msg->data, copy_length)` -/
def takeInto (buffer : Nat → UInt8) (receipt : Receipt) : Nat → UInt8 :=
  schedulerMemoryCopy buffer (fun i => receipt.bytes.getD i 0) receipt.bytes.length

/-- The reply is as long as the buffer, however long the message was. -/
def echoOf (buffer : Nat → UInt8) (senderId messageType : Nat) : Reply :=
  { destinationPid := senderId
    payload := (List.range schedIpcMsgSize).map buffer
    type := messageType }

namespace Echo

/-- The call of `scheduler_ipc_receive`, or its loop. -/
def receiveAction (w : Echo) : Action :=
  match w.system.suspended w.system.running with
  | .idle => .call (.ipcReceive schedIpcMsgSize)
  | _ => .resume

/-- What the worker does with the outcome of a round of `scheduler_ipc_receive`. -/
def take (w : Echo) : Option Receipt → Echo
  | none => w
  | some receipt =>
      { w with
        packetBuffer := takeInto w.packetBuffer receipt
        senderId := receipt.senderId
        messageType := receipt.type
        received := w.received ++ [receipt]
        replies := if receipt.bytes.length > 0 then w.replies else w.replies ++ [none]
        point := if receipt.bytes.length > 0 then .reply else .yield }

/-- A turn of the worker.  It has registered no signal handlers. -/
def workerTurn (w : Echo) : Option Echo :=
  match w.point with
  | .checkSignals =>
      match schedulerCheckPendingSignals w.system.sched with
      | (sched, []) => some { w with system := w.system.withSched sched, point := .receive }
      | (_, _ :: _) => none
  | .receive =>
      (w.system.step w.receiveAction).map fun t =>
        { w.take (schedulerIpcReceive w.system.sched schedIpcMsgSize).2 with system := t }
  | .reply =>
      (w.system.step (.call (.ipcSend w.senderId w.packetBuffer schedIpcMsgSize w.messageType))).map
        fun t =>
          { w with
            system := t
            replies := w.replies ++ [some (echoOf w.packetBuffer w.senderId w.messageType)]
            point := .yield }
  | .yield =>
      (w.system.step (.call .yield)).map fun t => { w with system := t, point := .checkSignals }

/-- A turn of the system in whose entry `worker` the worker runs. -/
def step (worker : Nat) (w : Echo) : EchoTurn → Option Echo
  | .worker => if w.system.running = worker then w.workerTurn else none
  | .others a =>
      if w.system.running = worker then none
      else (w.system.step a).map fun t => { w with system := t }

/-- The worker of entry `worker` is about to begin, with its buffer zero. -/
structure Fresh (worker : Nat) (w : Echo) : Prop where
  suspended : w.system.suspended worker = .idle
  point : w.point = .checkSignals
  packetBuffer : w.packetBuffer = fun _ => 0
  received : w.received = []
  replies : w.replies = []

end Echo

/-! ## Replies by the buffer alone -/

/-- The reply to the message that was received last. -/
def replyTo (buffer : Nat → UInt8) (receipt : Receipt) : Option Reply :=
  if receipt.bytes.length > 0 then some (echoOf buffer receipt.senderId receipt.type) else none

/-- The replies to a list of messages, from what the buffer holds before. -/
def answers (buffer : Nat → UInt8) : List Receipt → List (Option Reply)
  | [] => []
  | receipt :: receipts =>
      replyTo (takeInto buffer receipt) receipt :: answers (takeInto buffer receipt) receipts

theorem answers_concat (buffer : Nat → UInt8) (receipts : List Receipt) (receipt : Receipt) :
    answers buffer (receipts ++ [receipt]) = answers buffer receipts ++
      [replyTo (takeInto (receipts.foldl takeInto buffer) receipt) receipt] := by
  induction receipts generalizing buffer with
  | nil => rfl
  | cons first receipts ih =>
      rw [List.cons_append, answers, ih]
      rfl

/-- The `k`-th reply, by the messages up to the `k`-th one. -/
theorem answers_getElem? (buffer : Nat → UInt8) (receipts : List Receipt) (k : Nat) :
    (answers buffer receipts)[k]? =
      receipts[k]?.map fun receipt =>
        replyTo (takeInto ((receipts.take k).foldl takeInto buffer) receipt) receipt := by
  induction receipts generalizing buffer k with
  | nil => rfl
  | cons first receipts ih =>
      cases k with
      | zero => rfl
      | succ k => exact ih (takeInto buffer first) k

theorem length_answers (buffer : Nat → UInt8) (receipts : List Receipt) :
    (answers buffer receipts).length = receipts.length := by
  induction receipts generalizing buffer with
  | nil => rfl
  | cons first receipts ih => exact congrArg (· + 1) (ih _)

/-- The message leaves nothing of the buffer as it was, or is not answered. -/
def Receipt.Covers (receipt : Receipt) : Prop :=
  receipt.bytes.length = 0 ∨ schedIpcMsgSize ≤ receipt.bytes.length

/-- Such a message is answered alike, whatever the buffer held. -/
theorem replyTo_eq_of_covers {receipt : Receipt} (h : receipt.Covers) (buffer buffer' : Nat → UInt8) :
    replyTo (takeInto buffer receipt) receipt = replyTo (takeInto buffer' receipt) receipt := by
  rcases h with hempty | hfull
  · unfold replyTo
    rw [if_neg (by omega), if_neg (by omega)]
  · have hpayload : (List.range schedIpcMsgSize).map (takeInto buffer receipt) =
        (List.range schedIpcMsgSize).map (takeInto buffer' receipt) := by
      refine List.map_congr_left fun i hi => ?_
      have hin : i < receipt.bytes.length := Nat.lt_of_lt_of_le (List.mem_range.1 hi) hfull
      unfold takeInto schedulerMemoryCopy
      rw [if_pos hin, if_pos hin]
    unfold replyTo echoOf
    rw [hpayload]

/-- The last byte of the reply to a message that is answered, and shorter than the buffer, is the one
that the buffer held. -/
theorem payload_getLast {receipt : Receipt} (h : ¬ receipt.Covers) (buffer : Nat → UInt8) :
    ∃ reply, replyTo (takeInto buffer receipt) receipt = some reply ∧
      reply.payload[schedIpcMsgSize - 1]? = some (buffer (schedIpcMsgSize - 1)) := by
  unfold Receipt.Covers at h
  refine ⟨_, if_pos (by omega), ?_⟩
  have hlast : takeInto buffer receipt (schedIpcMsgSize - 1) = buffer (schedIpcMsgSize - 1) := by
    unfold takeInto schedulerMemoryCopy
    rw [if_neg (by omega)]
  rw [← hlast]
  simp [echoOf]

/-! ## Runs -/

namespace Echo

/-- The buffer of a worker that has received these messages. -/
def bufferAfter (receipts : List Receipt) : Nat → UInt8 := receipts.foldl takeInto fun _ => 0

/-- Between two receives every message has had its reply; before a reply the last one has not. -/
structure Answering (w : Echo) : Prop where
  buffer : w.packetBuffer = bufferAfter w.received
  answered : w.point ≠ .reply → w.replies = answers (fun _ => 0) w.received
  pending : w.point = .reply → ∃ before receipt, w.received = before ++ [receipt] ∧
    0 < receipt.bytes.length ∧ w.senderId = receipt.senderId ∧ w.messageType = receipt.type ∧
    w.replies = answers (fun _ => 0) before

namespace Answering

variable {w x : Echo}

theorem of_fresh {worker : Nat} (h : Fresh worker w) : w.Answering := by
  refine ⟨?_, fun _ => ?_, fun hpoint => ?_⟩
  · rw [h.packetBuffer, h.received]
    rfl
  · rw [h.replies, h.received]
    rfl
  · rw [h.point] at hpoint
    cases hpoint

/-- A turn that does not receive or reply moves between points at which all is answered. -/
theorem move (hw : w.Answering) (hpoint : w.point ≠ .reply) {system : System} {point : WorkerPoint}
    (hpoint' : point ≠ .reply) : Answering { w with system := system, point := point } :=
  ⟨hw.buffer, fun _ => hw.answered hpoint, fun h => absurd h hpoint'⟩

theorem take (hw : w.Answering) (hpoint : w.point = .receive) (receipt : Option Receipt)
    (system : System) : Answering { w.take receipt with system := system } := by
  have hanswered : w.replies = answers (fun _ => 0) w.received :=
    hw.answered (by rw [hpoint]; decide)
  cases receipt with
  | none =>
      refine ⟨hw.buffer, fun _ => hanswered, fun h => ?_⟩
      change w.point = .reply at h
      rw [hpoint] at h
      cases h
  | some receipt =>
      have hbuffer : takeInto w.packetBuffer receipt = bufferAfter (w.received ++ [receipt]) := by
        unfold bufferAfter
        rw [List.foldl_append, hw.buffer]
        rfl
      by_cases hlength : receipt.bytes.length > 0
      -- the reply is still to come
      · refine ⟨hbuffer, fun h => absurd (if_pos hlength) h, fun _ => ?_⟩
        exact ⟨w.received, receipt, rfl, hlength, rfl, rfl, (if_pos hlength).trans hanswered⟩
      -- an empty message gets none
      · refine ⟨hbuffer, fun _ => ?_, fun h => ?_⟩
        · have hnone : replyTo (takeInto (w.received.foldl takeInto fun _ => 0) receipt) receipt =
              none := if_neg hlength
          change (if receipt.bytes.length > 0 then w.replies else w.replies ++ [none]) =
            answers (fun _ => 0) (w.received ++ [receipt])
          rw [if_neg hlength, answers_concat, hnone, hanswered]
        · cases (if_neg hlength).symm.trans h

theorem reply (hw : w.Answering) (hpoint : w.point = .reply) (system : System) :
    Answering { w with
      system := system
      replies := w.replies ++ [some (echoOf w.packetBuffer w.senderId w.messageType)]
      point := .yield } := by
  rcases hw.pending hpoint with ⟨before, receipt, hreceived, hlength, hsender, htype, hreplies⟩
  refine ⟨hw.buffer, fun _ => ?_, fun h => by cases h⟩
  have hbuffer : w.packetBuffer = takeInto (before.foldl takeInto fun _ => 0) receipt := by
    rw [hw.buffer, hreceived]
    unfold bufferAfter
    rw [List.foldl_append]
    rfl
  have hreply : replyTo w.packetBuffer receipt =
      some (echoOf w.packetBuffer w.senderId w.messageType) := by
    rw [hsender, htype]
    exact if_pos hlength
  dsimp only
  rw [hreceived, answers_concat, ← hbuffer, hreply, hreplies]

theorem step {worker : Nat} {turn : EchoTurn} (hw : w.Answering)
    (h : Echo.step worker w turn = some x) : x.Answering := by
  cases turn with
  | others a =>
      simp only [Echo.step] at h
      split at h
      · cases h
      · rcases Option.map_eq_some_iff.1 h with ⟨t, _, rfl⟩
        exact ⟨hw.buffer, hw.answered, hw.pending⟩
  | worker =>
      simp only [Echo.step] at h
      split at h
      case isFalse => cases h
      unfold workerTurn at h
      -- where the worker stands in its loop decides which call it makes
      cases hpoint : w.point with
      | checkSignals =>
          simp only [hpoint] at h
          split at h
          · cases h
            exact hw.move (by rw [hpoint]; decide) (by decide)
          · cases h
      | receive =>
          simp only [hpoint] at h
          rcases Option.map_eq_some_iff.1 h with ⟨t, _, rfl⟩
          exact hw.take hpoint _ t
      | reply =>
          simp only [hpoint] at h
          rcases Option.map_eq_some_iff.1 h with ⟨t, _, rfl⟩
          exact hw.reply hpoint t
      | yield =>
          simp only [hpoint] at h
          rcases Option.map_eq_some_iff.1 h with ⟨t, _, rfl⟩
          exact hw.move (by rw [hpoint]; decide) (by decide)

/-- All replies that were made are as the messages ask. -/
theorem replies_initial (hw : w.Answering) : w.replies <+: answers (fun _ => 0) w.received := by
  by_cases hpoint : w.point = .reply
  · rcases hw.pending hpoint with ⟨before, receipt, hreceived, _, _, _, hreplies⟩
    rw [hreplies, hreceived, answers_concat]
    exact List.prefix_append _ _
  · exact hw.answered hpoint ▸ List.prefix_refl _

end Answering

/-- The replies of a run are those the messages ask for, in their order. -/
theorem replies_run {worker : Nat} {w x : Echo} {turns : List EchoTurn} (hw : Fresh worker w)
    (h : exec (step worker) w turns = some x) : x.replies <+: answers (fun _ => 0) x.received :=
  (Reachable.invariant (fun _ _ _ hs hstep => Answering.step hs hstep) (Answering.of_fresh hw)
    ⟨turns, h⟩).replies_initial

/-- The reply to message `k` is made from the buffer that the messages before it have left. -/
theorem reply_eq {worker k : Nat} {w x : Echo} {turns : List EchoTurn} {receipt : Receipt}
    {reply : Option Reply} (hw : Fresh worker w) (h : exec (step worker) w turns = some x)
    (hreceived : x.received[k]? = some receipt) (hreply : x.replies[k]? = some reply) :
    reply = replyTo (takeInto (bufferAfter (x.received.take k)) receipt) receipt := by
  rcases replies_run hw h with ⟨rest, hrest⟩
  rcases List.getElem?_eq_some_iff.1 hreply with ⟨hk, _⟩
  have hall : (answers (fun _ => 0) x.received)[k]? = some reply := by
    rw [← hrest, List.getElem?_append_left hk, hreply]
  rw [answers_getElem?, hreceived, Option.map_some, Option.some.injEq] at hall
  exact hall.symm

/-- `x` is reached by a run in which the worker receives `receipt` as its message `k`, and replies
to it with `reply`. -/
def Answers (worker k : Nat) (receipt : Receipt) (reply : Option Reply) : Prop :=
  ∃ (w x : Echo) (turns : List EchoTurn), Fresh worker w ∧ exec (step worker) w turns = some x ∧
    x.received[k]? = some receipt ∧ x.replies[k]? = some reply

end Echo

/-! ## A worker with two messages -/

/-- The worker of a machine that has just started it. -/
def Echo.begin (s : System) : Echo :=
  { system := s
    point := .checkSignals
    packetBuffer := fun _ => 0
    senderId := 0
    messageType := 0
    received := []
    replies := [] }

/-- A message as it lies in a channel. -/
def Receipt.message (receipt : Receipt) : IpcMessage :=
  { data := fun i => receipt.bytes.getD i 0
    senderId := receipt.senderId
    length := receipt.bytes.length
    type := receipt.type }

theorem takeMessage_message {receipt : Receipt} (h : receipt.bytes.length ≤ schedIpcMsgSize) :
    takeMessage receipt.message schedIpcMsgSize = receipt := by
  have hbytes : (List.range receipt.bytes.length).map (fun i => receipt.bytes.getD i 0) =
      receipt.bytes := by
    refine List.ext_getElem (by simp) fun i _ hi => ?_
    simp [List.getElem?_eq_getElem hi]
  unfold takeMessage Receipt.message
  simp only [Nat.not_lt.2 h, if_false, hbytes]

/-- A full message from the master. -/
def filler (byte : UInt8) : Receipt :=
  { senderId := 100
    type := 0
    bytes := List.replicate schedIpcMsgSize byte }

/-- The master waits for its daemon, which has two messages. -/
def clients (first second : Receipt) : SchedulerState :=
  { processTable := fun i =>
      if i = 1 then
        { masterPcb .zero with
          taskId := 101
          communicationChannel :=
            { queue := fun j => if j = 0 then first.message else second.message
              head := 0
              tail := 2
              count := 2 } }
      else
        { masterPcb .zero with
          executionState := .blocked
          waitingOnPid := 101 }
    activeProcessCount := 2
    runningProcessIndex := 1
    schedulerCycles := 0
    globalProcessIdentifierSeed := 102
    kernelElapsedTicks := 0 }

def twoMessages (first second : Receipt) : Echo :=
  Echo.begin ((System.boot (coldKernel 0)).withSched (clients first second))

/-- A worker that is current, at the head of its loop, with a message in its channel. -/
structure Echo.Awaits (w : Echo) (message : IpcMessage) : Prop where
  point : w.point = .checkSignals
  suspended : w.system.suspended w.system.running = .idle
  pending : w.system.sched.current.signalSubsystem.pendingSignals = 0
  count : w.system.sched.current.communicationChannel.count ≠ 0
  message : w.system.sched.current.communicationChannel.queue
    w.system.sched.current.communicationChannel.head = message

/-- The worker takes a message that is not empty, and replies to it. -/
theorem Echo.Awaits.exec_round {w : Echo} {receipt : Receipt} (hw : w.Awaits receipt.message)
    (hlength : 0 < receipt.bytes.length) (hfits : receipt.bytes.length ≤ schedIpcMsgSize) :
    ∃ x, exec (Echo.step w.system.running) w (List.replicate 3 .worker) = some x ∧
      x.received = w.received ++ [receipt] ∧ x.replies.length = w.replies.length + 1 ∧
      x.point = .yield ∧
      x.system = (w.system.receiveRound schedIpcMsgSize).send receipt.senderId
        (takeInto w.packetBuffer receipt) schedIpcMsgSize receipt.type := by
  -- its three turns: no signal is pending, the message is there, the reply goes out
  have hsignals : schedulerCheckPendingSignals w.system.sched = (w.system.sched, []) := by
    unfold schedulerCheckPendingSignals SignalContext.active
    simp only [hw.pending, Nat.zero_and, if_true]
  have hreceive : (schedulerIpcReceive w.system.sched schedIpcMsgSize) =
      (w.system.sched.modifyPcb w.system.running popMessage, some receipt) := by
    unfold schedulerIpcReceive
    simp only [hw.count, hw.message, takeMessage_message hfits]
    rfl
  have hround : w.system.receiveRound schedIpcMsgSize =
      { (w.system.withSched (w.system.sched.modifyPcb w.system.running popMessage)).suspend
          w.system.running .idle with
        receives := w.system.receives ++ [{
          entry := w.system.running, maxLength := schedIpcMsgSize, receipt := receipt }] } := by
    unfold System.receiveRound
    rw [hreceive]
  have hchecked : Echo.step w.system.running w .worker = some { w with point := .receive } := by
    simp only [Echo.step, if_true, Echo.workerTurn, hw.point, hsignals]
    rfl
  have hreceived : Echo.step w.system.running { w with point := .receive } .worker =
      some { w with
        system := w.system.receiveRound schedIpcMsgSize
        packetBuffer := takeInto w.packetBuffer receipt
        senderId := receipt.senderId
        messageType := receipt.type
        received := w.received ++ [receipt]
        point := .reply } := by
    simp only [Echo.step, if_true, Echo.workerTurn, Echo.receiveAction, System.step, hw.suspended,
      System.runCall, hreceive, Echo.take, hlength]
    rfl
  have hrunning : (w.system.receiveRound schedIpcMsgSize).running = w.system.running := by
    rw [hround]
    rfl
  have hidle : (w.system.receiveRound schedIpcMsgSize).suspended w.system.running = .idle := by
    rw [hround]
    exact Function.update_self _ _ _
  have hexec : exec (Echo.step w.system.running) w (List.replicate 3 .worker) =
      some { w with
        system := (w.system.receiveRound schedIpcMsgSize).send receipt.senderId
          (takeInto w.packetBuffer receipt) schedIpcMsgSize receipt.type
        packetBuffer := takeInto w.packetBuffer receipt
        senderId := receipt.senderId
        messageType := receipt.type
        received := w.received ++ [receipt]
        replies := w.replies ++
          [some (echoOf (takeInto w.packetBuffer receipt) receipt.senderId receipt.type)]
        point := .yield } := by
    rw [List.replicate_succ, exec_cons, hchecked, Option.bind_some, List.replicate_succ, exec_cons,
      hreceived, Option.bind_some]
    simp only [List.replicate_succ, List.replicate_zero, exec_cons, exec_nil, Echo.step, hrunning,
      if_true, Echo.workerTurn, System.step, hidle, System.runCall]
    rfl
  exact ⟨_, hexec, rfl, by simp, rfl, rfl⟩

/-- Once the first message is answered and the worker has yielded, it is current again, and the
second message is next. -/
theorem twoMessages_first (byte : UInt8) (second : Receipt) :
    ∃ w, exec (Echo.step 1) (twoMessages (filler byte) second) (List.replicate 4 .worker) = some w ∧
      w.system.running = 1 ∧ w.received = [filler byte] ∧ w.replies.length = 1 ∧
      w.Awaits second.message := by
  have hawaits : (twoMessages (filler byte) second).Awaits (filler byte).message :=
    ⟨rfl, rfl, rfl, Nat.succ_ne_zero 1, rfl⟩
  rcases hawaits.exec_round (by simp [filler]) (by simp [filler]) with
    ⟨x, hexec, hreceived, hreplies, hpoint, hsystem⟩
  have hsched : x.system.sched = ((clients (filler byte) second).modifyPcb 1 popMessage).modifyPcb 0
      (deliverMessage (fillMessage (takeInto (fun _ => 0) (filler byte)) 101 schedIpcMsgSize 0)) := by
    rw [hsystem, System.send_sched, System.receiveRound_sched]
    rfl
  have hidle : x.system.suspended 1 = .idle := by
    rw [hsystem]
    rfl
  have hworker : x.system.sched.processTable 1 =
      popMessage ((clients (filler byte) second).processTable 1) := by
    rw [hsched]
    rfl
  have hmaster : (x.system.sched.processTable 0).executionState = .blocked := by
    rw [hsched]
    rfl
  have hcount : x.system.sched.activeProcessCount = 2 := by
    rw [hsched]
    rfl
  have hcore := schedulerYield_sameCore x.system.sched
  -- the master is still blocked, so the worker is chosen again
  have hready : x.system.sched.tick.Eligible 1 := by
    unfold SchedulerState.Eligible
    rw [show x.system.sched.tick.processTable 1 = x.system.sched.processTable 1 from rfl, hworker]
    exact ⟨rfl, rfl⟩
  have hrunning : (schedulerYield x.system.sched).runningProcessIndex = 1 := by
    rcases schedulerYield_cases x.system.sched with ⟨hone, _⟩ | ⟨_, _, hin, hel⟩ | ⟨_, hnone, _⟩
    · omega
    · have hother : (schedulerYield x.system.sched).runningProcessIndex ≠ 0 := by
        intro hzero
        have hblocked := hel.1
        rw [hzero, hcore.executionState, hmaster] at hblocked
        cases hblocked
      omega
    · exact absurd ⟨1, by omega, hready⟩ hnone
  have hcurrent : (schedulerYield x.system.sched).current.core =
      (popMessage ((clients (filler byte) second).processTable 1)).core := by
    unfold SchedulerState.current
    rw [hrunning, hcore.core, hworker]
  have hhere : x.system.running = 1 := by
    change x.system.sched.runningProcessIndex = 1
    rw [hsched]
    rfl
  have hyield : Echo.step 1 x .worker = some
      { x with
        system := x.system.withSched (schedulerYield x.system.sched)
        point := .checkSignals } := by
    simp only [Echo.step, hhere, if_true, Echo.workerTurn, hpoint, System.step, hidle,
      System.runCall]
    rfl
  have hchannel : (schedulerYield x.system.sched).current.communicationChannel =
      (popMessage ((clients (filler byte) second).processTable 1)).communicationChannel := by
    have hsame := congrArg ProcessControlBlock.communicationChannel hcurrent
    exact hsame
  have hawaits' : Echo.Awaits { x with
      system := x.system.withSched (schedulerYield x.system.sched)
      point := .checkSignals } second.message := by
    refine ⟨rfl, ?_, ?_, ?_, ?_⟩
    · exact (congrArg x.system.suspended hrunning).trans hidle
    · exact congrArg (fun pcb => pcb.signalSubsystem.pendingSignals) hcurrent
    · change (schedulerYield x.system.sched).current.communicationChannel.count ≠ 0
      rw [hchannel]
      exact Nat.one_ne_zero
    · change (schedulerYield x.system.sched).current.communicationChannel.queue
        (schedulerYield x.system.sched).current.communicationChannel.head = second.message
      rw [hchannel]
      rfl
  have hrounds : exec (Echo.step 1) (twoMessages (filler byte) second) (List.replicate 4 .worker) =
      some { x with
        system := x.system.withSched (schedulerYield x.system.sched)
        point := .checkSignals } := by
    rw [show List.replicate 4 EchoTurn.worker = List.replicate 3 .worker ++ [.worker] from rfl,
      exec_append]
    refine (congrArg (fun y => y.bind fun t => exec (Echo.step 1) t [.worker]) hexec).trans ?_
    rw [Option.bind_some, exec_cons, hyield]
    rfl
  exact ⟨_, hrounds, hrunning, hreceived, hreplies, hawaits'⟩

/-- Where a message does not cover the buffer, what the worker received before shows in its reply. -/
theorem answers_filler {second : Receipt} (hfits : second.bytes.length ≤ schedIpcMsgSize)
    (hcovers : ¬ second.Covers) (byte : UInt8) :
    ∃ reply, Echo.Answers 1 1 second (some reply) ∧
      reply.payload[schedIpcMsgSize - 1]? = some byte := by
  rcases twoMessages_first byte second with ⟨w, hfirst, hrunning, hreceived, hreplies, hawaits⟩
  have hlength : 0 < second.bytes.length := by
    unfold Receipt.Covers at hcovers
    omega
  rcases hawaits.exec_round hlength hfits with ⟨x, hsecond, hreceived', hreplies', _⟩
  have hexec : exec (Echo.step 1) (twoMessages (filler byte) second) (List.replicate 7 .worker) =
      some x := by
    rw [show List.replicate 7 EchoTurn.worker =
      List.replicate 4 .worker ++ List.replicate 3 .worker from rfl, exec_append, hfirst]
    rwa [hrunning] at hsecond
  have hfresh : Echo.Fresh 1 (twoMessages (filler byte) second) := ⟨rfl, rfl, rfl, rfl, rfl⟩
  -- both messages have been answered
  have hall := (Echo.replies_run hfresh hexec).eq_of_length (by
    rw [hreplies', hreplies, length_answers, hreceived', hreceived]
    rfl)
  rw [hreceived] at hreceived'
  have hbuffer : takeInto (fun _ => 0) (filler byte) (schedIpcMsgSize - 1) = byte := by
    simp [takeInto, schedulerMemoryCopy, filler]
  rcases payload_getLast hcovers (takeInto (fun _ => 0) (filler byte)) with ⟨reply, hreply, hlast⟩
  refine ⟨reply, ⟨_, x, _, hfresh, hexec, ?_, ?_⟩, ?_⟩
  · rw [hreceived']
    rfl
  · rw [hall, hreceived', answers_getElem?]
    exact congrArg some hreply
  · rw [hlast, hbuffer]

/-- A message is answered alike in any two runs, whatever the worker received before, exactly when it
is empty or fills the whole buffer. -/
theorem repliesAgree_iff (receipt : Receipt) :
    (∀ (worker k : Nat) (reply reply' : Option Reply), Echo.Answers worker k receipt reply →
      Echo.Answers worker k receipt reply' → reply = reply') ↔ receipt.Covers := by
  constructor
  · intro h
    by_contra hcovers
    have hfits : receipt.bytes.length ≤ schedIpcMsgSize := by
      unfold Receipt.Covers at hcovers
      omega
    rcases answers_filler hfits hcovers 0 with ⟨reply, hreply, hlast⟩
    rcases answers_filler hfits hcovers 1 with ⟨reply', hreply', hlast'⟩
    cases h 1 1 _ _ hreply hreply'
    rw [hlast] at hlast'
    cases hlast'
  · rintro hcovers worker k reply reply' ⟨w, x, turns, hw, hexec, hreceived, hreply⟩
      ⟨w', x', turns', hw', hexec', hreceived', hreply'⟩
    rw [Echo.reply_eq hw hexec hreceived hreply, Echo.reply_eq hw' hexec' hreceived' hreply']
    exact replyTo_eq_of_covers hcovers _ _

/-- The master registers a process that gets PID 100 as well, and then the worker; it sends the
worker a full message and a single byte, and waits. -/
def twoClients (byte : UInt8) : List Action :=
  [.call (.registerProcess 0x100000 1 128 0),
    .call (.registerProcess 0x200000 schedDefaultPriority 512 0),
    .call (.ipcSend 101 (fun _ => byte) schedIpcMsgSize 0), .call (.ipcSend 101 (fun _ => 7) 1 0),
    .call (.waitPid 101)]

/-- The reply to the single byte shows what the full message was. -/
theorem repliesAgree_false :
    ¬ ∀ (receipt : Receipt) (worker k : Nat) (reply reply' : Option Reply),
      Echo.Answers worker k receipt reply → Echo.Answers worker k receipt reply' →
        reply = reply' := by
  intro h
  have hanswers : ∀ byte ∈ [0x41, 0x42], Echo.Answers 2 1 ⟨100, 0, [7]⟩
      (some ⟨100, 7 :: List.replicate (schedIpcMsgSize - 1) byte, 0⟩) := by
    -- one run for each filler: only the first message of the two clients differs
    have hrun : ∀ byte ∈ ([0x41, 0x42] : List UInt8),
        ((exec System.step (System.boot (coldKernel 4096)) (twoClients byte)).any fun s =>
          decide (s.suspended 2 = .idle) &&
            (exec (Echo.step 2) (Echo.begin s) (List.replicate 7 .worker)).any fun x =>
              decide (x.received[1]? = some ⟨100, 0, [7]⟩) &&
                decide (x.replies[1]? =
                  some (some ⟨100, 7 :: List.replicate (schedIpcMsgSize - 1) byte, 0⟩))) = true := by
      decide +kernel
    intro byte hbyte
    rcases exists_of_exec_any (hrun byte hbyte) with ⟨s, _, hs⟩
    rw [Bool.and_eq_true, decide_eq_true_eq] at hs
    rcases exists_of_exec_any hs.2 with ⟨x, hexec, hx⟩
    rw [Bool.and_eq_true, decide_eq_true_eq, decide_eq_true_eq] at hx
    exact ⟨_, x, _, ⟨hs.1, rfl, rfl, rfl, rfl⟩, hexec, hx.1, hx.2⟩
  have hsame := h _ 2 1 _ _ (hanswers 0x41 (by simp)) (hanswers 0x42 (by simp))
  cases hsame

end Sched
end WhitexKernel
