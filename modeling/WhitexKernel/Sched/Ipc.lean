import WhitexKernel.Lib.Ring
import WhitexKernel.Sched.Events

/-!
# Ipc — every channel is a bounded FIFO queue

The channel of a process is a ring that any process appends to and its owner takes from.  A turn
changes at most one channel, in one of three ways (`ChannelStep`), and over any run the messages
that were accepted for a process are those it has received, followed by those in its channel.
-/

namespace WhitexKernel
namespace Sched

open Lib Machine Oom SchedulerState

/-! ## Channels as rings -/

def IpcChannel.ring (channel : IpcChannel) : Lib.Ring IpcMessage :=
  { slots := channel.queue
    head := channel.head
    tail := channel.tail
    count := channel.count }

abbrev IpcChannel.WellFormed (channel : IpcChannel) : Prop :=
  channel.ring.WellFormed schedIpcMaxMessages

/-- The messages in the channel, oldest first. -/
abbrev IpcChannel.messages (channel : IpcChannel) : List IpcMessage :=
  channel.ring.contents schedIpcMaxMessages

theorem IpcChannel.ring_push (channel : IpcChannel) (fill : IpcMessage → IpcMessage) :
    (channel.push fill).ring =
      channel.ring.push schedIpcMaxMessages (fill (channel.queue channel.tail)) := rfl

theorem IpcChannel.wellFormed_zero : IpcChannel.zero.WellFormed := by
  refine ⟨?_, ?_, ?_⟩ <;> decide

/-- The channel of entry `i`. -/
def SchedulerState.channel (s : SchedulerState) (i : Nat) : IpcChannel :=
  (s.processTable i).communicationChannel

/-! ## Calls that leave the channels alone -/

/-- The same channels in the same entries. -/
structure SameChannels (s t : SchedulerState) : Prop where
  channel : ∀ i, t.channel i = s.channel i
  count : t.activeProcessCount = s.activeProcessCount

namespace SameChannels

variable {s t u : SchedulerState}

theorem refl (s : SchedulerState) : SameChannels s s := ⟨fun _ => rfl, rfl⟩

theorem trans (hst : SameChannels s t) (htu : SameChannels t u) : SameChannels s u :=
  ⟨fun i => (htu.channel i).trans (hst.channel i), htu.count.trans hst.count⟩

theorem yield (s : SchedulerState) : SameChannels s (schedulerYield s) :=
  ⟨(schedulerYield_sameCore s).communicationChannel, (schedulerYield_sameCore s).count⟩

theorem modifyPcb (s : SchedulerState) (i : Nat) {f : ProcessControlBlock → ProcessControlBlock}
    (hf : ∀ pcb, (f pcb).communicationChannel = pcb.communicationChannel) :
    SameChannels s (s.modifyPcb i f) := ⟨fun j => modifyPcb_field s i j hf, rfl⟩

theorem yieldIfCurrent (s : SchedulerState) (i : Nat) : SameChannels s (yieldIfCurrent s i) := by
  unfold Sched.yieldIfCurrent
  split
  · exact yield s
  · exact refl s

theorem sendSignal (s : SchedulerState) (pid signal : Nat) :
    SameChannels s (schedulerSendSignal s pid signal).1 := by
  have hpending : ∀ i, SameChannels s (s.modifyPcb i (addPending signal)) :=
    fun i => modifyPcb s i fun _ => rfl
  have hstate : ∀ (i : Nat) (st : TaskState),
      SameChannels s ((s.modifyPcb i (addPending signal)).modifyPcb i (setState st)) :=
    fun i st => (hpending i).trans (modifyPcb (f := setState st) _ i fun _ => rfl)
  unfold schedulerSendSignal deliverSignal
  split
  · exact refl s
  · split
    · simp only
      split
      · exact (hstate _ .dead).trans (yieldIfCurrent _ _)
      · split
        · exact (hstate _ .stopped).trans (yieldIfCurrent _ _)
        · split
          · exact hstate _ .running
          · exact hpending _
    · exact refl s

theorem releaseWaiters (s : SchedulerState) (pid : Nat) :
    SameChannels s (releaseWaiters s pid) := by
  refine ⟨fun j => releaseWaiters_field s pid j fun pcb => ?_, rfl⟩
  unfold releasePcb
  split <;> rfl

theorem terminateProcess (s : SchedulerState) (pid : Nat) :
    SameChannels s (schedulerTerminateProcess s pid).1 := by
  unfold schedulerTerminateProcess
  split
  · exact refl s
  · split
    · exact refl s
    · exact (modifyPcb (f := setState .dead) s _ fun _ => rfl).trans (releaseWaiters _ pid)

theorem blockCurrent (s : SchedulerState) (pid : Nat) : SameChannels s (blockCurrent s pid) :=
  (modifyPcb (f := blockPcb pid) s _ fun _ => rfl).trans (yield _)

theorem sleep (s : SchedulerState) (ticks : Nat) : SameChannels s (schedulerSleep s ticks) :=
  (modifyPcb (f := setDeadline _) s _ fun _ => rfl).trans (yield _)

end SameChannels

theorem channel_addProcess (s : SchedulerState)
    (entryPoint pid priority rss flags stackRaw j : Nat) :
    (s.addProcess entryPoint pid priority rss flags stackRaw).channel j =
      if j = s.activeProcessCount then IpcChannel.zero else s.channel j := by
  unfold SchedulerState.channel addProcess
  simp only [modifyPcb_processTable]
  split <;> rfl

/-! ## What a turn does to the channels -/

/-- A turn leaves the channels alone, or one message is accepted, or received, or a process comes
into use with an empty channel. -/
inductive ChannelStep (s t : System) : Prop
  | quiet
      (same : SameChannels s.sched t.sched)
      (sends : t.sends = s.sends)
      (receives : t.receives = s.receives)
  | sent (i dest : Nat) (message : Nat → UInt8) (length type : Nat)
      (target : s.sched.findLive dest = some i)
      (room : (s.sched.channel i).count < schedIpcMaxMessages)
      (channel : ∀ j, t.sched.channel j =
        if j = i then
          (s.sched.channel i).push (fillMessage message s.sched.current.taskId length type)
        else s.sched.channel j)
      (count : t.sched.activeProcessCount = s.sched.activeProcessCount)
      (sends : t.sends = s.sends ++ [s.sendRecord dest i message length type])
      (receives : t.receives = s.receives)
  | received (maxLength : Nat)
      (nonempty : (s.sched.channel s.running).count ≠ 0)
      (channel : ∀ j, t.sched.channel j =
        if j = s.running then (s.sched.channel s.running).pop else s.sched.channel j)
      (count : t.sched.activeProcessCount = s.sched.activeProcessCount)
      (sends : t.sends = s.sends)
      (receives : t.receives = s.receives ++ [{
        entry := s.running
        maxLength := maxLength
        receipt := takeMessage
          ((s.sched.channel s.running).queue (s.sched.channel s.running).head) maxLength }])
  | registered
      (channel : ∀ j, t.sched.channel j =
        if j = s.sched.activeProcessCount then IpcChannel.zero else s.sched.channel j)
      (count : t.sched.activeProcessCount = s.sched.activeProcessCount + 1)
      (sends : t.sends = s.sends)
      (receives : t.receives = s.receives)

/-- A send queues the message at a live destination with room, or changes nothing. -/
theorem schedulerIpcSend_cases (s : SchedulerState) (dest : Nat) (message : Nat → UInt8)
    (length type : Nat) :
    (∃ i, s.findLive dest = some i ∧ (s.channel i).count < schedIpcMaxMessages ∧
      schedulerIpcSend s dest message length type =
        (s.modifyPcb i (deliverMessage (fillMessage message s.current.taskId length type)), .ok)) ∨
    ∃ e, e ≠ .ok ∧ schedulerIpcSend s dest message length type = (s, e) := by
  unfold schedulerIpcSend SchedulerState.channel
  by_cases hlen : length > schedIpcMsgSize
  · exact .inr ⟨.overflow, by simp, by simp [hlen]⟩
  · cases hfind : s.findLive dest with
    | none => exact .inr ⟨.ioNotFound, by simp, by simp [hlen]⟩
    | some i =>
        by_cases hfull : (s.processTable i).communicationChannel.count ≥ schedIpcMaxMessages
        · exact .inr ⟨.busy, by simp, by simp [hlen, hfull]⟩
        · exact .inl ⟨i, rfl, Nat.lt_of_not_ge hfull, by simp [hlen, hfull]⟩

theorem send_channelStep (s : System) (dest : Nat) (message : Nat → UInt8) (length type : Nat) :
    ChannelStep s (s.send dest message length type) := by
  rcases schedulerIpcSend_cases s.sched dest message length type with
    ⟨i, hfind, hroom, hsend⟩ | ⟨e, he, hsend⟩
  · refine .sent i dest message length type hfind hroom ?_ ?_ ?_ ?_
    · intro j
      rw [System.send_sched, hsend]
      unfold SchedulerState.channel
      rw [modifyPcb_processTable]
      split <;> rfl
    · rw [System.send_sched, hsend]
      rfl
    · simp [System.send, hsend, hfind]
    · simp [System.send, hsend, hfind]
  · have hquiet : s.send dest message length type = s.withSched s.sched := by
      cases e with
      | ok => exact absurd rfl he
      | _ => simp [System.send, hsend]
    rw [hquiet]
    exact .quiet (.refl _) rfl rfl

theorem receiveRound_channelStep (s : System) (maxLength : Nat) :
    ChannelStep s (s.receiveRound maxLength) := by
  by_cases hempty : (s.sched.channel s.running).count = 0
  -- an empty channel: the process blocks, and takes nothing
  · have hblock : schedulerIpcReceive s.sched maxLength = (blockCurrent s.sched 0, none) := by
      unfold schedulerIpcReceive
      exact if_pos hempty
    refine .quiet ?_ ?_ ?_
    · rw [System.receiveRound_sched, hblock]
      exact .blockCurrent s.sched 0
    · simp [System.receiveRound, hblock]
    · simp [System.receiveRound, hblock]
  -- otherwise the message at `head` is taken
  · have htake : schedulerIpcReceive s.sched maxLength =
        (s.sched.modifyPcb s.running popMessage,
          some (takeMessage ((s.sched.channel s.running).queue
            (s.sched.channel s.running).head) maxLength)) := by
      unfold schedulerIpcReceive
      exact if_neg hempty
    refine .received maxLength hempty ?_ ?_ ?_ ?_
    · intro j
      rw [System.receiveRound_sched, htake]
      unfold SchedulerState.channel
      rw [modifyPcb_processTable]
      split <;> rfl
    · rw [System.receiveRound_sched, htake]
      rfl
    · simp [System.receiveRound, htake]
    · simp [System.receiveRound, htake]

theorem register_channelStep {s t : System} {entryPoint priority rss flags : Nat}
    (h : s.register entryPoint priority rss flags = some t) : ChannelStep s t := by
  rcases System.register_cases h with ⟨hsends, hreceives, ht | ht | ⟨_, stackRaw, ht⟩⟩
  · refine .quiet ?_ hsends hreceives
    rw [ht]
    exact .refl _
  · refine .quiet ?_ hsends hreceives
    rw [ht]
    exact ⟨fun _ => rfl, rfl⟩
  · refine .registered (fun j => ?_) ?_ hsends hreceives
    · rw [ht]
      exact channel_addProcess s.kernel.drawPid.1.sched _ _ _ _ _ _ j
    · rw [ht]
      rfl

/-- Every turn is a channel step. -/
theorem step_channelStep {s t : System} {a : Action} (h : s.step a = some t) :
    ChannelStep s t := by
  cases System.step_turn h with
  | receiveAgain maxLength => exact receiveRound_channelStep s maxLength
  | waitReturns pid target => exact .quiet (.refl _) rfl rfl
  | call c _ hcall =>
      -- only the sends and the receives touch a channel
      cases c with
      | registerProcess entryPoint priority rss flags => exact register_channelStep hcall
      | terminateProcess pid =>
          cases hcall
          exact .quiet (.terminateProcess s.sched pid) rfl rfl
      | terminateCurrent =>
          cases hcall
          exact .quiet ((SameChannels.terminateProcess s.sched _).trans (.yield _)) rfl rfl
      | sendSignal pid signal =>
          cases hcall
          exact .quiet (.sendSignal s.sched pid signal) rfl rfl
      | waitPid pid =>
          cases hcall
          unfold System.wait schedulerWaitPid
          cases s.sched.findLive pid with
          | none => exact .quiet (.refl _) rfl rfl
          | some i => exact .quiet (.blockCurrent s.sched pid) rfl rfl
      | ipcSend dest message length type =>
          cases hcall
          exact send_channelStep s dest message length type
      | ipcReceive maxLength =>
          cases hcall
          exact receiveRound_channelStep s maxLength
      | sleep ticks =>
          cases hcall
          exact .quiet (.sleep s.sched ticks) rfl rfl
      | yield =>
          cases hcall
          exact .quiet (.yield s.sched) rfl rfl

/-! ## Accepted, received and queued messages -/

/-- The receive call got this message: its sender, its type and what fits of its payload. -/
def Delivered (m : SendRecord) (r : ReceiveRecord) : Prop :=
  r.receipt.senderId = m.senderId ∧ r.receipt.type = m.type ∧
    r.receipt.bytes = m.payload.take (min m.payload.length r.maxLength)

/-- The slot holds this message. -/
def Queued (m : SendRecord) (slot : IpcMessage) : Prop :=
  slot.senderId = m.senderId ∧ slot.type = m.type ∧
    m.payload = (List.range slot.length).map slot.data

/-- Taking a queued message delivers it. -/
theorem Queued.delivered {m : SendRecord} {slot : IpcMessage} (h : Queued m slot)
    (entry maxLength : Nat) :
    Delivered m { entry := entry, maxLength := maxLength, receipt := takeMessage slot maxLength } := by
  refine ⟨h.1, h.2.1, ?_⟩
  have hlen : m.payload.length = slot.length := by simp [h.2.2]
  have hmin : min m.payload.length maxLength =
      if slot.length > maxLength then maxLength else slot.length := by
    rw [hlen]
    split <;> omega
  have hle : min m.payload.length maxLength ≤ slot.length := by omega
  simp only [takeMessage]
  rw [← hmin, h.2.2, ← List.map_take, List.take_range, List.length_map, List.length_range]
  rw [h.2.2, List.length_map, List.length_range] at hle
  congr 2
  omega

/-- An accepted message is queued as its record says. -/
theorem queued_fillMessage (s : System) (dest i : Nat) (message : Nat → UInt8) (length type : Nat)
    (slot : IpcMessage) :
    Queued (s.sendRecord dest i message length type)
      (fillMessage message s.sched.current.taskId length type slot) := by
  refine ⟨rfl, rfl, ?_⟩
  refine List.map_congr_left fun k hk => ?_
  simp [fillMessage, schedulerMemoryCopy, List.mem_range.1 hk]

/-- The messages accepted for entry `i`, in order. -/
def System.acceptedBy (s : System) (i : Nat) : List SendRecord :=
  s.sends.filter fun m => m.entry = i

/-- The receive calls entry `i` has completed, in order. -/
def System.receivedBy (s : System) (i : Nat) : List ReceiveRecord :=
  s.receives.filter fun r => r.entry = i

/-- Entry `i` has received the oldest of the messages accepted for it, and its channel holds the
others. -/
def ChannelHistory (s : System) (i : Nat) : Prop :=
  ∃ served pending, s.acceptedBy i = served ++ pending ∧
    List.Forall₂ Delivered served (s.receivedBy i) ∧
    List.Forall₂ Queued pending (s.sched.channel i).messages

/-! ## The invariant -/

theorem acceptedBy_append (t s : System) (m : SendRecord) (h : t.sends = s.sends ++ [m]) (i : Nat) :
    t.acceptedBy i = s.acceptedBy i ++ if m.entry = i then [m] else [] := by
  simp only [System.acceptedBy, h, List.filter_append, List.filter_cons, List.filter_nil]
  split <;> simp_all

theorem receivedBy_append (t s : System) (r : ReceiveRecord) (h : t.receives = s.receives ++ [r])
    (i : Nat) : t.receivedBy i = s.receivedBy i ++ if r.entry = i then [r] else [] := by
  simp only [System.receivedBy, h, List.filter_append, List.filter_cons, List.filter_nil]
  split <;> simp_all

namespace ChannelHistory

variable {s t : System} {i : Nat}

/-- A history speaks about the two logs and one channel. -/
theorem congr (h : ChannelHistory s i) (hsends : t.acceptedBy i = s.acceptedBy i)
    (hreceives : t.receivedBy i = s.receivedBy i) (hchan : t.sched.channel i = s.sched.channel i) :
    ChannelHistory t i := by
  unfold ChannelHistory
  rw [hsends, hreceives, hchan]
  exact h

/-- A message is accepted for entry `i`. -/
theorem send {m : SendRecord} {fill : IpcMessage → IpcMessage} (h : ChannelHistory s i)
    (hwf : (s.sched.channel i).WellFormed)
    (hroom : (s.sched.channel i).count < schedIpcMaxMessages)
    (hqueued : ∀ slot, Queued m (fill slot))
    (hsends : t.acceptedBy i = s.acceptedBy i ++ [m]) (hreceives : t.receivedBy i = s.receivedBy i)
    (hchan : t.sched.channel i = (s.sched.channel i).push fill) : ChannelHistory t i := by
  rcases h with ⟨served, pending, hsplit, hserved, hpending⟩
  refine ⟨served, pending ++ [m], ?_, ?_, ?_⟩
  · rw [hsends, hsplit, List.append_assoc]
  · rw [hreceives]
    exact hserved
  · rw [hchan, IpcChannel.messages, IpcChannel.ring_push, hwf.contents_push hroom]
    exact List.rel_append hpending (.cons (hqueued _) .nil)

/-- Entry `i` takes the message at the head of its channel. -/
theorem receive {maxLength : Nat} (h : ChannelHistory s i) (hwf : (s.sched.channel i).WellFormed)
    (hnonempty : (s.sched.channel i).count ≠ 0) (hsends : t.acceptedBy i = s.acceptedBy i)
    (hreceives : t.receivedBy i = s.receivedBy i ++ [{
      entry := i
      maxLength := maxLength
      receipt := takeMessage ((s.sched.channel i).queue (s.sched.channel i).head) maxLength }])
    (hchan : t.sched.channel i = (s.sched.channel i).pop) : ChannelHistory t i := by
  rcases h with ⟨served, pending, hsplit, hserved, hpending⟩
  have hcontents : (s.sched.channel i).messages =
      (s.sched.channel i).queue (s.sched.channel i).head :: (s.sched.channel i).pop.messages :=
    hwf.contents_pop hnonempty
  rw [hcontents] at hpending
  cases hpending with
  | @cons m _ rest _ hhead hrest =>
      refine ⟨served ++ [m], rest, ?_, ?_, ?_⟩
      · rw [hsends, hsplit]
        simp
      · rw [hreceives]
        exact List.rel_append hserved (.cons (hhead.delivered i maxLength) .nil)
      · rw [hchan]
        exact hrest

/-- An entry that comes into use has no history. -/
theorem fresh (hsends : t.acceptedBy i = []) (hreceives : t.receivedBy i = [])
    (hchan : t.sched.channel i = IpcChannel.zero) : ChannelHistory t i := by
  refine ⟨[], [], hsends, ?_, ?_⟩
  · rw [hreceives]
    exact .nil
  · rw [hchan, IpcChannel.messages, Lib.Ring.contents_of_count_eq_zero rfl]
    exact .nil

end ChannelHistory

/-- The invariant of all channels. -/
structure ChannelsHeld (s : System) : Prop where
  running : RunningInTable s.sched
  wellFormed : ∀ i, i < s.sched.activeProcessCount → (s.sched.channel i).WellFormed
  history : ∀ i, i < s.sched.activeProcessCount → ChannelHistory s i
  sent : ∀ m ∈ s.sends, m.entry < s.sched.activeProcessCount ∧
    (s.sched.processTable m.entry).taskId = m.destinationPid
  received : ∀ r ∈ s.receives, r.entry < s.sched.activeProcessCount

namespace ChannelsHeld

variable {s t : System}

theorem acceptedBy_eq_nil (hs : ChannelsHeld s) : s.acceptedBy s.sched.activeProcessCount = [] := by
  simp only [System.acceptedBy, List.filter_eq_nil_iff, decide_eq_true_eq]
  intro m hm
  exact Nat.ne_of_lt (hs.sent m hm).1

theorem receivedBy_eq_nil (hs : ChannelsHeld s) : s.receivedBy s.sched.activeProcessCount = [] := by
  simp only [System.receivedBy, List.filter_eq_nil_iff, decide_eq_true_eq]
  intro r hr
  exact Nat.ne_of_lt (hs.received r hr)

/-- The logs of a turn only name entries in use. -/
theorem logs_step (hs : ChannelsHeld s) {a : Action} (h : s.step a = some t) :
    (∀ m ∈ t.sends, m.entry < t.sched.activeProcessCount ∧
      (t.sched.processTable m.entry).taskId = m.destinationPid) ∧
    ∀ r ∈ t.receives, r.entry < t.sched.activeProcessCount := by
  have hcount := step_count_le h
  -- what is in the logs already stays true, since entries in use keep their PIDs
  have hold : ∀ m ∈ s.sends, m.entry < t.sched.activeProcessCount ∧
      (t.sched.processTable m.entry).taskId = m.destinationPid := by
    intro m hm
    rcases hs.sent m hm with ⟨hentry, htask⟩
    exact ⟨Nat.lt_of_lt_of_le hentry hcount, (step_taskId h hentry).trans htask⟩
  have holdReceives : ∀ r ∈ s.receives, r.entry < t.sched.activeProcessCount :=
    fun r hr => Nat.lt_of_lt_of_le (hs.received r hr) hcount
  cases step_channelStep h with
  | quiet _ hsends hreceives =>
      rw [hsends, hreceives]
      exact ⟨hold, holdReceives⟩
  | sent i dest message length type htarget _ _ _ hsends hreceives =>
      rw [hsends, hreceives]
      refine ⟨fun m hm => ?_, holdReceives⟩
      rcases List.mem_append.1 hm with hm | hm
      · exact hold m hm
      · have hi := findLive_eq_some htarget
        rw [List.mem_singleton.1 hm]
        exact ⟨Nat.lt_of_lt_of_le hi.1.1 hcount, (step_taskId h hi.1.1).trans hi.2⟩
  | received maxLength _ _ _ hsends hreceives =>
      rw [hsends, hreceives]
      refine ⟨hold, fun r hr => ?_⟩
      rcases List.mem_append.1 hr with hr | hr
      · exact holdReceives r hr
      · rw [List.mem_singleton.1 hr]
        exact Nat.lt_of_lt_of_le hs.running hcount
  | registered _ _ hsends hreceives =>
      rw [hsends, hreceives]
      exact ⟨hold, holdReceives⟩

/-- A channel that a turn leaves alone, with what was accepted and received there. -/
theorem unchanged (hs : ChannelsHeld s) {i : Nat} (hi : i < s.sched.activeProcessCount)
    (haccepted : t.acceptedBy i = s.acceptedBy i) (hreceived : t.receivedBy i = s.receivedBy i)
    (hchan : t.sched.channel i = s.sched.channel i) :
    (t.sched.channel i).WellFormed ∧ ChannelHistory t i := by
  refine ⟨?_, (hs.history i hi).congr haccepted hreceived hchan⟩
  rw [hchan]
  exact hs.wellFormed i hi

/-- One turn keeps every channel a queue of what was accepted and not yet received. -/
theorem channels_step (hs : ChannelsHeld s) (h : ChannelStep s t) :
    ∀ i, i < t.sched.activeProcessCount → (t.sched.channel i).WellFormed ∧ ChannelHistory t i := by
  intro i hi
  cases h with
  | quiet hsame hsends hreceives =>
      rw [hsame.count] at hi
      refine hs.unchanged hi ?_ ?_ (hsame.channel i)
      · simp [System.acceptedBy, hsends]
      · simp [System.receivedBy, hreceives]
  | sent j dest message length type _ hroom hchan hcount hsends hreceives =>
      rw [hcount] at hi
      -- a message was accepted: it is the last one of its channel now
      have haccepted := acceptedBy_append t s _ hsends i
      have hreceived : t.receivedBy i = s.receivedBy i := by
        simp [System.receivedBy, hreceives]
      by_cases hij : i = j
      · subst hij
        have hself : t.sched.channel i =
            (s.sched.channel i).push (fillMessage message s.sched.current.taskId length type) := by
          rw [hchan, if_pos rfl]
        refine ⟨?_, (hs.history i hi).send (hs.wellFormed i hi) hroom
          (queued_fillMessage s dest i message length type) ?_ hreceived hself⟩
        · rw [hself]
          exact (hs.wellFormed i hi).push hroom _
        · rw [haccepted]
          simp [System.sendRecord]
      · have hother : t.sched.channel i = s.sched.channel i := by
          rw [hchan, if_neg hij]
        refine hs.unchanged hi ?_ hreceived hother
        rw [haccepted]
        simp [System.sendRecord, Ne.symm hij]
  | received maxLength hnonempty hchan hcount hsends hreceives =>
      rw [hcount] at hi
      have haccepted : t.acceptedBy i = s.acceptedBy i := by
        simp [System.acceptedBy, hsends]
      -- a message was received: it was the first one of the channel of the receiver
      have hreceived := receivedBy_append t s _ hreceives i
      by_cases hij : i = s.running
      · subst hij
        have hself : t.sched.channel s.running = (s.sched.channel s.running).pop := by
          rw [hchan, if_pos rfl]
        rw [if_pos rfl] at hreceived
        refine ⟨?_, (hs.history _ hi).receive (hs.wellFormed _ hi) hnonempty haccepted hreceived
          hself⟩
        rw [hself]
        exact (hs.wellFormed _ hi).pop hnonempty
      · have hother : t.sched.channel i = s.sched.channel i := by
          rw [hchan, if_neg hij]
        refine hs.unchanged hi haccepted ?_ hother
        rw [hreceived]
        simp [Ne.symm hij]
  | registered hchan hcount hsends hreceives =>
      have haccepted : t.acceptedBy i = s.acceptedBy i := by
        simp [System.acceptedBy, hsends]
      have hreceived : t.receivedBy i = s.receivedBy i := by
        simp [System.receivedBy, hreceives]
      -- a new process starts with an empty channel, and no message ever went there
      by_cases hij : i = s.sched.activeProcessCount
      · have hself : t.sched.channel i = IpcChannel.zero := by
          rw [hchan, if_pos hij]
        refine ⟨?_, .fresh ?_ ?_ hself⟩
        · rw [hself]
          exact IpcChannel.wellFormed_zero
        · rw [haccepted, hij]
          exact hs.acceptedBy_eq_nil
        · rw [hreceived, hij]
          exact hs.receivedBy_eq_nil
      · have hlt : i < s.sched.activeProcessCount := by omega
        have hother : t.sched.channel i = s.sched.channel i := by
          rw [hchan, if_neg hij]
        exact hs.unchanged hlt haccepted hreceived hother

theorem step (hs : ChannelsHeld s) {a : Action} (h : s.step a = some t) : ChannelsHeld t := by
  have hchannels := hs.channels_step (step_channelStep h)
  have hlogs := hs.logs_step h
  exact ⟨hs.running.step h, fun i hi => (hchannels i hi).1, fun i hi => (hchannels i hi).2,
    hlogs.1, hlogs.2⟩

end ChannelsHeld

/-! ## Runs -/

/-- No two entries in use, dead or alive, carry the same PID. -/
def DistinctPids (s : System) : Prop :=
  ∀ i j, i < s.sched.activeProcessCount → j < s.sched.activeProcessCount →
    (s.sched.processTable i).taskId = (s.sched.processTable j).taskId → i = j

/-- Nothing has been sent yet: some process is current, and all channels in use are empty. -/
structure NothingSent (s : System) : Prop where
  running : s.running < s.sched.activeProcessCount
  channels : ∀ i, i < s.sched.activeProcessCount →
    (s.sched.processTable i).communicationChannel.WellFormed ∧
      (s.sched.processTable i).communicationChannel.count = 0
  sends : s.sends = []
  receives : s.receives = []

theorem NothingSent.channelsHeld {s : System} (h : NothingSent s) : ChannelsHeld s := by
  refine ⟨h.running, fun i hi => (h.channels i hi).1, fun i hi => ?_, ?_, ?_⟩
  · refine ⟨[], [], ?_, ?_, ?_⟩
    · simp [System.acceptedBy, h.sends]
    · simp [System.receivedBy, h.receives]
    · have hempty : (s.sched.channel i).messages = [] :=
        Lib.Ring.contents_of_count_eq_zero (h.channels i hi).2
      rw [hempty]
      exact .nil
  · simp [h.sends]
  · simp [h.receives]

/-- The send for entry `i` returns `ERR_OK`, and appends its message to that channel alone. -/
structure Accepted (s : System) (i dest : Nat) (message : Nat → UInt8) (length type : Nat)
    (r : SchedulerState × ErrCode) : Prop where
  ok : r.2 = .ok
  appended : ∃ slot, Queued (s.sendRecord dest i message length type) slot ∧
    (r.1.channel i).messages = (s.sched.channel i).messages ++ [slot]
  others : ∀ j, j ≠ i → r.1.channel j = s.sched.channel j

/-- The receive of the current process hands out the message at the head of its channel, and takes
it from there. -/
structure Taken (s : System) (maxLength : Nat) (r : SchedulerState × Option Receipt) : Prop where
  head : ∃ slot rest, (s.sched.channel s.running).messages = slot :: rest ∧
    r.2 = some (takeMessage slot maxLength) ∧ (r.1.channel s.running).messages = rest
  others : ∀ j, j ≠ s.running → r.1.channel j = s.sched.channel j

/-- The channels of the processes are bounded FIFO queues: their indices are consistent; if the PIDs
are distinct, what a process has received is, in order, the first messages accepted under its PID,
and its channel holds the other ones; a message for a live process is accepted as long as it has the
size and its channel has room, and no other send changes anything; and a process whose channel is not
empty receives the oldest message there. -/
structure ChannelsAreQueues (s : System) : Prop where
  indices : ∀ i, i < s.sched.activeProcessCount →
    ∀ channel, channel = (s.sched.processTable i).communicationChannel →
      channel.head < schedIpcMaxMessages ∧ channel.tail < schedIpcMaxMessages ∧
        channel.count ≤ schedIpcMaxMessages ∧
        channel.tail = (channel.head + channel.count) % schedIpcMaxMessages
  fifo : DistinctPids s → ∀ i, i < s.sched.activeProcessCount →
    ∃ served pending,
      (s.sends.filter fun m => m.destinationPid = (s.sched.processTable i).taskId) =
        served ++ pending ∧
      List.Forall₂ Delivered served (s.receives.filter fun r => r.entry = i) ∧
      List.Forall₂ Queued pending (s.sched.processTable i).communicationChannel.messages
  accepted : ∀ i dest message length type, s.sched.findLive dest = some i →
    length ≤ schedIpcMsgSize →
      (s.sched.processTable i).communicationChannel.count < schedIpcMaxMessages →
        Accepted s i dest message length type (schedulerIpcSend s.sched dest message length type)
  refused : ∀ destinationPid message length type,
    (schedulerIpcSend s.sched destinationPid message length type).2 ≠ .ok →
      (schedulerIpcSend s.sched destinationPid message length type).1 = s.sched
  received : ∀ maxLength, (s.sched.processTable s.running).communicationChannel.count ≠ 0 →
    Taken s maxLength (schedulerIpcReceive s.sched maxLength)

/-- A send that finds its destination alive and its channel not full. -/
theorem accepted_schedulerIpcSend {s : System} {i dest : Nat} (hfind : s.sched.findLive dest = some i)
    (hwf : (s.sched.channel i).WellFormed)
    (hroom : (s.sched.channel i).count < schedIpcMaxMessages) (message : Nat → UInt8)
    {length : Nat} (hlen : length ≤ schedIpcMsgSize) (type : Nat) :
    Accepted s i dest message length type
      (schedulerIpcSend s.sched dest message length type) := by
  have hsend : schedulerIpcSend s.sched dest message length type =
      (s.sched.modifyPcb i
        (deliverMessage (fillMessage message s.sched.current.taskId length type)), .ok) := by
    have hfull : ¬ (s.sched.processTable i).communicationChannel.count ≥ schedIpcMaxMessages :=
      Nat.not_le.2 hroom
    unfold schedulerIpcSend
    rw [if_neg (Nat.not_lt.2 hlen), hfind]
    exact if_neg hfull
  rw [hsend]
  refine ⟨rfl, ⟨_, queued_fillMessage s dest i message length type
    ((s.sched.channel i).queue (s.sched.channel i).tail), ?_⟩, fun j hj => ?_⟩
  · have hself : (s.sched.modifyPcb i
        (deliverMessage (fillMessage message s.sched.current.taskId length type))).channel i =
          (s.sched.channel i).push (fillMessage message s.sched.current.taskId length type) := by
      unfold SchedulerState.channel
      rw [modifyPcb_self]
      rfl
    rw [hself]
    simp only [IpcChannel.messages, IpcChannel.ring_push]
    exact hwf.contents_push hroom _
  · exact congrArg _ (modifyPcb_of_ne _ hj _)

/-- A receive that finds a message. -/
theorem taken_schedulerIpcReceive {s : System} (hwf : (s.sched.channel s.running).WellFormed)
    (hnonempty : (s.sched.channel s.running).count ≠ 0) (maxLength : Nat) :
    Taken s maxLength (schedulerIpcReceive s.sched maxLength) := by
  have htake : schedulerIpcReceive s.sched maxLength =
      (s.sched.modifyPcb s.running popMessage,
        some (takeMessage ((s.sched.channel s.running).queue
          (s.sched.channel s.running).head) maxLength)) := by
    unfold schedulerIpcReceive
    exact if_neg hnonempty
  rw [htake]
  refine ⟨⟨_, (s.sched.channel s.running).pop.messages, hwf.contents_pop hnonempty, rfl, ?_⟩,
    fun j hj => ?_⟩
  · unfold SchedulerState.channel
    rw [modifyPcb_self]
    rfl
  · exact congrArg _ (modifyPcb_of_ne _ hj _)

theorem ChannelsHeld.channelsAreQueues {s : System} (h : ChannelsHeld s) : ChannelsAreQueues s := by
  constructor
  · rintro i hi channel rfl
    have hwf := h.wellFormed i hi
    exact ⟨hwf.head_lt, hwf.tail_lt, hwf.count_le, hwf.tail_eq⟩
  · intro hdistinct i hi
    -- with distinct PIDs the messages sent to a PID are those its entry accepted
    have hsame : (s.sends.filter fun m =>
        m.destinationPid = (s.sched.processTable i).taskId) = s.acceptedBy i := by
      refine List.filter_congr fun m hm => ?_
      rcases h.sent m hm with ⟨hentry, htask⟩
      rw [← htask, decide_eq_decide]
      constructor
      · exact hdistinct _ _ hentry hi
      · rintro rfl
        rfl
    rw [hsame]
    exact h.history i hi
  · intro i dest message length type hfind hlen hroom
    have hi := (findLive_eq_some hfind).1.1
    exact accepted_schedulerIpcSend hfind (h.wellFormed i hi) hroom message hlen type
  · intro dest message length type hrefused
    rcases schedulerIpcSend_cases s.sched dest message length type with
      ⟨i, _, _, hsend⟩ | ⟨e, _, hsend⟩
    · rw [hsend] at hrefused
      exact absurd rfl hrefused
    · rw [hsend]
  · intro maxLength hnonempty
    exact taken_schedulerIpcReceive (h.wellFormed _ h.running) hnonempty maxLength

/-- Over every run, the channels are bounded FIFO queues. -/
theorem channelsAreQueues_run {s : System} (hs : NothingSent s) (as : List Action) :
    AllStates System.step ChannelsAreQueues s as := by
  have hheld : AllStates System.step ChannelsHeld s as :=
    allStates_of_invariant (fun _ _ _ hs h => hs.step h) hs.channelsHeld as
  exact hheld.mono fun _ h => h.channelsAreQueues

/-- The master and a second process, with the PID 101. -/
def masterAndChild : System :=
  let master := System.boot (coldKernel 4096)
  master.withSched
    (master.sched.addProcess 0x100000 101 schedDefaultPriority 128 0 0x10000000)

theorem masterAndChild_nothingSent : NothingSent masterAndChild := by
  refine ⟨by decide, fun i hi => ?_, rfl, rfl⟩
  match i, hi with
  | 0, _ => exact ⟨IpcChannel.wellFormed_zero, rfl⟩
  | 1, _ => exact ⟨IpcChannel.wellFormed_zero, rfl⟩

/-- The master sends the child five bytes, the child takes the first three of them. -/
theorem channelsAreQueues_run_masterAndChild :
    AllStates System.step ChannelsAreQueues masterAndChild
      [.call (.ipcSend 101 (fun i => UInt8.ofNat i) 5 7), .call (.ipcReceive 128),
        .call (.ipcReceive 3)] :=
  channelsAreQueues_run masterAndChild_nothingSent _

end Sched
end WhitexKernel
