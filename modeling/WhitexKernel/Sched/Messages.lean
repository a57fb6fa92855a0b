import WhitexKernel.Sched.Commands
import WhitexKernel.Sched.Echo
import WhitexKernel.Sched.Ipc

/-!
# Messages — from `msgsend` to `msgrecv` (`sys_tools.h`)

`cmd_msgsend` sends the text of its argument line with its terminating zero; `cmd_msgrecv` receives
at most 127 bytes into a buffer of 128 and prints it as a string.  It prints the text that was sent
when the zero has come along, and the PID was short enough to be read as a whole (`roundTrip_iff`).
-/

namespace WhitexKernel
namespace Sched

open Lib Machine

/-! ## The receiving command -/

/-- The first loop of `scheduler_integer_to_string`; a number has no more digits than its value. -/
def digitCount : Nat → Nat → Nat
  | 0, _ => 0
  | fuel + 1, temporary => if temporary > 0 then digitCount fuel (temporary / 10) + 1 else 0

/-- The second loop, in front of the digits that are there. -/
def fillDigits : Nat → Nat → List Char → List Char
  | 0, _, buffer => buffer
  | length + 1, value, buffer =>
      fillDigits length (value / 10) (Char.ofNat (value % 10 + '0'.toNat) :: buffer)

def schedulerIntegerToString (value : Nat) : List Char :=
  if value = 0 then ['0'] else fillDigits (digitCount value value) value []

/-- `print` of a string at offset `i` of a buffer, with `room` bytes left in it; `none` when the
string does not end there. -/
def printBuffer (buffer : Nat → UInt8) : Nat → Nat → Option (List Char)
  | 0, _ => none
  | room + 1, i =>
      if buffer i = 0 then some []
      else (printBuffer buffer room (i + 1)).map fun text => Char.ofNat (buffer i).toNat :: text

/-- What has become of the command. -/
inductive MsgrecvOutcome
  /-- It waits for a message. -/
  | waiting
  | printed (text : List Char)
  /-- It reads beyond its buffer. -/
  | overrun
  deriving DecidableEq, Repr

/-- What is printed for a message. -/
def receivedText (senderId : Nat) (text : List Char) : List Char :=
  "Waiting for message...\nSender PID: ".toList ++ schedulerIntegerToString senderId ++
    "\nMessage: ".toList ++ text ++ ['\n']

/-- A round of `cmd_msgrecv`, with `buffer` for what its stack buffer holds before. -/
def cmdMsgrecv (s : SchedulerState) (buffer : Nat → UInt8) : SchedulerState × MsgrecvOutcome :=
  match schedulerIpcReceive s 127 with
  | (s, none) => (s, .waiting)
  | (s, some receipt) =>
      if receipt.bytes.length > 0 then
        match printBuffer (takeInto buffer receipt) schedIpcMsgSize 0 with
        | none => (s, .overrun)
        | some text => (s, .printed (receivedText receipt.senderId text))
      else
        (s, .printed
          "Waiting for message...\nError: Message could not be received.\n".toList)

/-! ## Argument lines -/

/-- A string in memory: no byte of it is zero. -/
structure CString where
  chars : List Char
  byte : ∀ c ∈ chars, 0 < c.toNat ∧ c.toNat < 256

namespace CString

/-- The PID, up to the first blank. -/
def target (args : CString) : List Char := args.chars.takeWhile (· ≠ ' ')

/-- The text after the PID and one blank. -/
def message (args : CString) : List Char := (args.chars.dropWhile (· ≠ ' ')).drop 1

theorem chars_eq (args : CString) :
    args.chars = args.target ++ args.chars.dropWhile (· ≠ ' ') :=
  List.takeWhile_append_dropWhile.symm

/-- The command takes at most 15 characters for the PID; the text is what it should be exactly when
these are enough. -/
theorem splitTarget_iff (args : CString) :
    (splitTarget args.chars).2 = args.message ↔ args.target.length ≤ 15 := by
  have hpid : (args.chars.take 15).takeWhile (fun c => decide (c ≠ ' ')) = args.target.take 15 :=
    List.take_takeWhile.symm
  have hblank : ∀ c ∈ args.target, c ≠ ' ' := fun c hc => by
    simpa using List.mem_takeWhile_imp hc
  unfold splitTarget
  simp only [hpid]
  by_cases hshort : args.target.length ≤ 15
  · -- the rest is empty, or begins with the blank
    refine iff_of_true ?_ hshort
    have hrest : args.chars.drop (args.target.take 15).length = args.chars.dropWhile (· ≠ ' ') := by
      rw [List.take_of_length_le hshort]
      conv_lhs => rw [chars_eq args]
      exact List.drop_left
    rw [hrest]
    split
    case isTrue => rfl
    case isFalse hhead =>
      unfold message
      have hfirst := List.head?_dropWhile_not (fun c => decide (c ≠ ' ')) args.chars
      cases hdrop : args.chars.dropWhile (fun c => decide (c ≠ ' ')) with
      | nil => rfl
      | cons c rest =>
          rw [hdrop] at hfirst hhead
          have hc : c = ' ' := by simpa using hfirst
          exact absurd (congrArg some hc) hhead
  · -- the rest begins inside the PID
    refine iff_of_false (fun hsame => ?_) hshort
    have hrest : args.chars.drop (args.target.take 15).length =
        args.target.drop 15 ++ args.chars.dropWhile (· ≠ ' ') := by
      rw [List.length_take, Nat.min_eq_left (by omega)]
      conv_lhs => rw [chars_eq args]
      exact List.drop_append_of_le_length (by omega)
    have hlonger : args.message.length < (args.chars.drop (args.target.take 15).length).length := by
      rw [hrest, List.length_append, List.length_drop, message, List.length_drop]
      omega
    have hhead : ¬ (args.chars.drop (args.target.take 15).length).head? = some ' ' := by
      rw [hrest, List.head?_append]
      intro hblank'
      cases hdrop : args.target.drop 15 with
      | nil =>
          have hlength := congrArg List.length hdrop
          rw [List.length_drop, List.length_nil] at hlength
          omega
      | cons c rest =>
          rw [hdrop] at hblank'
          have hmem : c ∈ args.target :=
            List.mem_of_mem_drop (i := 15) (hdrop ▸ List.mem_cons_self)
          exact hblank c hmem (by simpa using hblank')
    rw [if_neg hhead] at hsame
    rw [hsame] at hlonger
    exact Nat.lt_irrefl _ hlonger

end CString

/-! ## What is printed -/

theorem stringByte_length (text : List Char) : stringByte text text.length = 0 := by
  simp [stringByte]

theorem stringByte_ne_zero {text : List Char} (hbyte : ∀ c ∈ text, 0 < c.toNat ∧ c.toNat < 256)
    {i : Nat} (hi : i < text.length) : stringByte text i ≠ 0 := by
  obtain ⟨hpos, hlt⟩ := hbyte text[i] (List.getElem_mem hi)
  unfold stringByte
  rw [List.getElem?_eq_getElem hi]
  intro hzero
  have hnat := congrArg UInt8.toNat hzero
  simp at hnat
  omega

/-- A string whose terminating zero is inside the buffer is printed as it is. -/
theorem printBuffer_string {buffer : Nat → UInt8} {text : List Char}
    (hbyte : ∀ c ∈ text, 0 < c.toNat ∧ c.toNat < 256) {room i : Nat} (hroom : text.length < room)
    (hstored : ∀ k ≤ text.length, buffer (i + k) = stringByte text k) :
    printBuffer buffer room i = some text := by
  induction text generalizing room i with
  | nil =>
      obtain ⟨room, rfl⟩ : ∃ n, room = n + 1 := ⟨room - 1, by omega⟩
      have hzero : buffer i = 0 := hstored 0 (Nat.le_refl 0)
      rw [printBuffer, if_pos hzero]
  | cons c text ih =>
      obtain ⟨room, rfl⟩ : ∃ n, room = n + 1 := ⟨room - 1, by omega⟩
      have hfirst : buffer i = c.toNat.toUInt8 := hstored 0 (Nat.zero_le _)
      -- no character of the text is a zero, so the printing does not stop in it
      have hnonzero : buffer i ≠ 0 := by
        have hne := stringByte_ne_zero hbyte (i := 0) (Nat.zero_lt_succ _)
        rw [← hstored 0 (Nat.zero_le _)] at hne
        exact hne
      have hrest : printBuffer buffer room (i + 1) = some text := by
        refine ih (fun c hc => hbyte c (List.mem_cons_of_mem _ hc)) (Nat.lt_of_succ_lt_succ hroom) ?_
        intro k hk
        rw [Nat.add_assoc, Nat.add_comm 1 k]
        exact hstored (k + 1) (Nat.succ_le_succ hk)
      have hchar : Char.ofNat (buffer i).toNat = c := by
        have hlt := (hbyte c List.mem_cons_self).2
        rw [hfirst]
        simp [Nat.mod_eq_of_lt hlt]
      rw [printBuffer, if_neg hnonzero, hrest, Option.map_some, hchar]

theorem printBuffer_overrun {buffer : Nat → UInt8} {room i : Nat}
    (h : ∀ k < room, buffer (i + k) ≠ 0) : printBuffer buffer room i = none := by
  induction room generalizing i with
  | zero => rfl
  | succ room ih =>
      have hrest : printBuffer buffer room (i + 1) = none := by
        refine ih fun k hk => ?_
        rw [Nat.add_assoc, Nat.add_comm 1 k]
        exact h (k + 1) (Nat.succ_lt_succ hk)
      have hfirst : buffer i ≠ 0 := h 0 (Nat.zero_lt_succ _)
      rw [printBuffer, if_neg hfirst, hrest, Option.map_none]

/-! ## From the sender to the receiver -/

/-- An empty channel. -/
structure IpcChannel.Empty (channel : IpcChannel) : Prop where
  wellFormed : channel.WellFormed
  count : channel.count = 0

/-- What a successful `msgsend` has done. -/
theorem cmdMsgsend_sent {s : SchedulerState} {args : List Char}
    (h : (cmdMsgsend s args).2 = "Message sent successfully.\n") :
    ∃ i, s.findLive (parseInteger (splitTarget args).1) = some i ∧
      (splitTarget args).2.length ≤ 127 ∧
      (cmdMsgsend s args).1 = s.modifyPcb i (deliverMessage
        (fillMessage (stringByte (splitTarget args).2) s.current.taskId
          ((splitTarget args).2.length + 1) 1)) := by
  -- every other branch answers with another line
  have husage : "Usage: msgsend <target_pid> <message>\n" ≠ "Message sent successfully.\n" := by decide
  have herror : "Error: Message could not be sent.\n" ≠ "Message sent successfully.\n" := by decide
  unfold cmdMsgsend at h ⊢
  split at h
  case isTrue => exact absurd h husage
  case isFalse hargs =>
    rw [if_neg hargs]
    simp only at h ⊢
    unfold schedulerIpcSend at h ⊢
    by_cases hlength : (splitTarget args).2.length + 1 > schedIpcMsgSize
    · rw [if_pos hlength] at h
      exact absurd h herror
    · rw [if_neg hlength] at h ⊢
      cases hfind : s.findLive (parseInteger (splitTarget args).1) with
      | none =>
          rw [hfind] at h
          exact absurd h herror
      | some i =>
          rw [hfind] at h
          simp only at h ⊢
          by_cases hfull : (s.processTable i).communicationChannel.count ≥ schedIpcMaxMessages
          · rw [if_pos hfull] at h
            exact absurd h herror
          · rw [if_neg hfull]
            unfold schedIpcMsgSize at hlength
            exact ⟨i, rfl, by omega, rfl⟩

/-- The message that a channel hands out, when it was put into the empty channel. -/
theorem IpcChannel.Empty.push_head {channel : IpcChannel} (h : channel.Empty)
    (fill : IpcMessage → IpcMessage) :
    (channel.push fill).count = 1 ∧
      (channel.push fill).queue (channel.push fill).head = fill (channel.queue channel.head) := by
  have hwrap : channel.head % schedIpcMaxMessages = channel.head :=
    Nat.mod_eq_of_lt h.wellFormed.head_lt
  have htail : channel.tail = channel.head := by
    have heq : channel.tail = (channel.head + channel.count) % schedIpcMaxMessages :=
      h.wellFormed.tail_eq
    rw [h.count, Nat.add_zero, hwrap] at heq
    exact heq
  unfold IpcChannel.push
  simp only
  rw [htail, h.count, Function.update_self]
  exact ⟨rfl, rfl⟩

/-- What the buffer of the receiver holds after the copy of a text with its terminating zero, as far
as it fits into 127 bytes. -/
theorem takeInto_text (text : List Char) (slot : IpcMessage) (senderId : Nat)
    (buffer : Nat → UInt8) (i : Nat) :
    takeInto buffer (takeMessage
        (fillMessage (stringByte text) senderId (text.length + 1) 1 slot) 127) i =
      if i < min 127 (text.length + 1) then stringByte text i else buffer i := by
  have hlength : (if text.length + 1 > 127 then 127 else text.length + 1) =
      min 127 (text.length + 1) := by
    split <;> omega
  unfold takeInto takeMessage fillMessage schedulerMemoryCopy
  simp only [List.length_map, List.length_range, hlength]
  by_cases hi : i < min 127 (text.length + 1)
  · have hstored : i < text.length + 1 := by omega
    rw [if_pos hi, if_pos hi, List.getD_eq_getElem?_getD, List.getElem?_map,
      List.getElem?_range hi, Option.map_some, Option.getD_some, if_pos hstored]
  · rw [if_neg hi, if_neg hi]

/-- The receiver prints the text that was sent, if its terminating zero has come along or is there
already; otherwise it reads on behind its buffer. -/
theorem cmdMsgrecv_sent {u : SchedulerState} {text : List Char} {slot : IpcMessage} {senderId : Nat}
    (hbyte : ∀ c ∈ text, 0 < c.toNat ∧ c.toNat < 256) (hlength : text.length ≤ 127)
    (hcount : u.current.communicationChannel.count = 1)
    (hhead : u.current.communicationChannel.queue u.current.communicationChannel.head =
      fillMessage (stringByte text) senderId (text.length + 1) 1 slot) (buffer : Nat → UInt8) :
    (cmdMsgrecv u buffer).2 =
      if text.length ≤ 126 ∨ buffer 127 = 0 then .printed (receivedText senderId text)
      else .overrun := by
  have hround : schedulerIpcReceive u 127 =
      (u.modifyPcb u.runningProcessIndex popMessage, some (takeMessage
        (fillMessage (stringByte text) senderId (text.length + 1) 1 slot) 127)) := by
    unfold schedulerIpcReceive
    simp only
    rw [if_neg (by omega), hhead]
  have hbuffer := takeInto_text text slot senderId buffer
  have hreceived : (takeMessage (fillMessage (stringByte text) senderId (text.length + 1) 1 slot)
      127).bytes.length > 0 := by
    unfold takeMessage fillMessage
    simp only [List.length_map, List.length_range]
    split <;> omega
  unfold cmdMsgrecv
  rw [hround]
  simp only [if_pos hreceived]
  by_cases hends : text.length ≤ 126 ∨ buffer 127 = 0
  · have hprinted : printBuffer (takeInto buffer (takeMessage
        (fillMessage (stringByte text) senderId (text.length + 1) 1 slot) 127))
        schedIpcMsgSize 0 = some text := by
      refine printBuffer_string hbyte (by unfold schedIpcMsgSize; omega) fun k hk => ?_
      rw [Nat.zero_add, hbuffer]
      split
      case isTrue => rfl
      case isFalse hbehind =>
        -- the zero of a text of 127 characters is the one that the buffer held before
        have hlast : k = 127 ∧ text.length = 127 := by omega
        rcases hends with hshort | hzero
        · omega
        · rw [hlast.1, hzero, ← hlast.2, stringByte_length]
    rw [hprinted, if_pos hends]
    rfl
  · obtain ⟨hlong, hstale⟩ := not_or.1 hends
    have hprinted : printBuffer (takeInto buffer (takeMessage
        (fillMessage (stringByte text) senderId (text.length + 1) 1 slot) 127))
        schedIpcMsgSize 0 = none := by
      refine printBuffer_overrun fun k hk => ?_
      unfold schedIpcMsgSize at hk
      rw [Nat.zero_add, hbuffer]
      split
      case isTrue hcopied => exact stringByte_ne_zero hbyte (by omega)
      case isFalse hbehind =>
        have hlast : k = 127 := by omega
        rw [hlast]
        exact hstale
    rw [hprinted, if_neg hends]

theorem CString.splitTarget_byte (args : CString) :
    ∀ c ∈ (splitTarget args.chars).2, 0 < c.toNat ∧ c.toNat < 256 := by
  intro c hc
  unfold splitTarget at hc
  simp only at hc
  split at hc
  · exact args.byte c (List.mem_of_mem_drop (List.mem_of_mem_drop hc))
  · exact args.byte c (List.mem_of_mem_drop hc)

/-- When a `msgsend` has succeeded on an empty queue, `msgrecv` in the destination prints the text
after the PID and one blank, and reads no more than its buffer, exactly when the PID has at most 15
characters and the text at most 126, or 127 with a zero left at the end of the buffer. -/
theorem roundTrip_iff (s u : SchedulerState) (args : CString)
    (hsent : (cmdMsgsend s args.chars).2 = "Message sent successfully.\n") (destination : Nat)
    (hdestination : s.findLive (parseInteger (splitTarget args.chars).1) = some destination)
    (hempty : (s.channel destination).Empty) (hrunning : u.runningProcessIndex = destination)
    (hkept : u.channel destination = (cmdMsgsend s args.chars).1.channel destination)
    (buffer : Nat → UInt8) :
    (cmdMsgrecv u buffer).2 = .printed (receivedText s.current.taskId args.message) ↔
      args.target.length ≤ 15 ∧ (args.message.length ≤ 126 ∨ buffer 127 = 0) := by
  obtain ⟨i, hfind, hlength, hstate⟩ := cmdMsgsend_sent hsent
  obtain rfl : destination = i := Option.some.inj (hdestination.symm.trans hfind)
  -- the channel of the destination holds the message, and nothing else
  have hchannel : u.current.communicationChannel = (s.channel destination).push
      (fillMessage (stringByte (splitTarget args.chars).2) s.current.taskId
        ((splitTarget args.chars).2.length + 1) 1) := by
    change (u.processTable u.runningProcessIndex).communicationChannel = _
    rw [hrunning]
    change u.channel destination = _
    rw [hkept, hstate]
    unfold SchedulerState.channel
    rw [SchedulerState.modifyPcb_processTable, if_pos rfl]
    rfl
  obtain ⟨hcount, hhead⟩ := hempty.push_head
    (fillMessage (stringByte (splitTarget args.chars).2) s.current.taskId
      ((splitTarget args.chars).2.length + 1) 1)
  rw [← hchannel] at hcount hhead
  have hprinted := cmdMsgrecv_sent args.splitTarget_byte hlength hcount hhead buffer
  rw [hprinted, ← args.splitTarget_iff]
  constructor
  · intro hsame
    split at hsame
    case isTrue hends =>
      have htext : receivedText s.current.taskId (splitTarget args.chars).2 =
          receivedText s.current.taskId args.message := MsgrecvOutcome.printed.inj hsame
      unfold receivedText at htext
      have hsplit := List.append_cancel_left (List.append_cancel_right htext)
      exact ⟨hsplit, hsplit ▸ hends⟩
    case isFalse => cases hsame
  · rintro ⟨hsplit, hends⟩
    rw [hsplit, if_pos hends]

/-- `101 `, and so many characters behind it. -/
def longLine (n : Nat) : CString :=
  { chars := ['1', '0', '1', ' '] ++ List.replicate n 'a'
    byte := by
      intro c hc
      rcases List.mem_append.1 hc with hpid | htext
      · simp only [List.mem_cons, List.not_mem_nil, or_false] at hpid
        rcases hpid with rfl | rfl | rfl | rfl <;> decide
      · rw [List.eq_of_mem_replicate htext]
        decide }

/-- The child runs, after the master has sent it a line. -/
def childAfter (args : CString) : SchedulerState :=
  { (cmdMsgsend masterAndChild.sched args.chars).1 with runningProcessIndex := 1 }

theorem child_empty : (masterAndChild.sched.channel 1).Empty :=
  ⟨IpcChannel.wellFormed_zero, rfl⟩

theorem roundTrip_iff_short :
    (cmdMsgrecv (childAfter (longLine 5)) fun _ => 1).2 =
        .printed (receivedText masterAndChild.sched.current.taskId (longLine 5).message) ↔
      (longLine 5).target.length ≤ 15 ∧ ((longLine 5).message.length ≤ 126 ∨ (1 : UInt8) = 0) :=
  roundTrip_iff masterAndChild.sched (childAfter (longLine 5)) (longLine 5) (by decide) 1 (by decide)
    child_empty rfl rfl fun _ => 1

set_option maxRecDepth 4096 in
/-- A text of 127 characters, over a buffer without zeros. -/
theorem roundTrip_false :
    ¬ ∀ (s u : SchedulerState) (args : CString),
      (cmdMsgsend s args.chars).2 = "Message sent successfully.\n" → ∀ destination,
        s.findLive (parseInteger (splitTarget args.chars).1) = some destination →
          (s.channel destination).Empty → u.runningProcessIndex = destination →
            u.channel destination = (cmdMsgsend s args.chars).1.channel destination →
              ∀ buffer, (cmdMsgrecv u buffer).2 =
                .printed (receivedText s.current.taskId args.message) := by
  intro h
  have hprinted := h masterAndChild.sched (childAfter (longLine 127)) (longLine 127) rfl 1
    rfl child_empty rfl rfl fun _ => 1
  have hoverrun : (cmdMsgrecv (childAfter (longLine 127)) fun _ => 1).2 = .overrun := rfl
  rw [hoverrun] at hprinted
  cases hprinted

end Sched
end WhitexKernel
