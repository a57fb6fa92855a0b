import WhitexKernel.Shell.Dispatch

/-!
# CommandLine — what a typed line is split into

A line of the shell is a command, spaces and a text.  It passes `sys_sanitize_string` and then
`sys_parse_input`, which hands the command and a text on to `sys_execute_vector`: the text typed, up
to its first cut character and as far as `extracted_args` has room (`commandLine_kept`).
-/

namespace WhitexKernel
namespace Shell

open Lib Machine

/-! ## Lines -/

/-- A typed line that starts with a registered command. -/
structure CommandLine where
  command : List Char
  spaces : Nat
  text : List Char
  known : Known command
  /-- Something separates the command from what follows it. -/
  separated : spaces = 0 → text = []
  text_start : text.head? ≠ some ' '
  length_le : (command ++ List.replicate spaces ' ' ++ text).length ≤ 254
  typable : OnKeys text

namespace CommandLine

/-- The line as it is typed. -/
def raw (line : CommandLine) : List Char :=
  line.command ++ List.replicate line.spaces ' ' ++ line.text

/-- The line as `sys_parse_input` gets it. -/
def sanitized (line : CommandLine) : List Char := sysSanitizeString line.raw sysMaxBuffer

/-- The part of the text that goes on. -/
def kept (line : CommandLine) : List Char :=
  (line.text.takeWhile (· ∉ cutCharacters)).take (sysArgMax - 1)

end CommandLine

/-- `sys_parse_input` splits `rawBuffer` into `command` and `text` and calls the dispatcher with
them. -/
structure PassesOn (rawBuffer command text : List Char) : Prop where
  extracted : extractCommand rawBuffer = (command, text)
  executed : ∀ s, sysParseInput rawBuffer s = sysVerifyIntegrity s >>= sysExecuteVector command text

/-! ## Commands -/

theorem signature_word : ∀ entry ∈ dispatchTable,
    (entry.signature.toList.all fun c => c ≠ ' ' ∧ c ∉ cutCharacters) = true := by
  decide

namespace Known

variable {cmdName : List Char}

theorem ne_nil (h : Known cmdName) : cmdName ≠ [] := by
  rcases h with ⟨entry, hentry, rfl⟩
  exact signature_ne_empty entry hentry

theorem length_lt (h : Known cmdName) : cmdName.length < sysCmdMax := by
  rcases h with ⟨entry, hentry, rfl⟩
  exact signature_length entry hentry

theorem word (h : Known cmdName) : ∀ c ∈ cmdName, c ≠ ' ' ∧ c ∉ cutCharacters := by
  rcases h with ⟨entry, hentry, rfl⟩
  simpa using List.all_eq_true.1 (signature_word entry hentry)

end Known

/-! ## The two passes -/

namespace CommandLine

variable (line : CommandLine)

/-- Nothing is cut in front of the text. -/
theorem sanitized_eq : line.sanitized =
    line.command ++ (List.replicate line.spaces ' ' ++
      line.text.takeWhile (· ∉ cutCharacters)) := by
  have hlength : line.raw.length ≤ sysMaxBuffer := Nat.le_trans line.length_le (by decide)
  have hfront : ∀ c ∈ line.command ++ List.replicate line.spaces ' ',
      (decide (c ∉ cutCharacters)) = true := by
    intro c hc
    rcases List.mem_append.1 hc with hc | hc
    · exact decide_eq_true (line.known.word c hc).2
    · rw [List.eq_of_mem_replicate hc]
      decide
  calc line.sanitized
      = line.raw.takeWhile (· ∉ cutCharacters) := sysSanitizeString_eq hlength
    _ = line.command ++ List.replicate line.spaces ' ' ++
          line.text.takeWhile (· ∉ cutCharacters) := List.takeWhile_append_of_pos hfront
    _ = line.command ++ (List.replicate line.spaces ' ' ++
          line.text.takeWhile (· ∉ cutCharacters)) := List.append_assoc _ _ _

/-- What is left of the text does not start with a space either. -/
theorem takeWhile_start {p : Char → Bool} :
    ∀ c ∈ (line.text.takeWhile p).head?, decide (c = ' ') = false := by
  intro c hc
  have hstart := line.text_start
  cases htext : line.text with
  | nil => simp [htext] at hc
  | cons d rest =>
      have hd : d ≠ ' ' := by simpa [htext] using hstart
      rw [htext, List.takeWhile_cons] at hc
      split at hc
      · have hcd : d = c := by simpa using hc
        simpa [← hcd] using hd
      · simp at hc

theorem dropWhile_spaces (n : Nat) {rest : List Char}
    (hrest : ∀ c ∈ rest.head?, decide (c = ' ') = false) :
    (List.replicate n ' ' ++ rest).dropWhile (· = ' ') = rest := by
  induction n with
  | zero =>
      cases rest with
      | nil => rfl
      | cons c rest =>
          have hc : decide (c = ' ') = false := hrest c rfl
          simp [hc]
  | succ n ih => simpa [List.replicate_succ] using ih

/-- The command ends where the spaces start, or at the end of the line. -/
theorem command_end :
    ∀ c ∈ (List.replicate line.spaces ' ' ++ line.text.takeWhile (· ∉ cutCharacters)).head?,
      decide (c ≠ ' ') = false := by
  intro c hc
  cases hspaces : line.spaces with
  | zero => simp [hspaces, line.separated hspaces] at hc
  | succ n =>
      have hspace : ' ' = c := by simpa [hspaces, List.replicate_succ] using hc
      simp [← hspace]

theorem extractCommand_sanitized : extractCommand line.sanitized = (line.command, line.kept) := by
  have hcommand : copyWhile (· ≠ ' ') (sysCmdMax - 1) (line.command ++
      (List.replicate line.spaces ' ' ++ line.text.takeWhile (· ∉ cutCharacters))) =
        (line.command, List.replicate line.spaces ' ' ++
          line.text.takeWhile (· ∉ cutCharacters)) :=
    copyWhile_word (fun c hc => decide_eq_true (line.known.word c hc).1)
      (Nat.le_pred_of_lt line.known.length_lt) line.command_end
  unfold extractCommand
  rw [line.sanitized_eq, hcommand]
  dsimp only
  rw [dropWhile_spaces _ line.takeWhile_start, copyWhile_true]
  rfl

/-- The line is not one that `sys_parse_input` turns away. -/
theorem sanitized_start : ¬(line.sanitized = [] ∨ line.sanitized.head? = some ' ') := by
  rw [line.sanitized_eq]
  cases hcommand : line.command with
  | nil => exact absurd hcommand line.known.ne_nil
  | cons c command =>
      have hc : c ≠ ' ' := (line.known.word c (by simp [hcommand])).1
      simpa using hc

theorem passesOn_kept : PassesOn line.sanitized line.command line.kept := by
  refine ⟨line.extractCommand_sanitized, fun s => ?_⟩
  unfold sysParseInput
  refine bind_congr fun t => ?_
  rw [if_neg line.sanitized_start, line.extractCommand_sanitized]

/-- The whole text goes on exactly when nothing is cut from it and it has room. -/
theorem kept_eq_iff :
    line.kept = line.text ↔ Clean line.text ∧ line.text.length ≤ sysArgMax - 1 := by
  constructor
  · intro h
    have hlength : line.text.length =
        min (sysArgMax - 1) (line.text.takeWhile (· ∉ cutCharacters)).length := by
      conv_lhs => rw [← h]
      exact List.length_take
    have hwhole : line.text.takeWhile (· ∉ cutCharacters) = line.text :=
      (List.takeWhile_prefix _).eq_of_length_le (by omega)
    exact ⟨takeWhile_clean.1 hwhole, by omega⟩
  · rintro ⟨hclean, hroom⟩
    unfold kept
    rw [takeWhile_clean.2 hclean, List.take_of_length_le hroom]

end CommandLine

/-! ## What the dispatcher gets -/

/-- Every line is split into its command and the part of its text in front of the first cut
character, as far as there is room; this is the whole text exactly when it has no cut character and
at most 189 characters. -/
theorem commandLine_kept (line : CommandLine) :
    PassesOn line.sanitized line.command line.kept ∧
      (line.kept = line.text ↔ Clean line.text ∧ line.text.length ≤ sysArgMax - 1) :=
  ⟨line.passesOn_kept, line.kept_eq_iff⟩

/-- `echo a;b` -/
def separatedEcho : CommandLine :=
  { command := ['e', 'c', 'h', 'o']
    spaces := 1
    text := ['a', ';', 'b']
    known := by
      unfold Known
      decide +kernel
    separated := by decide
    text_start := by decide
    length_le := by decide
    typable := by decide +kernel }

theorem commandLine_lossless_false :
    ¬ ∀ line : CommandLine, PassesOn line.sanitized line.command line.text := by
  intro h
  have hwhole := (h separatedEcho).extracted.symm.trans separatedEcho.extractCommand_sanitized
  have htext : separatedEcho.text = separatedEcho.kept := congrArg Prod.snd hwhole
  exact absurd htext (by decide)

end Shell
end WhitexKernel
