import WhitexKernel.Calc.Correct
import WhitexKernel.Lib.ReversePolish

/-!
# Reading — what the calculator makes of any text

The handler only checks how many entries its stacks have.  What it does with a text is therefore
decided by the reverse Polish word of the text's tokens: it prints a value whenever this is the word
of an expression with a value, whether or not the text is an expression itself, and it stops the
processor when it comes upon a division of `INT_MIN` by `-1`.

* `tokens`, `polishWord` — a text as tokens, and as a word in reverse Polish notation;
* `cmdCalcHandler_cases` — the handler evaluates that word;
* `rejected_iff` — which texts get an error line;
* `faultFree_iff` — which texts do not stop the processor.
-/

namespace WhitexKernel
namespace Calc

open Lib.ShuntingYard

/-! ## Tokens -/

/-- The tokens of a text; its first `skip` characters are digits that have been read already. -/
def tokensFrom : List Char → Nat → List (Token Word Char)
  | [], _ => []
  | _ :: rest, skip + 1 => tokensFrom rest skip
  | c :: rest, 0 =>
      if c = ' ' then tokensFrom rest 0
      else if c = '(' then .lpar :: tokensFrom rest 0
      else if c.isDigit then
        let digits := (c :: rest).takeWhile Char.isDigit
        .num (readDigits digits) :: tokensFrom rest (digits.length - 1)
      else if c = ')' then .rpar :: tokensFrom rest 0
      else .op c :: tokensFrom rest 0

def tokens (text : List Char) : List (Token Word Char) := tokensFrom text 0

/-- The numbers of the text in their order, and each operator behind its operands: where a later
operator that binds no tighter, a closing parenthesis or the end of the text comes.  Any other
character is an operator that binds least of all, and so is a parenthesis that is not closed. -/
def polishWord (text : List Char) : List (Item Word Char) :=
  polish calcOperators stackSize (tokens text) []

/-- The loop over the string follows the machine on its tokens. -/
theorem follows_readLoop (text : List Char) (skip : Nat) {st : CalcState} {ls : Stacks Word Char}
    (h : Sim st ls) :
    Follows (readLoop text skip st) (run calcOperators stackSize (tokensFrom text skip) ls) := by
  -- one character at a time; those of a number already read are only passed over
  induction text generalizing skip st ls with
  | nil => exact h.follows
  | cons c rest ih =>
      cases skip with
      | succ skip => exact ih skip h
      | zero =>
          simp only [readLoop, tokensFrom]
          split
          case isTrue => exact ih 0 h
          case isFalse =>
            split
            case isTrue hparen =>
              subst hparen
              exact (follows_pushOp h '(').bind fun _ _ hsim => ih 0 hsim
            case isFalse =>
              split
              case isTrue => exact (follows_pushValue h _).bind fun _ _ hsim => ih _ hsim
              case isFalse =>
                split
                case isTrue => exact (follows_closeParen h).bind fun _ _ hsim => ih 0 hsim
                case isFalse => exact (follows_readOperator h c).bind fun _ _ hsim => ih 0 hsim

/-! ## The handler -/

/-- The lines the handler prints when it has no value. -/
def errorLines : List String :=
  [usage, stackOverflow, invalidSyntax, invalidExpression, panicTexts.division, panicTexts.modulo,
    endTexts.division, endTexts.modulo]

/-- A usage or error line, and nothing else, is printed. -/
def Rejected (outcome : Outcome) : Prop := ∃ line ∈ errorLines, outcome = .printed line

/-- The handler evaluates the word of its text: it prints a single value, and rejects everything
else, unless it stops the processor. -/
theorem cmdCalcHandler_cases (staleValues : Nat → Word) (staleOps : Nat → Char)
    (text : List Char) :
    match evaluate calcOperators stackSize (polishWord text) [] with
    | .ok [v] =>
        cmdCalcHandler staleValues staleOps text = .printed (String.ofList (itoa2 v) ++ "\n")
    | .ok _ => Rejected (cmdCalcHandler staleValues staleOps text)
    | .error stop => Reports (cmdCalcHandler staleValues staleOps text) stop := by
  have hstart : Sim { values := .empty staleValues, ops := .empty staleOps }
      { vals := [], ops := [] } := ⟨.empty _, .empty _⟩
  -- at the end of the line the operators that are left are applied
  have hfollows : Follows
      (readLoop text 0 { values := .empty staleValues, ops := .empty staleOps } >>=
        reduceWhile endTexts fun _ => true)
      ((evaluate calcOperators stackSize (polishWord text) []).map fun vals =>
        { vals := vals, ops := [] }) := by
    unfold polishWord
    rw [← drain_run_eq]
    exact (follows_readLoop text 0 hstart).bind fun _ _ hsim => follows_reduceWhile (.inr rfl) _ hsim
  by_cases hempty : text = []
  · subst hempty
    exact ⟨usage, by simp [errorLines], rfl⟩
  · unfold cmdCalcHandler
    simp only [hempty, if_false]
    cases hword : evaluate calcOperators stackSize (polishWord text) [] with
    | error stop =>
        rw [hword] at hfollows
        rcases hfollows with ⟨outcome, hout, hreports⟩
        simp only [← bind_assoc, hout]
        exact hreports
    | ok vals =>
        rw [hword] at hfollows
        rcases hfollows with ⟨st, hst, hsim⟩
        simp only [← bind_assoc, hst]
        match vals, hsim with
        | [v], hsim => simp only [bind, Except.bind, printResult_of_sim hsim]
        | [], hsim =>
            have htop : st.values.top = -1 := hsim.values
            refine ⟨invalidExpression, by simp [errorLines], ?_⟩
            simp [bind, Except.bind, printResult, htop]
        | v₂ :: v₁ :: rest, hsim =>
            have htop : st.values.top = (v₁ :: rest).length := hsim.values.1
            refine ⟨invalidExpression, by simp [errorLines], ?_⟩
            have hmany : ¬ st.values.top = 0 := by
              rw [htop, List.length_cons]
              omega
            simp [bind, Except.bind, printResult, hmany]

/-! ## Divisions that fault -/

/-- Every other operator has a value. -/
theorem applyOp_value (a b : Word) {op : Char} (hdiv : op ≠ '/') (hmod : op ≠ '%') :
    ∃ v, applyOp a b op = .ok v := by
  unfold applyOp
  rw [if_neg hdiv, if_neg hmod]
  repeat' split
  all_goals exact ⟨_, rfl⟩

/-- `apply_op` divides when the divisor is not zero, and the division faults for just one pair. -/
theorem applyOp_divideError_iff (a b : Word) (op : Char) :
    applyOp a b op = .error .divideError ↔ (op = '/' ∨ op = '%') ∧ a = intMin ∧ b = -1 := by
  have hdivide : ∀ quotient : Word → Word → Word,
      divide quotient a b = .error .divideError ↔ a = intMin ∧ b = -1 := by
    intro quotient
    unfold divide
    split <;> simp_all
  -- the two branches that divide test for zero first
  have hguard : ∀ (e : ArithError), e ≠ .divideError → ∀ quotient : Word → Word → Word,
      (if b = 0 then .error e else divide quotient a b) = .error .divideError ↔
        a = intMin ∧ b = -1 := by
    intro e he quotient
    split
    case isTrue hzero => simp [hzero, he]
    case isFalse => exact hdivide quotient
  by_cases hdiv : op = '/'
  · subst hdiv
    rw [and_iff_right (.inl rfl)]
    exact hguard .division (by decide) BitVec.sdiv
  by_cases hmod : op = '%'
  · subst hmod
    rw [and_iff_right (.inr rfl)]
    exact hguard .modulo (by decide) BitVec.srem
  · rcases applyOp_value a b hdiv hmod with ⟨v, hv⟩
    rw [hv]
    exact iff_of_false (by rintro ⟨⟩) fun h => h.1.elim hdiv hmod

/-- A division or remainder is reached whose operands are worth `INT_MIN` and `-1`: the text begins
with expressions of which these are the last two, and this operator is the next one to be applied. -/
def ReachesOverflow (text : List Char) : Prop :=
  ∃ (before rest : List (Item Word Char)) (op : Char) (vals : List Word),
    polishWord text = before ++ .operator op :: rest ∧ (op = '/' ∨ op = '%') ∧
      Stacked calcOperators stackSize before (-1 :: intMin :: vals)

theorem reachesOverflow_iff (text : List Char) :
    ReachesOverflow text ↔
      evaluate calcOperators stackSize (polishWord text) [] = .error (.apply .divideError) := by
  rw [evaluate_eq_apply_iff]
  constructor
  · rintro ⟨before, rest, op, vals, hword, hop, hstacked⟩
    exact ⟨before, op, rest, intMin, -1, vals, hword, hstacked,
      (applyOp_divideError_iff _ _ _).2 ⟨hop, rfl, rfl⟩⟩
  · rintro ⟨before, op, rest, a, b, vals, hword, hstacked, happly⟩
    rcases (applyOp_divideError_iff a b op).1 happly with ⟨hop, rfl, rfl⟩
    exact ⟨before, rest, op, vals, hword, hop, hstacked⟩

/-- The handler stops the processor for no other reason. -/
theorem reports_divideError_iff {outcome : Outcome} {stop : Stop ArithError}
    (h : Reports outcome stop) : outcome = .divideError ↔ stop = .apply .divideError := by
  cases stop with
  | overflow =>
      cases h
      simp
  | malformed =>
      cases h
      simp
  | apply e =>
      rcases h with rfl | rfl
      all_goals cases e <;> simp [ZeroTexts.outcome]

/-- For every text, the handler never executes a faulting division exactly when none of `INT_MIN` by
`-1` is reached. -/
theorem faultFree_iff (staleValues : Nat → Word) (staleOps : Nat → Char) (text : List Char) :
    cmdCalcHandler staleValues staleOps text ≠ .divideError ↔ ¬ ReachesOverflow text := by
  have hout := cmdCalcHandler_cases staleValues staleOps text
  rw [reachesOverflow_iff, Ne, not_iff_not]
  cases hword : evaluate calcOperators stackSize (polishWord text) [] with
  | error stop =>
      rw [hword] at hout
      rw [reports_divideError_iff hout, Except.error.injEq]
  | ok vals =>
      rw [hword] at hout
      refine iff_of_false (fun htrap => ?_) (by simp)
      match vals, hout with
      | [], ⟨_, _, h⟩ => cases htrap.symm.trans h
      | [_], h => cases htrap.symm.trans h
      | _ :: _ :: _, ⟨_, _, h⟩ => cases htrap.symm.trans h

/-- `2147483648/(0-1)` stops the processor. -/
theorem faultFree_false :
    ¬ ∀ (staleValues : Nat → Word) (staleOps : Nat → Char) (text : List Char),
      cmdCalcHandler staleValues staleOps text ≠ .divideError := by
  intro h
  have htrap : cmdCalcHandler (fun _ => 0) (fun _ => ' ')
      ['2', '1', '4', '7', '4', '8', '3', '6', '4', '8', '/', '(', '0', '-', '1', ')'] =
        .divideError := by
    decide
  exact h _ _ _ htrap

/-! ## Texts that are rejected -/

/-- The text is an infix expression over the nine operators, with spaces between its tokens. -/
def WellFormed (text : List Char) : Prop :=
  ∃ (r : Rendering) (spaces : Nat), text = r.text ++ blanks spaces

/-- The word of the text is that of one expression, which has a value and for whose operands there is
room. -/
def ReadsValue (text : List Char) : Prop :=
  ∃ (t : Tree Word Char) (v : Word), polishWord text = t.word ∧ t.fold calcOperators = .ok v ∧
    t.operands ≤ stackSize

theorem readsValue_iff (text : List Char) :
    ReadsValue text ↔ ∃ v, evaluate calcOperators stackSize (polishWord text) [] = .ok [v] := by
  constructor
  · rintro ⟨t, v, hword, hv, hroom⟩
    refine ⟨v, ?_⟩
    rw [hword]
    exact evaluate_word t hv (by simpa using hroom)
  · rintro ⟨v, hv⟩
    rcases stacked_singleton.1 (evaluate_eq_ok_iff.1 hv) with ⟨t, hword, hfold, hroom⟩
    exact ⟨t, v, hword, hfold, hroom⟩

theorem itoaLoop_length (fuel : Nat) (num : Word) : (itoaLoop fuel num).length ≤ fuel := by
  induction fuel generalizing num with
  | zero => exact Nat.le_refl 0
  | succ fuel ih =>
      unfold itoaLoop
      split
      · exact Nat.zero_le _
      · rw [List.length_cons]
        exact Nat.succ_le_succ (ih _)

/-- The decimal of an `int` has at most eleven characters. -/
theorem itoa2_length (num : Word) : (itoa2 num).length ≤ 11 := by
  unfold itoa2
  split
  · decide
  · have hdigits := itoaLoop_length 10 (if num.slt 0 = true then -num else num)
    have hsign : (if num.slt 0 = true then ['-'] else []).length ≤ 1 := by
      split
      · exact Nat.le_refl 1
      · exact Nat.zero_le 1
    simp only [List.length_reverse, List.length_append]
    omega

/-- No value reads like one of the error lines, which are longer. -/
theorem not_rejected_value (v : Word) :
    ¬ Rejected (.printed (String.ofList (itoa2 v) ++ "\n")) := by
  rintro ⟨line, hline, hprinted⟩
  have hlong : ∀ line ∈ errorLines, 12 < line.toList.length := by decide +kernel
  have hvalue : line.toList = itoa2 v ++ ['\n'] := by
    rw [← Outcome.printed.inj hprinted]
    simp
  have hlength := hlong line hline
  have hshort := itoa2_length v
  rw [hvalue, List.length_append, List.length_singleton] at hlength
  omega

/-- What stops the machine is reported by an error line, or by the processor. -/
theorem rejected_of_reports {outcome : Outcome} {stop : Stop ArithError}
    (h : Reports outcome stop) : Rejected outcome ↔ stop ≠ .apply .divideError := by
  cases stop with
  | overflow => exact iff_of_true ⟨stackOverflow, by simp [errorLines], h⟩ (by simp)
  | malformed => exact iff_of_true ⟨invalidSyntax, by simp [errorLines], h⟩ (by simp)
  | apply e =>
      cases e with
      | division =>
          refine iff_of_true ?_ (by simp)
          -- the loop and the end of the line have different texts for it
          rcases h with rfl | rfl
          · exact ⟨panicTexts.division, by simp [errorLines], rfl⟩
          · exact ⟨endTexts.division, by simp [errorLines], rfl⟩
      | modulo =>
          refine iff_of_true ?_ (by simp)
          rcases h with rfl | rfl
          · exact ⟨panicTexts.modulo, by simp [errorLines], rfl⟩
          · exact ⟨endTexts.modulo, by simp [errorLines], rfl⟩
      | divideError =>
          -- `INT_MIN` divided by `-1` stops the processor before a line is printed
          refine iff_of_false ?_ (by simp)
          rintro ⟨line, _, hline⟩
          rcases h with rfl | rfl
          · cases hline
          · cases hline

/-- A text that is no expression is rejected exactly when its word is not the word of an expression
with a value, and no division of `INT_MIN` by `-1` is reached. -/
theorem rejected_iff (staleValues : Nat → Word) (staleOps : Nat → Char) (text : List Char) :
    (¬ WellFormed text → Rejected (cmdCalcHandler staleValues staleOps text)) ↔
      WellFormed text ∨ (¬ ReadsValue text ∧ ¬ ReachesOverflow text) := by
  have hout := cmdCalcHandler_cases staleValues staleOps text
  -- whether a line is rejected depends on what the machine leaves, not on the text being formed
  have hrejected : Rejected (cmdCalcHandler staleValues staleOps text) ↔
      ¬ ReadsValue text ∧ ¬ ReachesOverflow text := by
    rw [readsValue_iff, reachesOverflow_iff]
    cases hword : evaluate calcOperators stackSize (polishWord text) [] with
    | error stop =>
        rw [hword] at hout
        rw [rejected_of_reports hout]
        simp
    | ok vals =>
        rw [hword] at hout
        match vals, hout with
        -- one value is left: it is printed, and no error line has the shape of a number
        | [v], hout =>
            rw [hout]
            exact iff_of_false (not_rejected_value v) fun h => h.1 ⟨v, rfl⟩
        | [], hout => exact iff_of_true hout (by simp)
        | _ :: _ :: _, hout => exact iff_of_true hout (by simp)
  rw [hrejected]
  by_cases hwell : WellFormed text
  · simp [hwell]
  · simp [hwell]

/-- `1 2 +` reads like `1+2`. -/
example : ReadsValue ['1', ' ', '2', ' ', '+'] :=
  ⟨.bin '+' (.lit 1) (.lit 2), 3, rfl, rfl, by decide⟩

/-- An expression closes as many parentheses as it opens. -/
theorem count_parens (r : Rendering) : r.text.count '(' = r.text.count ')' := by
  have hblanks : ∀ (c : Char) (n : Nat), c ≠ ' ' → (blanks n).count c = 0 := by
    intro c n hc
    exact List.count_eq_zero.2 fun hmem => hc (List.eq_of_mem_replicate hmem)
  induction r with
  | lit spaces first rest =>
      have hnone : ∀ c : Char, c.isDigit = false → (digitChars (first :: rest)).count c = 0 := by
        intro c hc
        refine List.count_eq_zero.2 fun hmem => ?_
        rw [isDigit_of_mem_digitChars hmem] at hc
        cases hc
      simp [Rendering.text, List.count_append, hblanks, hnone]
  | paren spaces inner spaces' ih =>
      simp [Rendering.text, List.count_append, hblanks, ih]
  | bin l spaces op r ihl ihr =>
      have hop : op.symbol ≠ '(' ∧ op.symbol ≠ ')' := by cases op <;> decide
      simp [Rendering.text, List.count_append, hblanks, hop, ihl, ihr]

/-- The value of `1)` is printed. -/
theorem rejected_false :
    ¬ ∀ (staleValues : Nat → Word) (staleOps : Nat → Char) (text : List Char),
      ¬ WellFormed text → Rejected (cmdCalcHandler staleValues staleOps text) := by
  intro h
  have hmalformed : ¬ WellFormed ['1', ')'] := by
    rintro ⟨r, spaces, htext⟩
    have hcount := count_parens r
    have hopen := congrArg (List.count '(') htext
    have hclose := congrArg (List.count ')') htext
    have hblanks : ∀ c : Char, c ≠ ' ' → (blanks spaces).count c = 0 := fun c hc =>
      List.count_eq_zero.2 fun hmem => hc (List.eq_of_mem_replicate hmem)
    simp only [List.count_append, hblanks '(' (by decide), hblanks ')' (by decide)] at hopen hclose
    simp at hopen hclose
    omega
  have hprinted : cmdCalcHandler (fun _ => 0) (fun _ => ' ') ['1', ')'] = .printed "1\n" := by
    decide
  rcases h (fun _ => 0) (fun _ => ' ') ['1', ')'] hmalformed with ⟨line, hline, hout⟩
  have hone : "1\n" ∉ errorLines := by decide
  cases hprinted.symm.trans hout
  exact hone hline

end Calc
end WhitexKernel
