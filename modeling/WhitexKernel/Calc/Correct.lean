import WhitexKernel.Calc.Decimal
import WhitexKernel.Calc.Rendering

/-!
# Correct — the calculator prints the value of what it is given

`CalcCorrect` says what a call on the text of a rendering should print: the decimal of the value, or
the error for what went wrong.  The handler does so unless `apply_op` is asked for `INT_MIN / -1` or
`INT_MIN % -1`, which it passes on to the processor.
-/

namespace WhitexKernel
namespace Calc

open Lib.ShuntingYard

/-- At most 40 operands, and at most 40 operators and open parentheses, are pending at once. -/
def Rendering.Fits (r : Rendering) : Prop := r.tree.Fits stackSize 0 0

/-- What a call on a rendering of an expression should do.  If the expression has a value and the
stacks suffice, its decimal is printed (a value of `INT_MIN` is left to `itoa2`); and the call ends
in this way, or with the error for a zero divisor it met, or for stacks that do not suffice. -/
structure CalcCorrect (r : Rendering) (outcome : Outcome) : Prop where
  value : ∀ v, r.expr.value = .ok v → r.Fits → v ≠ intMin →
    outcome = .printed (toString v.toInt ++ "\n")
  outcome :
    (∃ v, r.expr.value = .ok v ∧ r.Fits) ∨
    (r.expr.value = .error .division ∧
      (outcome = .printed panicTexts.division ∨ outcome = .printed endTexts.division)) ∨
    (r.expr.value = .error .modulo ∧
      (outcome = .printed panicTexts.modulo ∨ outcome = .printed endTexts.modulo)) ∨
    (¬ r.Fits ∧ outcome = .printed stackOverflow)

/-- What happens first when the rendering is evaluated from left to right on stacks of 40
entries. -/
def Rendering.result (r : Rendering) : Except (Stop ArithError) Word :=
  r.tree.eval calcOperators stackSize 0 0

theorem Rendering.text_ne_nil (r : Rendering) : r.text ≠ [] := by
  cases r <;> simp [Rendering.text, digitChars]

/-- A stack with one value is printed. -/
theorem printResult_of_sim {st : CalcState} {v : Word}
    (h : Sim st { vals := [v], ops := [] }) :
    printResult st = .ok (.printed (String.ofList (itoa2 v) ++ "\n")) := by
  have htop : st.values.top = 0 := h.values.1
  unfold printResult
  rw [if_pos htop, h.values.read_top]
  rfl

/-- The handler ends as the evaluation of the rendering does. -/
theorem cmdCalcHandler_text (r : Rendering) (hr : r.WellPlaced) (spaces : Nat)
    (staleValues : Nat → Word) (staleOps : Nat → Char) :
    match r.result with
    | .ok v => cmdCalcHandler staleValues staleOps (r.text ++ blanks spaces) =
        .printed (String.ofList (itoa2 v) ++ "\n")
    | .error stop => Reports (cmdCalcHandler staleValues staleOps (r.text ++ blanks spaces)) stop := by
  -- both machines start with empty stacks
  have hstart : Sim { values := .empty staleValues, ops := .empty staleOps }
      { vals := [], ops := [] } := ⟨.empty _, .empty _⟩
  have htail : EndsNumber (blanks spaces) := by
    intro c hc
    have hmem := List.mem_of_mem_head? hc
    rw [List.eq_of_mem_replicate hmem]
    decide
  have hne : r.text ++ blanks spaces ≠ [] := by
    simp [r.text_ne_nil]
  -- the text of the expression is read
  rcases follows_text r hstart htail with ⟨x, hx, hread⟩
  -- the spaces behind it change nothing
  have hend : ∀ st, readLoop (blanks spaces) 0 st = .ok st := by
    intro st
    have hblanks := readLoop_blanks spaces [] st
    rw [List.append_nil] at hblanks
    rw [hblanks]
    rfl
  have hreads : readLoop (r.text ++ blanks spaces) 0
      { values := .empty staleValues, ops := .empty staleOps } = x := by
    rw [hread]
    cases x with
    | error outcome => rfl
    | ok st => exact hend st
  -- at the end of the line the operators that are left are applied
  have hfollows : Follows (x >>= reduceWhile endTexts fun _ => true)
      (r.result.map fun v => { vals := [v], ops := [] }) := by
    have hdrain := @drain_run _ _ _ calcOperators stackSize _ r.tree hr
    unfold Rendering.result
    rw [← hdrain]
    exact hx.bind fun st ls hsim => follows_reduceWhile (.inr rfl) _ hsim
  unfold cmdCalcHandler
  simp only [hne, if_false, hreads]
  cases hresult : r.result with
  | ok v =>
      rw [hresult] at hfollows
      rcases hfollows with ⟨st, hst, hsim⟩
      cases x with
      | error outcome => cases hst
      | ok st₀ =>
          simp only [bind, Except.bind] at hst ⊢
          rw [hst]
          simp only [printResult_of_sim hsim]
  | error stop =>
      rw [hresult] at hfollows
      rcases hfollows with ⟨outcome, hout, hreports⟩
      cases x with
      | error outcome' =>
          cases hout
          exact hreports
      | ok st₀ =>
          simp only [bind, Except.bind] at hout ⊢
          rw [hout]
          exact hreports

/-- On stacks that suffice the evaluation is the fold, otherwise it overflows unless an operator
fails before. -/
theorem Rendering.result_cases (r : Rendering) :
    (r.Fits ∧ r.result = r.expr.value.mapError .apply) ∨
    (¬ r.Fits ∧ (r.result = .error .overflow ∨
      ∃ e, r.result = .error (.apply e) ∧ r.expr.value = .error e)) := by
  unfold Rendering.result
  rw [← r.fold_tree]
  by_cases hfits : r.Fits
  · exact .inl ⟨hfits, Tree.eval_of_fits r.tree hfits⟩
  · exact .inr ⟨hfits, Tree.eval_of_not_fits r.tree (Nat.zero_le _) hfits⟩

/-- For every rendering of an expression, spaces at its end included, the handler does what it should
exactly when the evaluation does not come to `INT_MIN / -1` or `INT_MIN % -1`. -/
theorem calcCorrect_iff (r : Rendering) (hr : r.WellPlaced) (spaces : Nat)
    (staleValues : Nat → Word) (staleOps : Nat → Char) :
    CalcCorrect r (cmdCalcHandler staleValues staleOps (r.text ++ blanks spaces)) ↔
      r.result ≠ .error (.apply .divideError) := by
  have hout := cmdCalcHandler_text r hr spaces staleValues staleOps
  generalize cmdCalcHandler staleValues staleOps (r.text ++ blanks spaces) = outcome at hout
  constructor
  -- the trap is none of the outcomes that are allowed
  · intro hcorrect htrap
    rw [htrap] at hout
    have hdivide : outcome = .divideError := by
      rcases hout with h | h <;> exact h
    rw [hdivide] at hcorrect
    rcases hcorrect.outcome with ⟨v, hv, hfits⟩ | ⟨_, h | h⟩ | ⟨_, h | h⟩ | ⟨_, h⟩
    · rcases r.result_cases with ⟨_, hresult⟩ | ⟨hnot, _⟩
      · rw [htrap, hv] at hresult
        cases hresult
      · exact hnot hfits
    all_goals cases h
  -- without the trap, by whether the expression fits the stacks
  · intro hsafe
    rcases r.result_cases with ⟨hfits, hresult⟩ | ⟨hnot, hover | ⟨e, herr, hvalue⟩⟩
    · cases hvalue : r.expr.value with
      | ok v =>
          rw [hvalue] at hresult
          rw [hresult] at hout
          refine ⟨fun v' hv' _ hne => ?_, .inl ⟨v, hvalue, hfits⟩⟩
          cases hvalue.symm.trans hv'
          rw [hout, itoa2_eq_toString hne]
      | error e =>
          rw [hvalue] at hresult
          rw [hresult] at hout
          refine ⟨fun v' hv' => ?_, ?_⟩
          · cases hvalue.symm.trans hv'
          · cases e with
            | division => exact .inr (.inl ⟨hvalue, hout⟩)
            | modulo => exact .inr (.inr (.inl ⟨hvalue, hout⟩))
            | divideError => exact absurd hresult hsafe
    · rw [hover] at hout
      exact ⟨fun _ _ hfits => absurd hfits hnot, .inr (.inr (.inr ⟨hnot, hout⟩))⟩
    · rw [herr] at hout
      refine ⟨fun _ _ hfits => absurd hfits hnot, ?_⟩
      cases e with
      | division => exact .inr (.inl ⟨hvalue, hout⟩)
      | modulo => exact .inr (.inr (.inl ⟨hvalue, hout⟩))
      | divideError => exact absurd herr hsafe

/-- `(15+72)*2`, with a space at its end. -/
theorem calcCorrect_product :
    CalcCorrect
      (.bin (.paren 0 (.bin (.lit 0 1 [5]) 0 .add (.lit 0 7 [2])) 0) 0 .mul (.lit 0 2 []))
      (cmdCalcHandler (fun _ => 0) (fun _ => ' ') "(15+72)*2 ".toList) :=
  (calcCorrect_iff
    (.bin (.paren 0 (.bin (.lit 0 1 [5]) 0 .add (.lit 0 7 [2])) 0) 0 .mul (.lit 0 2 []))
    (by decide) 1 (fun _ => 0) (fun _ => ' ')).2
    (show (Except.ok 174 : Except (Stop ArithError) Word) ≠ _ by simp)

/-- `2147483648/(0-1)+1` stops the processor. -/
theorem calcCorrect_false :
    ¬ ∀ (r : Rendering), r.WellPlaced → ∀ (spaces : Nat) (staleValues : Nat → Word)
      (staleOps : Nat → Char),
        CalcCorrect r (cmdCalcHandler staleValues staleOps (r.text ++ blanks spaces)) := by
  intro h
  let r : Rendering :=
    .bin
      (.bin (.lit 0 2 [1, 4, 7, 4, 8, 3, 6, 4, 8]) 0 .div
        (.paren 0 (.bin (.lit 0 0 []) 0 .sub (.lit 0 1 [])) 0))
      0 .add (.lit 0 1 [])
  have houtcome : cmdCalcHandler (fun _ => 0) (fun _ => ' ') (r.text ++ blanks 0) =
      .divideError := by
    decide
  have hvalue : r.expr.value = .error .divideError := rfl
  have hcorrect := (h r (by decide) 0 (fun _ => 0) (fun _ => ' ')).outcome
  rw [houtcome, hvalue] at hcorrect
  rcases hcorrect with ⟨v, hv, _⟩ | ⟨hv, _⟩ | ⟨hv, _⟩ | ⟨_, hprinted⟩
  · cases hv
  · cases hv
  · cases hv
  · cases hprinted

end Calc
end WhitexKernel
