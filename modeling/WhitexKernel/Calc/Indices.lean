import WhitexKernel.Calc.Reading
import WhitexKernel.Lib.Recorded

/-!
# Indices — where the calculator reads and writes its stacks

The handler once more, with a record: every index into `values` and `ops` when it is used, and every
value `val_top` and `ops_top` take.  Without the record it is the handler
(`ending_cmdCalcHandlerRecorded`).

* `inside_reduceWhileRecorded` — a reduction loop keeps both tops in range, and stops where its
  condition fails;
* `cmdCalcHandler_indices` — whatever the text is, no index leaves its array, and no top its range.
-/

namespace WhitexKernel
namespace Calc

open Lib Lib.Recorded

/-! ## The record -/

/-- One of the two arrays with its top. -/
inductive StackName
  | values
  | ops
  deriving DecidableEq, Repr

inductive Access
  /-- A read or a write of the entry at `index`. -/
  | entry (stack : StackName) (index : Int)
  /-- `val_top` or `ops_top` has been set. -/
  | top (stack : StackName) (value : Int)
  deriving DecidableEq, Repr

/-- The index of an entry is one of the array, and a top is at most one below it. -/
def Access.Inside : Access → Prop
  | .entry _ index => 0 ≤ index ∧ index ≤ 39
  | .top _ value => -1 ≤ value ∧ value ≤ 39

/-! ## The handler with its record -/

namespace Stack

variable {α : Type}

/-- `stack[i]` -/
def readRecorded (name : StackName) (s : Stack α) (i : Int) : Recorded Access Outcome α := do
  note (.entry name i)
  silent (s.read i)

/-- `stack[++top] = x` -/
def pushRecorded (name : StackName) (s : Stack α) (x : α) :
    Recorded Access Outcome (Stack α) := do
  note (.top name (s.top + 1))
  note (.entry name (s.top + 1))
  silent (s.push x)

/-- `stack[top--]` -/
def popRecorded (name : StackName) (s : Stack α) : Recorded Access Outcome (α × Stack α) := do
  note (.entry name s.top)
  note (.top name (s.top - 1))
  silent s.pop

end Stack

def reduceRecorded (texts : ZeroTexts) (st : CalcState) : Recorded Access Outcome CalcState :=
  if st.values.top < 1 then silent (.error (.printed invalidSyntax))
  else do
    let (val2, values) ← st.values.popRecorded .values
    let (val1, values) ← values.popRecorded .values
    let (op, ops) ← st.ops.popRecorded .ops
    match applyOp val1 val2 op with
    | .error e => silent (.error (texts.outcome e))
    | .ok res =>
        let values ← values.pushRecorded .values res
        return { values := values, ops := ops }

/-- The last of the three loops takes every operator; its condition does not read one, so there the
record has one access more than the source, to the entry that is popped next. -/
def reduceLoopRecorded (texts : ZeroTexts) (p : Char → Bool) :
    Nat → CalcState → Recorded Access Outcome CalcState
  | 0, st => pure st
  | rounds + 1, st =>
      if st.ops.top ≥ 0 then do
        let op ← st.ops.readRecorded .ops st.ops.top
        if p op then
          let st ← reduceRecorded texts st
          reduceLoopRecorded texts p rounds st
        else return st
      else pure st

def reduceWhileRecorded (texts : ZeroTexts) (p : Char → Bool) (st : CalcState) :
    Recorded Access Outcome CalcState :=
  reduceLoopRecorded texts p (st.ops.top + 1).toNat st

def pushValueRecorded (st : CalcState) (val : Word) : Recorded Access Outcome CalcState :=
  if st.values.top ≥ 39 then silent (.error (.printed stackOverflow))
  else do
    let values ← st.values.pushRecorded .values val
    return { st with values := values }

def pushOpRecorded (st : CalcState) (op : Char) : Recorded Access Outcome CalcState :=
  if st.ops.top ≥ 39 then silent (.error (.printed stackOverflow))
  else do
    let ops ← st.ops.pushRecorded .ops op
    return { st with ops := ops }

def closeParenRecorded (st : CalcState) : Recorded Access Outcome CalcState := do
  let st ← reduceWhileRecorded panicTexts (fun op => op ≠ '(') st
  if st.ops.top ≥ 0 then
    note (.top .ops (st.ops.top - 1))
    return { st with ops := { st.ops with top := st.ops.top - 1 } }
  else return st

def readOperatorRecorded (st : CalcState) (currentOp : Char) :
    Recorded Access Outcome CalcState := do
  let st ← reduceWhileRecorded panicTexts
    (fun op => getPrecedence op ≥ getPrecedence currentOp) st
  pushOpRecorded st currentOp

def readLoopRecorded : List Char → Nat → CalcState → Recorded Access Outcome CalcState
  | [], _, st => pure st
  | _ :: rest, skip + 1, st => readLoopRecorded rest skip st
  | c :: rest, 0, st =>
      if c = ' ' then readLoopRecorded rest 0 st
      else if c = '(' then do
        let st ← pushOpRecorded st c
        readLoopRecorded rest 0 st
      else if c.isDigit then do
        let digits := (c :: rest).takeWhile Char.isDigit
        let st ← pushValueRecorded st (readDigits digits)
        readLoopRecorded rest (digits.length - 1) st
      else if c = ')' then do
        let st ← closeParenRecorded st
        readLoopRecorded rest 0 st
      else do
        let st ← readOperatorRecorded st c
        readLoopRecorded rest 0 st

def printResultRecorded (st : CalcState) : Recorded Access Outcome Outcome :=
  if st.values.top = 0 then do
    let val ← st.values.readRecorded .values st.values.top
    return .printed (String.ofList (itoa2 val) ++ "\n")
  else pure (.printed invalidExpression)

def cmdCalcHandlerRecorded (staleValues : Nat → Word) (staleOps : Nat → Char)
    (argBuffer : List Char) : Recorded Access Outcome Outcome :=
  if argBuffer = [] then pure (.printed usage)
  else do
    note (.top .values (-1))
    note (.top .ops (-1))
    let st ← readLoopRecorded argBuffer 0
      { values := .empty staleValues, ops := .empty staleOps }
    let st ← reduceWhileRecorded endTexts (fun _ => true) st
    printResultRecorded st

/-! ## Without the record -/

section Result

variable {α : Type} (name : StackName) (s : Stack α)

@[simp] theorem result_readRecorded (i : Int) : (s.readRecorded name i).result = s.read i := rfl

@[simp] theorem result_pushRecorded (x : α) : (s.pushRecorded name x).result = s.push x := rfl

@[simp] theorem result_popRecorded : (s.popRecorded name).result = s.pop := rfl

end Result

@[simp] theorem result_reduceRecorded (texts : ZeroTexts) (st : CalcState) :
    (reduceRecorded texts st).result = reduce texts st := by
  unfold reduceRecorded reduce
  split
  · rfl
  · rw [result_bind, result_popRecorded]
    refine bind_congr fun first => ?_
    rw [result_bind, result_popRecorded]
    refine bind_congr fun second => ?_
    rw [result_bind, result_popRecorded]
    refine bind_congr fun third => ?_
    dsimp only
    cases applyOp second.1 first.1 third.1 with
    | error e => rfl
    | ok res => rw [result_bind, result_pushRecorded]; rfl

@[simp] theorem result_reduceLoopRecorded (texts : ZeroTexts) (p : Char → Bool) (rounds : Nat)
    (st : CalcState) :
    (reduceLoopRecorded texts p rounds st).result = reduceLoop texts p rounds st := by
  induction rounds generalizing st with
  | zero => rfl
  | succ rounds ih =>
      unfold reduceLoopRecorded reduceLoop
      split
      · rw [result_bind, result_readRecorded]
        refine bind_congr fun op => ?_
        split
        · rw [result_bind, result_reduceRecorded]
          exact bind_congr fun next => ih next
        · rfl
      · rfl

@[simp] theorem result_reduceWhileRecorded (texts : ZeroTexts) (p : Char → Bool) (st : CalcState) :
    (reduceWhileRecorded texts p st).result = reduceWhile texts p st :=
  result_reduceLoopRecorded texts p _ st

@[simp] theorem result_pushValueRecorded (st : CalcState) (val : Word) :
    (pushValueRecorded st val).result = pushValue st val := by
  unfold pushValueRecorded pushValue
  split
  · rfl
  · rw [result_bind, result_pushRecorded]
    rfl

@[simp] theorem result_pushOpRecorded (st : CalcState) (op : Char) :
    (pushOpRecorded st op).result = pushOp st op := by
  unfold pushOpRecorded pushOp
  split
  · rfl
  · rw [result_bind, result_pushRecorded]
    rfl

@[simp] theorem result_closeParenRecorded (st : CalcState) :
    (closeParenRecorded st).result = closeParen st := by
  unfold closeParenRecorded closeParen
  rw [result_bind, result_reduceWhileRecorded]
  refine bind_congr fun next => ?_
  split
  · rfl
  · rfl

@[simp] theorem result_readOperatorRecorded (st : CalcState) (currentOp : Char) :
    (readOperatorRecorded st currentOp).result = readOperator st currentOp := by
  unfold readOperatorRecorded readOperator
  rw [result_bind, result_reduceWhileRecorded]
  exact bind_congr fun next => result_pushOpRecorded next currentOp

@[simp] theorem result_readLoopRecorded (text : List Char) (skip : Nat) (st : CalcState) :
    (readLoopRecorded text skip st).result = readLoop text skip st := by
  induction text generalizing skip st with
  | nil => rfl
  | cons c rest ih =>
      cases skip with
      | succ skip => exact ih skip st
      | zero =>
          unfold readLoopRecorded readLoop
          split
          · exact ih 0 st
          split
          · rw [result_bind, result_pushOpRecorded]
            exact bind_congr fun next => ih 0 next
          split
          · rw [result_bind, result_pushValueRecorded]
            exact bind_congr fun next => ih _ next
          split
          · rw [result_bind, result_closeParenRecorded]
            exact bind_congr fun next => ih 0 next
          · rw [result_bind, result_readOperatorRecorded]
            exact bind_congr fun next => ih 0 next

@[simp] theorem result_printResultRecorded (st : CalcState) :
    (printResultRecorded st).result = printResult st := by
  unfold printResultRecorded printResult
  split
  · rw [result_bind, result_readRecorded]
    rfl
  · rfl

/-- How the handler ends, whether early or not. -/
def ending : Except Outcome Outcome → Outcome
  | .error outcome => outcome
  | .ok outcome => outcome

theorem ending_cmdCalcHandlerRecorded (staleValues : Nat → Word) (staleOps : Nat → Char)
    (argBuffer : List Char) :
    ending (cmdCalcHandlerRecorded staleValues staleOps argBuffer).result =
      cmdCalcHandler staleValues staleOps argBuffer := by
  unfold cmdCalcHandlerRecorded cmdCalcHandler
  by_cases hempty : argBuffer = []
  · rw [if_pos hempty, if_pos hempty]
    rfl
  · rw [if_neg hempty, if_neg hempty]
    simp only [result_bind, result_note, pure_bind, result_readLoopRecorded,
      result_reduceWhileRecorded, result_printResultRecorded]
    rfl

/-! ## What is in range -/

/-- Both tops are in range. -/
structure InRange (st : CalcState) : Prop where
  valTop_ge : -1 ≤ st.values.top
  valTop_le : st.values.top ≤ 39
  opsTop_ge : -1 ≤ st.ops.top
  opsTop_le : st.ops.top ≤ 39

/-- Code of the handler that keeps inside the arrays, and ends with a value that meets `Q` if it does
not end early. -/
abbrev StaysInside {α : Type} (Q : α → Prop) (m : Recorded Access Outcome α) : Prop :=
  Within Access.Inside (fun outcome => outcome ≠ .outOfBounds) Q m

section Stacks

variable {α : Type} {name : StackName} {s : Stack α}

theorem read_top (hlow : 0 ≤ s.top) (hhigh : s.top ≤ 39) :
    s.read s.top = .ok (s.slots s.top.toNat) := by
  have hsize : s.top < (40 : Int) := by omega
  exact if_pos ⟨hlow, hsize⟩

theorem inside_readRecorded (hlow : 0 ≤ s.top) (hhigh : s.top ≤ 39) :
    StaysInside (fun x => s.read s.top = .ok x) (s.readRecorded name s.top) := by
  have hread := read_top hlow hhigh
  exact (Within.of_note ⟨hlow, hhigh⟩).bind fun _ _ => .of_ok hread hread

theorem inside_pushRecorded (hlow : -1 ≤ s.top) (hhigh : s.top < 39) (x : α) :
    StaysInside (fun t => t.top = s.top + 1) (s.pushRecorded name x) := by
  have hroom : 0 ≤ s.top + 1 ∧ s.top + 1 < (40 : Int) := by omega
  refine (Within.of_note ⟨by omega, by omega⟩).bind fun _ _ => ?_
  refine (Within.of_note ⟨by omega, by omega⟩).bind fun _ _ => ?_
  exact .of_ok (if_pos hroom) rfl

theorem inside_popRecorded (hlow : 0 ≤ s.top) (hhigh : s.top ≤ 39) :
    StaysInside (fun r => r.2.top = s.top - 1) (s.popRecorded name) := by
  have hread := read_top hlow hhigh
  have hpop : s.pop = .ok (s.slots s.top.toNat, { s with top := s.top - 1 }) := by
    unfold Stack.pop
    rw [hread]
    rfl
  refine (Within.of_note ⟨hlow, hhigh⟩).bind fun _ _ => ?_
  refine (Within.of_note ⟨by omega, by omega⟩).bind fun _ _ => ?_
  exact .of_ok hpop rfl

end Stacks

section Handler

variable {st : CalcState}

theorem ZeroTexts.outcome_ne (texts : ZeroTexts) (e : ArithError) :
    texts.outcome e ≠ .outOfBounds := by
  cases e with
  | division => exact nofun
  | modulo => exact nofun
  | divideError => exact nofun

/-- Two values and an operator become one value: the check on `val_top` is enough for both pops, and
leaves room for the push. -/
theorem inside_reduceRecorded (h : InRange st) (hops : 0 ≤ st.ops.top) (texts : ZeroTexts) :
    StaysInside (fun next => InRange next ∧ next.ops.top = st.ops.top - 1)
      (reduceRecorded texts st) := by
  have hval := h.valTop_le
  have hop := h.opsTop_le
  unfold reduceRecorded
  split
  case isTrue => exact .of_error nofun
  case isFalse htwo =>
    refine (inside_popRecorded (by omega) hval).bind fun first hfirst => ?_
    refine (inside_popRecorded (by omega) (by omega)).bind fun second hsecond => ?_
    -- the loop that calls it has checked that an operator is there
    refine (inside_popRecorded hops hop).bind fun third hthird => ?_
    dsimp only
    cases applyOp second.1 first.1 third.1 with
    | error e => exact .of_error (texts.outcome_ne e)
    | ok res =>
        refine (inside_pushRecorded (by omega) (by omega) res).bind fun pushed hpushed => ?_
        refine .of_pure ⟨⟨?_, ?_, ?_, ?_⟩, hthird⟩
        · show -1 ≤ pushed.top
          omega
        · show pushed.top ≤ 39
          omega
        · show -1 ≤ third.2.top
          omega
        · show third.2.top ≤ 39
          omega

/-- The condition of a reduction loop fails. -/
def LoopDone (p : Char → Bool) (st : CalcState) : Prop :=
  st.ops.top < 0 ∨ ∃ op, st.ops.read st.ops.top = .ok op ∧ p op = false

/-- Every round takes an operator off, so the rounds are enough. -/
theorem inside_reduceLoopRecorded (texts : ZeroTexts) (p : Char → Bool) {rounds : Nat}
    (h : InRange st) (hrounds : st.ops.top < rounds) :
    StaysInside (fun next => InRange next ∧ LoopDone p next)
      (reduceLoopRecorded texts p rounds st) := by
  induction rounds generalizing st with
  | zero => exact .of_pure ⟨h, .inl hrounds⟩
  | succ rounds ih =>
      unfold reduceLoopRecorded
      split
      case isTrue hop =>
        refine (inside_readRecorded hop h.opsTop_le).bind fun op hread => ?_
        split
        case isTrue =>
          refine (inside_reduceRecorded h hop texts).bind fun next hnext => ?_
          exact ih hnext.1 (by omega)
        case isFalse hp => exact .of_pure ⟨h, .inr ⟨op, hread, by simpa using hp⟩⟩
      case isFalse hop => exact .of_pure ⟨h, .inl (by omega)⟩

theorem inside_reduceWhileRecorded (h : InRange st) (texts : ZeroTexts) (p : Char → Bool) :
    StaysInside (fun next => InRange next ∧ LoopDone p next) (reduceWhileRecorded texts p st) :=
  inside_reduceLoopRecorded texts p h (by have hge := h.opsTop_ge; omega)

theorem inside_pushValueRecorded (h : InRange st) (val : Word) :
    StaysInside InRange (pushValueRecorded st val) := by
  unfold pushValueRecorded
  split
  case isTrue => exact .of_error nofun
  case isFalse hroom =>
    have hge := h.valTop_ge
    refine (inside_pushRecorded hge (by omega) val).bind fun pushed hpushed => ?_
    exact .of_pure ⟨show -1 ≤ pushed.top by omega, show pushed.top ≤ 39 by omega, h.opsTop_ge,
      h.opsTop_le⟩

theorem inside_pushOpRecorded (h : InRange st) (op : Char) :
    StaysInside InRange (pushOpRecorded st op) := by
  unfold pushOpRecorded
  split
  case isTrue => exact .of_error nofun
  case isFalse hroom =>
    have hge := h.opsTop_ge
    refine (inside_pushRecorded hge (by omega) op).bind fun pushed hpushed => ?_
    exact .of_pure ⟨h.valTop_ge, h.valTop_le, show -1 ≤ pushed.top by omega,
      show pushed.top ≤ 39 by omega⟩

/-- The parenthesis is only taken off if there is an entry. -/
theorem inside_closeParenRecorded (h : InRange st) : StaysInside InRange (closeParenRecorded st) := by
  unfold closeParenRecorded
  refine (inside_reduceWhileRecorded h _ _).bind fun next hnext => ?_
  have hle := hnext.1.opsTop_le
  split
  case isTrue hop =>
    refine (Within.of_note ⟨by omega, by omega⟩).bind fun _ _ => ?_
    exact .of_pure ⟨hnext.1.valTop_ge, hnext.1.valTop_le, show -1 ≤ next.ops.top - 1 by omega,
      show next.ops.top - 1 ≤ 39 by omega⟩
  case isFalse => exact .of_pure hnext.1

theorem inside_readOperatorRecorded (h : InRange st) (currentOp : Char) :
    StaysInside InRange (readOperatorRecorded st currentOp) := by
  unfold readOperatorRecorded
  refine (inside_reduceWhileRecorded h _ _).bind fun next hnext => ?_
  exact inside_pushOpRecorded hnext.1 currentOp

theorem inside_readLoopRecorded (text : List Char) (skip : Nat) (h : InRange st) :
    StaysInside InRange (readLoopRecorded text skip st) := by
  induction text generalizing skip st with
  | nil => exact .of_pure h
  | cons c rest ih =>
      cases skip with
      | succ skip => exact ih skip h
      | zero =>
          unfold readLoopRecorded
          split
          · exact ih 0 h
          split
          · exact (inside_pushOpRecorded h c).bind fun next hnext => ih 0 hnext
          split
          · exact (inside_pushValueRecorded h _).bind fun next hnext => ih _ hnext
          split
          · exact (inside_closeParenRecorded h).bind fun next hnext => ih 0 hnext
          · exact (inside_readOperatorRecorded h c).bind fun next hnext => ih 0 hnext

theorem inside_printResultRecorded (h : InRange st) :
    StaysInside (fun outcome => outcome ≠ .outOfBounds) (printResultRecorded st) := by
  unfold printResultRecorded
  split
  case isTrue htop =>
    refine (inside_readRecorded (Int.le_of_eq htop.symm) h.valTop_le).bind fun val _ => ?_
    exact .of_pure nofun
  case isFalse => exact .of_pure nofun

end Handler

theorem inside_cmdCalcHandlerRecorded (staleValues : Nat → Word) (staleOps : Nat → Char)
    (argBuffer : List Char) :
    StaysInside (fun outcome => outcome ≠ .outOfBounds)
      (cmdCalcHandlerRecorded staleValues staleOps argBuffer) := by
  unfold cmdCalcHandlerRecorded
  split
  · exact .of_pure nofun
  · have hstart : InRange { values := .empty staleValues, ops := .empty staleOps } :=
      ⟨Int.le_refl _, show (-1 : Int) ≤ 39 by decide, Int.le_refl _, show (-1 : Int) ≤ 39 by decide⟩
    refine (Within.of_note ⟨by decide, by decide⟩).bind fun _ _ => ?_
    refine (Within.of_note ⟨by decide, by decide⟩).bind fun _ _ => ?_
    refine (inside_readLoopRecorded argBuffer 0 hstart).bind fun _ hread => ?_
    refine (inside_reduceWhileRecorded hread endTexts _).bind fun _ hdrained => ?_
    exact inside_printResultRecorded hdrained.1

/-- Whatever the text and the stale contents of the two arrays are, the handler uses only indices of
the arrays, its tops stay between -1 and 39 all the time, and the code that keeps the record does
what the handler does. -/
theorem cmdCalcHandler_indices (staleValues : Nat → Word) (staleOps : Nat → Char)
    (argBuffer : List Char) :
    (∀ access ∈ (cmdCalcHandlerRecorded staleValues staleOps argBuffer).record, access.Inside) ∧
      ending (cmdCalcHandlerRecorded staleValues staleOps argBuffer).result =
        cmdCalcHandler staleValues staleOps argBuffer ∧
      cmdCalcHandler staleValues staleOps argBuffer ≠ .outOfBounds := by
  have hinside := inside_cmdCalcHandlerRecorded staleValues staleOps argBuffer
  have hending := ending_cmdCalcHandlerRecorded staleValues staleOps argBuffer
  refine ⟨hinside.record, hending, ?_⟩
  rw [← hending]
  cases hresult : (cmdCalcHandlerRecorded staleValues staleOps argBuffer).result with
  | error outcome => exact hinside.error outcome hresult
  | ok outcome => exact hinside.value outcome hresult

end Calc
end WhitexKernel
