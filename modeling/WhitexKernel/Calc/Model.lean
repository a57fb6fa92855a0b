import Mathlib.Logic.Function.Basic

/-!
# Calc — the shell's calculator (`calc.h`)

`int` is `BitVec 32`: sums, products and literals wrap around, and a division that the processor
cannot carry out stops it (`divideError`).  A string is the list of its characters before the
terminating NUL.  The two stacks of `cmd_calc_handler` are arrays of 40 entries with the index of
their top; an access outside its array is the outcome `outOfBounds`.
-/

namespace WhitexKernel
namespace Calc

/-! ## Arithmetic -/

abbrev Word := BitVec 32

/-- The loop of `power`. -/
def powerLoop (base : Word) : Nat → Word → Word
  | 0, res => res
  | n + 1, res => powerLoop base n (res * base)

def power (base exp : Word) : Word :=
  if exp.slt 0 then 0 else powerLoop base exp.toNat 1

/-- The digits `itoa2` stores, least significant first; no `int` has more than ten. -/
def itoaLoop : Nat → Word → List Char
  | 0, _ => []
  | fuel + 1, num =>
      if num = 0 then []
      else Char.ofNat ((num.srem 10 + 48).toNat % 256) :: itoaLoop fuel (num.sdiv 10)

def itoa2 (num : Word) : List Char :=
  if num = 0 then ['0']
  else
    let isNeg := num.slt 0
    let str := itoaLoop 10 (if isNeg then -num else num) ++ if isNeg then ['-'] else []
    str.reverse

def getPrecedence (op : Char) : Int :=
  if op = '+' ∨ op = '-' then 1
  else if op = '*' ∨ op = '/' ∨ op = '%' ∨ op = 'x' then 2
  else if op = '^' then 3
  else if op = '&' ∨ op = '|' then 0
  else -1

/-- `INT_MIN` -/
def intMin : Word := 0x80000000

/-- Why `apply_op` has no value: `*err` is 1 or 2, or the division does not fit an `int`. -/
inductive ArithError
  | division
  | modulo
  | divideError
  deriving DecidableEq, Repr

/-- A division of `int`s by a divisor other than zero. -/
def divide (quotient : Word → Word → Word) (a b : Word) : Except ArithError Word :=
  if a = intMin ∧ b = -1 then .error .divideError else .ok (quotient a b)

def applyOp (a b : Word) (op : Char) : Except ArithError Word :=
  if op = '+' then .ok (a + b)
  else if op = '-' then .ok (a - b)
  else if op = '*' ∨ op = 'x' then .ok (a * b)
  else if op = '/' then if b = 0 then .error .division else divide BitVec.sdiv a b
  else if op = '%' then if b = 0 then .error .modulo else divide BitVec.srem a b
  else if op = '^' then .ok (power a b)
  else if op = '&' then .ok (a &&& b)
  else if op = '|' then .ok (a ||| b)
  else .ok 0

/-! ## Stacks -/

/-- How a call of `cmd_calc_handler` ends. -/
inductive Outcome
  | printed (text : String)
  | divideError
  | outOfBounds
  deriving DecidableEq, Repr

/-- The length of `values` and `ops`. -/
abbrev stackSize : Nat := 40

/-- An array with the index of its top; the entries above it are stale. -/
structure Stack (α : Type) where
  slots : Nat → α
  top : Int

namespace Stack

variable {α : Type}

def empty (slots : Nat → α) : Stack α :=
  { slots := slots
    top := -1 }

/-- `stack[i]` -/
def read (s : Stack α) (i : Int) : Except Outcome α :=
  if 0 ≤ i ∧ i < stackSize then .ok (s.slots i.toNat) else .error .outOfBounds

/-- `stack[++top] = x` -/
def push (s : Stack α) (x : α) : Except Outcome (Stack α) :=
  let top := s.top + 1
  if 0 ≤ top ∧ top < stackSize then
    .ok { slots := Function.update s.slots top.toNat x, top := top }
  else .error .outOfBounds

/-- `stack[top--]` -/
def pop (s : Stack α) : Except Outcome (α × Stack α) :=
  (s.read s.top).map fun x => (x, { s with top := s.top - 1 })

end Stack

structure CalcState where
  values : Stack Word
  ops : Stack Char

/-! ## The handler -/

def stackOverflow : String := "SHELL ERROR: Stack overflow\n"

def invalidSyntax : String := "SHELL ERROR: Invalid syntax\n"

def invalidExpression : String := "SHELL ERROR: Invalid expression\n"

def usage : String := "Usage: calc <expression> (e.g., calc (15+72)*2)\n"

/-- The messages a reduction loop prints for a zero divisor. -/
structure ZeroTexts where
  division : String
  modulo : String

/-- While the expression is read. -/
def panicTexts : ZeroTexts :=
  { division := "KERNEL PANIC: Division by zero\n"
    modulo := "KERNEL PANIC: Modulo by zero\n" }

/-- After its end. -/
def endTexts : ZeroTexts :=
  { division := " Division by zero\n"
    modulo := " Modulo by zero\n" }

/-- How the handler ends when `apply_op` has no value. -/
def ZeroTexts.outcome (texts : ZeroTexts) : ArithError → Outcome
  | .division => .printed texts.division
  | .modulo => .printed texts.modulo
  | .divideError => .divideError

/-- The body of the reduction loops. -/
def reduce (texts : ZeroTexts) (st : CalcState) : Except Outcome CalcState :=
  if st.values.top < 1 then .error (.printed invalidSyntax)
  else do
    let (val2, values) ← st.values.pop
    let (val1, values) ← values.pop
    let (op, ops) ← st.ops.pop
    match applyOp val1 val2 op with
    | .error e => .error (texts.outcome e)
    | .ok res =>
        let values ← values.push res
        return { values := values, ops := ops }

/-- A reduction loop: it goes on while there is an operator on the stack that meets `p`, for at most
`rounds` rounds. -/
def reduceLoop (texts : ZeroTexts) (p : Char → Bool) : Nat → CalcState → Except Outcome CalcState
  | 0, st => .ok st
  | rounds + 1, st =>
      if st.ops.top ≥ 0 then do
        let op ← st.ops.read st.ops.top
        if p op then
          let st ← reduce texts st
          reduceLoop texts p rounds st
        else return st
      else .ok st

/-- Every round takes an operator off the stack, so no loop has more rounds than there are. -/
def reduceWhile (texts : ZeroTexts) (p : Char → Bool) (st : CalcState) :
    Except Outcome CalcState :=
  reduceLoop texts p (st.ops.top + 1).toNat st

/-- `values[++val_top] = val`, unless the stack is full. -/
def pushValue (st : CalcState) (val : Word) : Except Outcome CalcState :=
  if st.values.top ≥ 39 then .error (.printed stackOverflow)
  else do
    let values ← st.values.push val
    return { st with values := values }

/-- `ops[++ops_top] = op`, unless the stack is full. -/
def pushOp (st : CalcState) (op : Char) : Except Outcome CalcState :=
  if st.ops.top ≥ 39 then .error (.printed stackOverflow)
  else do
    let ops ← st.ops.push op
    return { st with ops := ops }

/-- The branch of `)`. -/
def closeParen (st : CalcState) : Except Outcome CalcState := do
  let st ← reduceWhile panicTexts (fun op => op ≠ '(') st
  if st.ops.top ≥ 0 then return { st with ops := { st.ops with top := st.ops.top - 1 } }
  else return st

/-- The branch of any other character. -/
def readOperator (st : CalcState) (currentOp : Char) : Except Outcome CalcState := do
  let st ← reduceWhile panicTexts (fun op => getPrecedence op ≥ getPrecedence currentOp) st
  pushOp st currentOp

/-- The value of a string of digits. -/
def readDigits (digits : List Char) : Word :=
  digits.foldl (fun val c => val * 10 + BitVec.ofNat 32 (c.toNat - 48)) 0

/-- The loop over the string; the next `skip` characters are digits that have been read already. -/
def readLoop : List Char → Nat → CalcState → Except Outcome CalcState
  | [], _, st => .ok st
  | _ :: rest, skip + 1, st => readLoop rest skip st
  | c :: rest, 0, st =>
      if c = ' ' then readLoop rest 0 st
      else if c = '(' then do
        let st ← pushOp st c
        readLoop rest 0 st
      else if c.isDigit then do
        let digits := (c :: rest).takeWhile Char.isDigit
        let st ← pushValue st (readDigits digits)
        readLoop rest (digits.length - 1) st
      else if c = ')' then do
        let st ← closeParen st
        readLoop rest 0 st
      else do
        let st ← readOperator st c
        readLoop rest 0 st

/-- The end of the handler. -/
def printResult (st : CalcState) : Except Outcome Outcome :=
  if st.values.top = 0 then do
    let val ← st.values.read st.values.top
    return .printed (String.ofList (itoa2 val) ++ "\n")
  else .ok (.printed invalidExpression)

/-- The stacks are local arrays, so they hold arbitrary values at first. -/
def cmdCalcHandler (staleValues : Nat → Word) (staleOps : Nat → Char) (argBuffer : List Char) :
    Outcome :=
  if argBuffer = [] then .printed usage
  else
    let result : Except Outcome Outcome := do
      let st ← readLoop argBuffer 0 { values := .empty staleValues, ops := .empty staleOps }
      let st ← reduceWhile endTexts (fun _ => true) st
      printResult st
    match result with
    | .error outcome => outcome
    | .ok outcome => outcome

end Calc
end WhitexKernel
