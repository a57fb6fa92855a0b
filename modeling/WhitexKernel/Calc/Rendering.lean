import WhitexKernel.Calc.Machine

/-!
# Rendering — expressions as text

An `Expr` is what is meant, a `Rendering` one way to write it down: with the digits of its literals,
any extra parentheses, and the spaces in front of each token.  Reading the text of a rendering feeds
its tokens to the two-stack machine (`follows_text`).
-/

namespace WhitexKernel
namespace Calc

open Lib.ShuntingYard

/-! ## Expressions -/

inductive BinOp
  | add
  | sub
  | mul
  | cross
  | div
  | mod
  | pow
  | and
  | or
  deriving DecidableEq, Repr

def BinOp.symbol : BinOp → Char
  | .add => '+'
  | .sub => '-'
  | .mul => '*'
  | .cross => 'x'
  | .div => '/'
  | .mod => '%'
  | .pow => '^'
  | .and => '&'
  | .or => '|'

inductive Expr
  | lit (n : Nat)
  | bin (op : BinOp) (l r : Expr)
  deriving DecidableEq, Repr

/-- `apply_op` folded over the expression; literals wrap around. -/
def Expr.value : Expr → Except ArithError Word
  | .lit n => .ok (BitVec.ofNat 32 n)
  | .bin op l r =>
      match l.value with
      | .error e => .error e
      | .ok v₁ =>
          match r.value with
          | .error e => .error e
          | .ok v₂ => applyOp v₁ v₂ op.symbol

/-! ## Renderings -/

inductive Rendering
  /-- A nonempty string of digits. -/
  | lit (spaces : Nat) (first : Fin 10) (rest : List (Fin 10))
  | paren (spaces : Nat) (inner : Rendering) (spacesBeforeClosing : Nat)
  | bin (l : Rendering) (spaces : Nat) (op : BinOp) (r : Rendering)
  deriving DecidableEq, Repr

/-- The number a string of digits denotes. -/
def number (digits : List (Fin 10)) : Nat :=
  digits.foldl (fun n d => 10 * n + d.val) 0

def digitChars (digits : List (Fin 10)) : List Char :=
  digits.map fun d => d.val.digitChar

def blanks (spaces : Nat) : List Char := List.replicate spaces ' '

namespace Rendering

/-- The expression that is rendered. -/
def expr : Rendering → Expr
  | .lit _ first rest => .lit (number (first :: rest))
  | .paren _ inner _ => inner.expr
  | .bin l _ op r => .bin op l.expr r.expr

def text : Rendering → List Char
  | .lit spaces first rest => blanks spaces ++ digitChars (first :: rest)
  | .paren spaces inner spaces' => blanks spaces ++ '(' :: (inner.text ++ (blanks spaces' ++ [')']))
  | .bin l spaces op r => l.text ++ (blanks spaces ++ op.symbol :: r.text)

/-- The rendering as a tree of tokens. -/
def tree : Rendering → Tree Word Char
  | .lit _ first rest => .lit (BitVec.ofNat 32 (number (first :: rest)))
  | .paren _ inner _ => .paren inner.tree
  | .bin l _ op r => .bin op.symbol l.tree r.tree

/-- Parentheses stand wherever precedence and left associativity require them: outside of them a
left operand binds at least as tightly as its operator, and a right operand more tightly. -/
def WellPlaced (r : Rendering) : Prop := r.tree.WellPlaced calcOperators 0

instance (r : Rendering) : Decidable r.WellPlaced := by
  unfold WellPlaced
  infer_instance

theorem fold_tree (r : Rendering) : r.tree.fold calcOperators = r.expr.value := by
  induction r with
  | lit spaces first rest => rfl
  | paren spaces inner spaces' ih => exact ih
  | bin l spaces op r ihl ihr =>
      simp only [tree, expr, Tree.fold, Expr.value, ihl, ihr]
      cases l.expr.value with
      | error e => rfl
      | ok v₁ => cases r.expr.value <;> rfl

end Rendering

/-! ## Reading text -/

theorem readLoop_blanks (spaces : Nat) (tail : List Char) (st : CalcState) :
    readLoop (blanks spaces ++ tail) 0 st = readLoop tail 0 st := by
  induction spaces with
  | zero => rfl
  | succ spaces ih => simpa [blanks, List.replicate_succ, readLoop] using ih

theorem readLoop_skip (xs tail : List Char) (st : CalcState) :
    readLoop (xs ++ tail) xs.length st = readLoop tail 0 st := by
  induction xs with
  | nil => rfl
  | cons x xs ih => simpa [readLoop] using ih

/-- A number that ends before `tail` is read to its end. -/
def EndsNumber (tail : List Char) : Prop := ∀ c ∈ tail.head?, c.isDigit = false

theorem readLoop_digits {c : Char} {cs : List Char} (hdigits : ∀ d ∈ c :: cs, d.isDigit = true)
    {tail : List Char} (htail : EndsNumber tail) (st : CalcState) :
    readLoop (c :: cs ++ tail) 0 st = pushValue st (readDigits (c :: cs)) >>= readLoop tail 0 := by
  have hc : c.isDigit = true := hdigits c (by simp)
  -- a digit is neither a blank nor a parenthesis, so the loop collects a number
  have hspace : c ≠ ' ' := by
    rintro rfl
    exact absurd hc (by decide)
  have hparen : c ≠ '(' := by
    rintro rfl
    exact absurd hc (by decide)
  -- what the number ends at is no digit
  have htake : (c :: (cs ++ tail)).takeWhile Char.isDigit = c :: cs := by
    have hnil : tail.takeWhile Char.isDigit = [] := by
      cases tail with
      | nil => rfl
      | cons d ds =>
          have hd : d.isDigit = false := htail d rfl
          simp [hd]
    rw [← List.cons_append, List.takeWhile_append_of_pos hdigits, hnil, List.append_nil]
  simp only [List.cons_append, readLoop, hspace, hparen, if_false, hc, if_true, htake,
    List.length_cons, Nat.add_sub_cancel]
  cases pushValue st (readDigits (c :: cs)) with
  | error outcome => rfl
  | ok st' => exact readLoop_skip cs tail st'

theorem isDigit_of_mem_digitChars {digits : List (Fin 10)} {c : Char}
    (h : c ∈ digitChars digits) : c.isDigit = true := by
  rcases List.mem_map.1 h with ⟨d, _, rfl⟩
  simp [Nat.isDigit_digitChar]

theorem readDigits_digitChars (digits : List (Fin 10)) :
    readDigits (digitChars digits) = BitVec.ofNat 32 (number digits) := by
  have hfold : ∀ (n : Nat), (digitChars digits).foldl
      (fun val c => val * 10 + BitVec.ofNat 32 (c.toNat - 48)) (BitVec.ofNat 32 n) =
        BitVec.ofNat 32 (digits.foldl (fun n d => 10 * n + d.val) n) := by
    induction digits with
    | nil => exact fun n => rfl
    | cons d ds ih =>
        intro n
        have hstep : BitVec.ofNat 32 n * 10 + BitVec.ofNat 32 (d.val.digitChar.toNat - 48) =
            BitVec.ofNat 32 (10 * n + d.val) := by
          rw [Nat.toNat_digitChar_sub_48_of_lt_ten d.isLt]
          apply BitVec.eq_of_toNat_eq
          have hten : (10 : Word).toNat = 10 := by decide
          simp only [BitVec.toNat_add, BitVec.toNat_mul, BitVec.toNat_ofNat, hten]
          omega
        simp only [digitChars, List.map_cons, List.foldl_cons, hstep]
        exact ih _
  exact hfold 0

/-- An operator symbol is none of the characters the reader treats in another way. -/
theorem readLoop_symbol (op : BinOp) (rest : List Char) (st : CalcState) :
    readLoop (op.symbol :: rest) 0 st = readOperator st op.symbol >>= readLoop rest 0 := by
  cases op <;> simp [BinOp.symbol, readLoop]

theorem endsNumber_blanks (spaces : Nat) {c : Char} (hc : c.isDigit = false) (tail : List Char) :
    EndsNumber (blanks spaces ++ c :: tail) := by
  intro d hd
  cases spaces with
  | zero =>
      cases hd
      exact hc
  | succ spaces =>
      cases hd
      decide

theorem Follows.cases {r : Except Outcome CalcState}
    {r' : Except (Stop ArithError) (Stacks Word Char)} (h : Follows r r') :
    (∃ st ls, r = .ok st ∧ r' = .ok ls ∧ Sim st ls) ∨
      ∃ outcome stop, r = .error outcome ∧ r' = .error stop ∧ Reports outcome stop := by
  cases r' with
  | ok ls =>
      rcases h with ⟨st, rfl, hsim⟩
      exact .inl ⟨st, ls, rfl, rfl, hsim⟩
  | error stop =>
      rcases h with ⟨outcome, rfl, hreports⟩
      exact .inr ⟨outcome, stop, rfl, rfl, hreports⟩

/-- Reading the text of a rendering follows the machine on its tokens. -/
theorem follows_text (r : Rendering) {st : CalcState} {ls : Stacks Word Char} (h : Sim st ls)
    {tail : List Char} (htail : EndsNumber tail) :
    ∃ x, Follows x (run calcOperators stackSize r.tree.tokens ls) ∧
      readLoop (r.text ++ tail) 0 st = x >>= readLoop tail 0 := by
  induction r generalizing st ls tail with
  | lit spaces first rest =>
      refine ⟨pushValue st (readDigits (digitChars (first :: rest))), ?_, ?_⟩
      · rw [readDigits_digitChars]
        simp only [Rendering.tree, Tree.tokens, run_singleton, step]
        exact follows_pushValue h _
      · simp only [Rendering.text, List.append_assoc, readLoop_blanks]
        exact readLoop_digits (fun d hd => @isDigit_of_mem_digitChars (first :: rest) _ hd)
          htail st
  | paren spaces inner spaces' ih =>
      have htext : readLoop ((Rendering.paren spaces inner spaces').text ++ tail) 0 st =
          pushOp st '(' >>= readLoop (inner.text ++ (blanks spaces' ++ ')' :: tail)) 0 := by
        simp [Rendering.text, List.append_assoc, readLoop_blanks, readLoop]
      have hclose : ∀ st, readLoop (blanks spaces' ++ ')' :: tail) 0 st =
          closeParen st >>= readLoop tail 0 := by
        intro st
        rw [readLoop_blanks]
        simp [readLoop, Char.isDigit]
      simp only [Rendering.tree, Tree.tokens, run, step]
      rw [htext]
      -- the opening parenthesis is pushed, the inside is read, and it is closed
      rcases (follows_pushOp h '(').cases with ⟨st₁, ls₁, hr, hr', hsim⟩ | ⟨o, stop, hr, hr', hrep⟩
      · rcases ih hsim (endsNumber_blanks spaces' (c := ')') (by decide) tail) with ⟨x, hx, hread⟩
        refine ⟨x >>= closeParen, ?_, ?_⟩
        · have hop : ls.pushOp stackSize calcOperators.lpar = .ok ls₁ := hr'
          simp only [hop, Except.bind, run_append]
          refine hx.bind fun st' ls' hsim' => ?_
          rw [run_singleton]
          exact follows_closeParen hsim'
        · rw [hr]
          simp only [bind, Except.bind] at hread ⊢
          rw [hread]
          cases x with
          | error outcome => rfl
          | ok st' => exact hclose st'
      · have hop : ls.pushOp stackSize calcOperators.lpar = .error stop := hr'
        rw [hr, hop]
        exact ⟨.error o, ⟨o, rfl, hrep⟩, rfl⟩
  | bin l spaces op r ihl ihr =>
      have hnot : op.symbol.isDigit = false := by cases op <;> decide
      have htext : (Rendering.bin l spaces op r).text ++ tail =
          l.text ++ (blanks spaces ++ op.symbol :: (r.text ++ tail)) := by
        simp [Rendering.text, List.append_assoc]
      simp only [Rendering.tree, Tree.tokens, run_append, run]
      rw [htext]
      -- the left operand is read up to the spaces behind it
      rcases ihl h (endsNumber_blanks spaces hnot (r.text ++ tail)) with ⟨x, hx, hread⟩
      rw [hread]
      rcases hx.cases with ⟨st₁, ls₁, rfl, hls₁, hsim₁⟩ | ⟨o, stop, rfl, hstop, hrep⟩
      · rw [hls₁]
        simp only [bind, Except.bind, readLoop_blanks, readLoop_symbol]
        -- then the operator, which may apply others first
        rcases (follows_readOperator hsim₁ op.symbol).cases with
          ⟨st₂, ls₂, hr₂, hls₂, hsim₂⟩ | ⟨o, stop, hr₂, hstop, hrep⟩
        · rw [hr₂, hls₂]
          exact ihr hsim₂ htail
        · rw [hr₂, hstop]
          exact ⟨.error o, ⟨o, rfl, hrep⟩, rfl⟩
      · rw [hstop]
        exact ⟨.error o, ⟨o, rfl, hrep⟩, rfl⟩

end Calc
end WhitexKernel
