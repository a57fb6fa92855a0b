import WhitexKernel.Calc.Model
import WhitexKernel.Lib.ShuntingYard

/-!
# Machine — the handler's loops are the two-stack machine

`Sim` relates the arrays of `cmd_calc_handler` to the two lists of the shunting-yard machine, and
`Follows` the results of a function on either side.  In related states no access leaves its array.
-/

namespace WhitexKernel
namespace Calc

open Lib.ShuntingYard

/-- The calculator's operators. -/
def calcOperators : Operators Word Char ArithError :=
  { prec := getPrecedence
    apply := fun op a b => applyOp a b op
    lpar := '('
    lpar_prec := by decide }

/-! ## Stacks -/

/-- The stack holds the entries `l`, top first. -/
def Stack.Holds {α : Type} : Stack α → List α → Prop
  | s, [] => s.top = -1
  | s, x :: l =>
      s.top = l.length ∧ l.length < stackSize ∧ s.slots l.length = x ∧
        Holds { s with top := s.top - 1 } l

namespace Stack

namespace Holds

variable {α : Type} {s : Stack α} {l : List α} {x : α}

theorem top_eq (h : s.Holds l) : s.top = (l.length : Int) - 1 := by
  cases l with
  | nil => exact h
  | cons x l =>
      rw [h.1, List.length_cons]
      omega

theorem length_le (h : s.Holds l) : l.length ≤ stackSize := by
  cases l with
  | nil => exact Nat.zero_le _
  | cons x l => exact h.2.1

/-- Only the entries below the top matter. -/
theorem congr {t : Stack α} (h : s.Holds l) (htop : t.top = s.top)
    (hslots : ∀ i, i < l.length → t.slots i = s.slots i) : t.Holds l := by
  induction l generalizing s t with
  | nil => exact htop.trans h
  | cons x l ih =>
      rcases h with ⟨hs, hlt, hx, hrest⟩
      refine ⟨htop.trans hs, hlt, (hslots _ (by simp)).trans hx, ih hrest ?_ ?_⟩
      · simp only [htop]
      · intro i hi
        exact hslots i (by simp; omega)

theorem empty (slots : Nat → α) : (Stack.empty slots).Holds [] := rfl

theorem push (h : s.Holds l) (hroom : l.length < stackSize) (x : α) :
    ∃ t, s.push x = .ok t ∧ t.Holds (x :: l) := by
  have htop : s.top + 1 = l.length := by
    rw [h.top_eq]
    omega
  have hindex : (0 : Int) ≤ l.length ∧ (l.length : Int) < stackSize := by
    unfold stackSize at hroom ⊢
    omega
  refine ⟨{ slots := Function.update s.slots l.length x, top := l.length }, ?_, rfl, hroom, ?_, ?_⟩
  · simp only [Stack.push, htop, hindex, and_self, if_true, Int.toNat_natCast]
  · exact Function.update_self _ _ _
  · refine h.congr ?_ ?_
    · simp only [h.top_eq]
    · intro i hi
      exact Function.update_of_ne (Nat.ne_of_lt hi) _ _

theorem read_top (h : s.Holds (x :: l)) : s.read s.top = .ok x := by
  rcases h with ⟨htop, hlt, hx, _⟩
  have hindex : (0 : Int) ≤ l.length ∧ (l.length : Int) < stackSize := by
    unfold stackSize at hlt ⊢
    omega
  simp only [Stack.read, htop, hindex, and_self, if_true, Int.toNat_natCast, hx]

theorem pop (h : s.Holds (x :: l)) : ∃ t, s.pop = .ok (x, t) ∧ t.Holds l := by
  refine ⟨{ s with top := s.top - 1 }, ?_, h.2.2.2⟩
  simp only [Stack.pop, h.read_top, Except.map]

end Holds

end Stack

/-! ## Related states and results -/

/-- The arrays hold the two lists. -/
structure Sim (st : CalcState) (ls : Stacks Word Char) : Prop where
  values : st.values.Holds ls.vals
  ops : st.ops.Holds ls.ops

/-- The handler ends this way when the machine stops for this reason. -/
def Reports (outcome : Outcome) : Stop ArithError → Prop
  | .overflow => outcome = .printed stackOverflow
  | .malformed => outcome = .printed invalidSyntax
  | .apply e => outcome = panicTexts.outcome e ∨ outcome = endTexts.outcome e

/-- The handler goes on in a related state where the machine does, and ends where it stops. -/
def Follows (r : Except Outcome CalcState) :
    Except (Stop ArithError) (Stacks Word Char) → Prop
  | .ok ls => ∃ st, r = .ok st ∧ Sim st ls
  | .error stop => ∃ outcome, r = .error outcome ∧ Reports outcome stop

theorem Sim.follows {st : CalcState} {ls : Stacks Word Char} (h : Sim st ls) :
    Follows (.ok st) (.ok ls) := ⟨st, rfl, h⟩

theorem Follows.bind {r : Except Outcome CalcState}
    {r' : Except (Stop ArithError) (Stacks Word Char)}
    {f : CalcState → Except Outcome CalcState}
    {g : Stacks Word Char → Except (Stop ArithError) (Stacks Word Char)} (h : Follows r r')
    (hf : ∀ st ls, Sim st ls → Follows (f st) (g ls)) : Follows (r >>= f) (r'.bind g) := by
  cases r' with
  | ok ls =>
      rcases h with ⟨st, rfl, hsim⟩
      exact hf st ls hsim
  | error stop =>
      rcases h with ⟨outcome, rfl, hreports⟩
      exact ⟨outcome, rfl, hreports⟩

/-- The message for a zero divisor depends on where the reduction loop stands. -/
def AnyTexts (texts : ZeroTexts) : Prop := texts = panicTexts ∨ texts = endTexts

theorem AnyTexts.reports {texts : ZeroTexts} (h : AnyTexts texts) (e : ArithError) :
    Reports (texts.outcome e) (.apply e) := by
  rcases h with rfl | rfl
  · exact .inl rfl
  · exact .inr rfl

/-! ## The loops -/

/-- One round of a reduction loop. -/
theorem reduce_cases {texts : ZeroTexts} {st : CalcState} {op : Char}
    {vals : List Word} {ops : List Char} (h : Sim st { vals := vals, ops := op :: ops }) :
    (vals.length < 2 ∧ reduce texts st = .error (.printed invalidSyntax)) ∨
    ∃ v₁ v₂ rest, vals = v₂ :: v₁ :: rest ∧
      match applyOp v₁ v₂ op with
      | .error e => reduce texts st = .error (texts.outcome e)
      | .ok v => ∃ st', reduce texts st = .ok st' ∧ Sim st' { vals := v :: rest, ops := ops } := by
  have htop := h.values.top_eq
  match vals with
  | [] => exact .inl ⟨by simp, by simp [reduce, htop]⟩
  | [v] => exact .inl ⟨by simp, by simp [reduce, htop]⟩
  | v₂ :: v₁ :: rest =>
      refine .inr ⟨v₁, v₂, rest, rfl, ?_⟩
      have hlt : ¬ st.values.top < 1 := by
        rw [htop]
        simp only [List.length_cons]
        omega
      -- the right operand is on top, the left one below
      rcases h.values.pop with ⟨values₂, hpop₂, hholds₂⟩
      rcases hholds₂.pop with ⟨values₁, hpop₁, hholds₁⟩
      rcases h.ops.pop with ⟨ops', hpop, hops⟩
      -- two values are gone, so there is room for the result
      have hroom : rest.length < stackSize := by
        have hle := h.values.length_le
        simp only [List.length_cons] at hle
        omega
      cases happly : applyOp v₁ v₂ op with
      | error e =>
          simp only [reduce, hlt, if_false, hpop₂, hpop₁, hpop, bind, Except.bind, happly]
      | ok v =>
          rcases hholds₁.push hroom v with ⟨values, hpush, hvalues⟩
          refine ⟨{ values := values, ops := ops' }, ?_, hvalues, hops⟩
          simp only [reduce, hlt, if_false, hpop₂, hpop₁, hpop, bind, Except.bind, happly, hpush]
          rfl

theorem follows_reduceLoop {texts : ZeroTexts} (htexts : AnyTexts texts) (p : Char → Bool)
    {st : CalcState} {vals : List Word} {ops : List Char}
    (h : Sim st { vals := vals, ops := ops }) :
    Follows (reduceLoop texts p ops.length st)
      (Lib.ShuntingYard.reduceWhile calcOperators p ops vals) := by
  induction ops generalizing st vals with
  | nil => exact h.follows
  | cons op ops ih =>
      have htop : st.ops.top ≥ 0 := by
        rw [h.ops.1]
        omega
      simp only [List.length_cons, reduceLoop, htop, if_true, h.ops.read_top, bind, Except.bind,
        Lib.ShuntingYard.reduceWhile]
      by_cases hp : p op = true
      · simp only [hp, if_true]
        -- the operator on top is applied, if there are two values for it
        rcases @reduce_cases texts _ _ _ _ h with ⟨hshort, hreduce⟩ | ⟨v₁, v₂, rest, rfl, hreduce⟩
        · rw [hreduce]
          rcases vals with _ | ⟨v, _ | ⟨v', rest⟩⟩
          · exact ⟨_, rfl, rfl⟩
          · exact ⟨_, rfl, rfl⟩
          · simp only [List.length_cons] at hshort
            omega
        · have happly : calcOperators.apply op v₁ v₂ = applyOp v₁ v₂ op := rfl
          simp only [happly]
          cases hval : applyOp v₁ v₂ op with
          | error e =>
              rw [hval] at hreduce
              simp only at hreduce
              rw [hreduce]
              exact ⟨_, rfl, htexts.reports e⟩
          | ok v =>
              rw [hval] at hreduce
              rcases hreduce with ⟨st', hreduce, hsim⟩
              rw [hreduce]
              exact ih hsim
      · simp only [hp, if_false, Bool.false_eq_true]
        exact h.follows

theorem follows_reduceWhile {texts : ZeroTexts} (htexts : AnyTexts texts) (p : Char → Bool)
    {st : CalcState} {ls : Stacks Word Char} (h : Sim st ls) :
    Follows (reduceWhile texts p st)
      (Lib.ShuntingYard.reduceWhile calcOperators p ls.ops ls.vals) := by
  have hrounds : (st.ops.top + 1).toNat = ls.ops.length := by
    rw [h.ops.top_eq]
    omega
  unfold reduceWhile
  rw [hrounds]
  exact follows_reduceLoop htexts p h

/-! ## The branches -/

theorem follows_pushValue {st : CalcState} {ls : Stacks Word Char} (h : Sim st ls) (val : Word) :
    Follows (pushValue st val) (ls.pushVal stackSize val) := by
  have htop := h.values.top_eq
  unfold pushValue Stacks.pushVal
  by_cases hfull : stackSize ≤ ls.vals.length
  · have hge : st.values.top ≥ 39 := by
      unfold stackSize at hfull
      omega
    simp only [hge, hfull, if_true]
    exact ⟨_, rfl, rfl⟩
  · have hlt : ¬ st.values.top ≥ 39 := by
      unfold stackSize at hfull
      omega
    rcases h.values.push (Nat.lt_of_not_le hfull) val with ⟨values, hpush, hvalues⟩
    simp only [hlt, hfull, if_false, hpush, bind, Except.bind]
    exact ⟨_, rfl, hvalues, h.ops⟩

theorem follows_pushOp {st : CalcState} {ls : Stacks Word Char} (h : Sim st ls) (op : Char) :
    Follows (pushOp st op) (ls.pushOp stackSize op) := by
  have htop := h.ops.top_eq
  unfold pushOp Stacks.pushOp
  by_cases hfull : stackSize ≤ ls.ops.length
  · have hge : st.ops.top ≥ 39 := by
      unfold stackSize at hfull
      omega
    simp only [hge, hfull, if_true]
    exact ⟨_, rfl, rfl⟩
  · have hlt : ¬ st.ops.top ≥ 39 := by
      unfold stackSize at hfull
      omega
    rcases h.ops.push (Nat.lt_of_not_le hfull) op with ⟨ops, hpush, hops⟩
    simp only [hlt, hfull, if_false, hpush, bind, Except.bind]
    exact ⟨_, rfl, h.values, hops⟩

/-- A closing parenthesis. -/
theorem follows_closeParen {st : CalcState} {ls : Stacks Word Char} (h : Sim st ls) :
    Follows (closeParen st) (step calcOperators stackSize ls .rpar) := by
  -- the parenthesis is dropped, or nothing is when the stack is empty
  have hpop : ∀ st ls, Sim st ls →
      Follows
        (if st.ops.top ≥ 0 then
          pure { st with ops := { st.ops with top := st.ops.top - 1 } } else pure st)
        (.ok ls.popOp) := by
    intro st ls hsim
    cases hops : ls.ops with
    | nil =>
        have htop : ¬ st.ops.top ≥ 0 := by
          rw [hsim.ops.top_eq, hops]
          simp
        rw [if_neg htop]
        refine ⟨st, rfl, hsim.values, ?_⟩
        simpa [Stacks.popOp, hops] using hsim.ops
    | cons op ops =>
        have hholds := hsim.ops
        rw [hops] at hholds
        have htop : st.ops.top ≥ 0 := by
          rw [hholds.1]
          omega
        rw [if_pos htop]
        refine ⟨_, rfl, hsim.values, ?_⟩
        simpa [Stacks.popOp, hops] using hholds.2.2.2
  have hmap : ∀ r : Except (Stop ArithError) (Stacks Word Char),
      r.map Stacks.popOp = r.bind fun ls => .ok ls.popOp := by
    intro r
    cases r <;> rfl
  simp only [step, hmap]
  exact (follows_reduceWhile (.inl rfl) _ h).bind hpop

/-- An operator. -/
theorem follows_readOperator {st : CalcState} {ls : Stacks Word Char} (h : Sim st ls) (op : Char) :
    Follows (readOperator st op) (step calcOperators stackSize ls (.op op)) :=
  (follows_reduceWhile (.inl rfl) _ h).bind fun _ _ hsim => follows_pushOp hsim op

end Calc
end WhitexKernel
