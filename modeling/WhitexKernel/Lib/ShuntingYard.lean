/-!
# ShuntingYard — operator precedence by two bounded stacks

Infix tokens are read from left to right into a stack of operands and a stack of operators and open
parentheses, and operators are applied as soon as a later token binds no tighter.

* `run` — the machine, with stacks of `cap` entries;
* `Tree` — how a token sequence is meant: literals, explicit parentheses and left-associative
  operators, placed as their precedence demands (`WellPlaced`);
* `Tree.eval` — what is computed, by recursion on the tree, with the entries pending around it.

The machine computes `Tree.eval` (`run_tokens`, `drain_run`), and `Tree.eval` is the fold of the
operators unless a stack overflows first (`Tree.eval_of_fits`, `Tree.eval_of_not_fits`).
-/

namespace WhitexKernel
namespace Lib
namespace ShuntingYard

universe u v w

variable {V : Type u} {S : Type v} {E : Type w}

/-- Stack symbols with their precedence and meaning.  An open parenthesis is one of them. -/
structure Operators (V : Type u) (S : Type v) (E : Type w) where
  prec : S → Int
  apply : S → V → V → Except E V
  lpar : S
  lpar_prec : prec lpar < 0

inductive Token (V : Type u) (S : Type v)
  | num (v : V)
  | lpar
  | rpar
  | op (s : S)

/-- The two stacks, top first. -/
structure Stacks (V : Type u) (S : Type v) where
  vals : List V
  ops : List S

/-- Why a run stops. -/
inductive Stop (E : Type w)
  | overflow
  | malformed
  | apply (e : E)
  deriving DecidableEq, Repr

/-! ## The machine -/

section Machine

variable (O : Operators V S E) (cap : Nat)

/-- Apply operators from the top of the stack as long as they meet `q`. -/
def reduceWhile (q : S → Bool) : List S → List V → Except (Stop E) (Stacks V S)
  | [], vals => .ok { vals := vals, ops := [] }
  | s :: ops, vals =>
      if q s then
        match vals with
        | v₂ :: v₁ :: vals =>
            match O.apply s v₁ v₂ with
            | .ok v => reduceWhile q ops (v :: vals)
            | .error e => .error (.apply e)
        | _ => .error .malformed
      else .ok { vals := vals, ops := s :: ops }

def Stacks.pushVal (st : Stacks V S) (v : V) : Except (Stop E) (Stacks V S) :=
  if cap ≤ st.vals.length then .error .overflow else .ok { st with vals := v :: st.vals }

def Stacks.pushOp (st : Stacks V S) (s : S) : Except (Stop E) (Stacks V S) :=
  if cap ≤ st.ops.length then .error .overflow else .ok { st with ops := s :: st.ops }

def Stacks.popOp (st : Stacks V S) : Stacks V S :=
  { st with ops := st.ops.tail }

def step [DecidableEq S] (st : Stacks V S) : Token V S → Except (Stop E) (Stacks V S)
  | .num v => st.pushVal cap v
  | .lpar => st.pushOp cap O.lpar
  | .rpar => (reduceWhile O (fun s => s ≠ O.lpar) st.ops st.vals).map Stacks.popOp
  | .op s =>
      (reduceWhile O (fun s' => O.prec s ≤ O.prec s') st.ops st.vals).bind fun st =>
        st.pushOp cap s

def run [DecidableEq S] : List (Token V S) → Stacks V S → Except (Stop E) (Stacks V S)
  | [], st => .ok st
  | t :: ts, st => (step O cap st t).bind (run ts)

/-- Apply all operators that are left. -/
def drain (st : Stacks V S) : Except (Stop E) (Stacks V S) :=
  reduceWhile O (fun _ => true) st.ops st.vals

end Machine

/-! ## Trees -/

/-- A token sequence with its structure; parentheses are kept. -/
inductive Tree (V : Type u) (S : Type v)
  | lit (v : V)
  | paren (t : Tree V S)
  | bin (s : S) (l r : Tree V S)

namespace Tree

def tokens : Tree V S → List (Token V S)
  | .lit v => [.num v]
  | .paren t => .lpar :: (t.tokens ++ [.rpar])
  | .bin s l r => l.tokens ++ .op s :: r.tokens

/-- Outside parentheses the operators have at least precedence `p`, those of a right operand more
than their own operator's, and those of a left operand at least that. -/
def WellPlaced (O : Operators V S E) : Int → Tree V S → Prop
  | _, .lit _ => True
  | _, .paren t => WellPlaced O 0 t
  | p, .bin s l r => p ≤ O.prec s ∧ WellPlaced O (O.prec s) l ∧ WellPlaced O (O.prec s + 1) r

instance decidableWellPlaced (O : Operators V S E) :
    ∀ (p : Int) (t : Tree V S), Decidable (t.WellPlaced O p)
  | _, .lit _ => isTrue trivial
  | _, .paren t => decidableWellPlaced O 0 t
  | _, .bin s l r =>
      have := decidableWellPlaced O (O.prec s) l
      have := decidableWellPlaced O (O.prec s + 1) r
      inferInstanceAs (Decidable (_ ∧ _ ∧ _))

/-- The value of the tree, when `nv` operands and `no` operators and open parentheses are pending
around it: whatever happens first, reading from left to right. -/
def eval (O : Operators V S E) (cap : Nat) : Tree V S → Nat → Nat → Except (Stop E) V
  | .lit v, nv, _ => if cap ≤ nv then .error .overflow else .ok v
  | .paren t, nv, no => if cap ≤ no then .error .overflow else t.eval O cap nv (no + 1)
  | .bin s l r, nv, no =>
      match l.eval O cap nv no with
      | .error e => .error e
      | .ok v₁ =>
          if cap ≤ no then .error .overflow
          else
            match r.eval O cap (nv + 1) (no + 1) with
            | .error e => .error e
            | .ok v₂ =>
                match O.apply s v₁ v₂ with
                | .error e => .error (.apply e)
                | .ok v => .ok v

/-- The operators folded over the tree, whatever the size of the stacks. -/
def fold (O : Operators V S E) : Tree V S → Except E V
  | .lit v => .ok v
  | .paren t => t.fold O
  | .bin s l r =>
      match l.fold O with
      | .error e => .error e
      | .ok v₁ =>
          match r.fold O with
          | .error e => .error e
          | .ok v₂ => O.apply s v₁ v₂

/-- How many operands are pending at once. -/
def operands : Tree V S → Nat
  | .lit _ => 1
  | .paren t => t.operands
  | .bin _ l r => max l.operands (1 + r.operands)

/-- How many operators and open parentheses are pending at once. -/
def operators : Tree V S → Nat
  | .lit _ => 0
  | .paren t => 1 + t.operators
  | .bin _ l r => max l.operators (1 + r.operators)

end Tree

/-! ## The machine computes the tree -/

section Correctness

variable {O : Operators V S E} {cap : Nat}

/-- Operators below the top are left alone. -/
theorem reduceWhile_of_head {q : S → Bool} {ops : List S} (h : ∀ s ∈ ops.head?, q s = false)
    (vals : List V) : reduceWhile O q ops vals = .ok { vals := vals, ops := ops } := by
  cases ops with
  | nil => rfl
  | cons s ops =>
      have hs : q s = false := h s rfl
      simp [reduceWhile, hs]

/-- An operator that outlives the tree binds less tightly than its operator. -/
theorem left_outlived {p : Int} {s : S} {q : S → Bool} {ops : List S} (hps : p ≤ O.prec s)
    (hq : ∀ s, p ≤ O.prec s → q s = true) (hops : ∀ s ∈ ops.head?, q s = false) :
    ∀ s' ∈ ops.head?, (decide (O.prec s ≤ O.prec s')) = false := by
  intro s' hs'
  rcases Int.lt_or_le (O.prec s') p with hlt | hle
  · simpa using Int.lt_of_lt_of_le hlt hps
  · have hq' := hq s' hle
    rw [hops s' hs'] at hq'
    cases hq'

/-- Reducing as far as `q` goes can begin with reducing as far as a stronger condition goes. -/
theorem reduceWhile_split {p q : S → Bool} (hpq : ∀ s, p s = true → q s = true) (ops : List S)
    (vals : List V) :
    reduceWhile O q ops vals =
      (reduceWhile O p ops vals).bind fun st => reduceWhile O q st.ops st.vals := by
  induction ops generalizing vals with
  | nil => rfl
  | cons s ops ih =>
      cases hp : p s with
      | false => simp [reduceWhile, hp, Except.bind]
      | true =>
          have hq := hpq s hp
          match vals with
          | [] => simp [reduceWhile, hp, hq, Except.bind]
          | [v] => simp [reduceWhile, hp, hq, Except.bind]
          | v₂ :: v₁ :: vals =>
              simp only [reduceWhile, hp, hq, if_true]
              cases O.apply s v₁ v₂ with
              | ok v => exact ih (v :: vals)
              | error e => rfl

theorem bind_bind {ε : Type u} {α : Type v} {β : Type w} {γ : Type v} (x : Except ε α)
    (f : α → Except ε β) (g : β → Except ε γ) :
    (x.bind f).bind g = x.bind fun a => (f a).bind g := by
  cases x <;> rfl

theorem run_append [DecidableEq S] (ts us : List (Token V S)) (st : Stacks V S) :
    run O cap (ts ++ us) st = (run O cap ts st).bind (run O cap us) := by
  induction ts generalizing st with
  | nil => rfl
  | cons t ts ih =>
      simp only [List.cons_append, run]
      cases step O cap st t with
      | ok st' => exact ih st'
      | error e => rfl

theorem run_singleton [DecidableEq S] (t : Token V S) (st : Stacks V S) :
    run O cap [t] st = step O cap st t := by
  simp only [run]
  cases step O cap st t <;> rfl

/-- After the tokens of the tree, reducing what belongs to the tree leaves its value on top of what was
pending before.  What belongs to it are the operators of precedence `p` and above. -/
def Computes [DecidableEq S] (O : Operators V S E) (cap : Nat) (t : Tree V S) (p : Int) : Prop :=
  ∀ q : S → Bool, (∀ s, p ≤ O.prec s → q s = true) → ∀ (vals : List V) (ops : List S),
    (∀ s ∈ ops.head?, q s = false) →
      ((run O cap t.tokens { vals := vals, ops := ops }).bind fun st =>
          reduceWhile O q st.ops st.vals) =
        (t.eval O cap vals.length ops.length).map fun v => { vals := v :: vals, ops := ops }

section Trees

variable [DecidableEq S] {p : Int}

theorem computes_lit (v : V) : Computes O cap (.lit v) p := by
  intro q _ vals ops hops
  simp only [Tree.tokens, Tree.eval, run, step, Stacks.pushVal]
  split
  · rfl
  · exact reduceWhile_of_head hops (v :: vals)

/-- The inner tree is reduced as far as its open parenthesis, which is popped. -/
theorem computes_paren {t : Tree V S} (ht : Computes O cap t 0) : Computes O cap t.paren p := by
  intro q _ vals ops hops
  simp only [Tree.tokens, Tree.eval, run, step, Stacks.pushOp]
  split
  · rfl
  · have htop : ∀ s ∈ (O.lpar :: ops).head?, (decide (s ≠ O.lpar)) = false := by simp
    have hall : ∀ s, 0 ≤ O.prec s → (decide (s ≠ O.lpar)) = true := by
      intro s hs
      have hne : s ≠ O.lpar := by
        rintro rfl
        have hneg := O.lpar_prec
        omega
      simpa using hne
    have hinner := ht (fun s => s ≠ O.lpar) hall vals (O.lpar :: ops) htop
    simp only [Except.bind, run_append, run, step] at hinner ⊢
    simp only [List.length_cons] at hinner
    cases hrun : run O cap t.tokens { vals := vals, ops := O.lpar :: ops } with
    | error e =>
        rw [hrun] at hinner
        simp only at hinner ⊢
        cases heval : t.eval O cap vals.length (ops.length + 1) with
        | ok v => simp [heval, Except.map] at hinner
        | error e' =>
            simp only [heval, Except.map, Except.error.injEq] at hinner ⊢
            exact hinner
    | ok st =>
        rw [hrun] at hinner
        simp only at hinner ⊢
        rw [hinner]
        cases t.eval O cap vals.length (ops.length + 1) with
        | error e => rfl
        | ok v => exact reduceWhile_of_head hops (v :: vals)

/-- Between the two operands of an operator, the left one is reduced and the operator pushed. -/
theorem run_bin (s : S) (l r : Tree V S) (vals : List V) (ops : List S) :
    run O cap (Tree.bin s l r).tokens { vals := vals, ops := ops } =
      ((run O cap l.tokens { vals := vals, ops := ops }).bind fun st =>
        reduceWhile O (fun s' => O.prec s ≤ O.prec s') st.ops st.vals).bind fun st =>
          (st.pushOp cap s).bind (run O cap r.tokens) := by
  simp only [Tree.tokens, run_append, run, step, bind_bind]

/-- The right operand is reduced above its operator, and then the rest. -/
theorem right_reduced {s : S} {r : Tree V S} (hr : Computes O cap r (O.prec s + 1)) {q : S → Bool}
    (hps : p ≤ O.prec s) (hq : ∀ s, p ≤ O.prec s → q s = true) (vals : List V) (ops : List S) :
    ((run O cap r.tokens { vals := vals, ops := s :: ops }).bind fun st =>
        reduceWhile O q st.ops st.vals) =
      ((r.eval O cap vals.length (ops.length + 1)).map
        fun v => ({ vals := v :: vals, ops := s :: ops } : Stacks V S)).bind
          fun st => reduceWhile O q st.ops st.vals := by
  have hless : ∀ s' ∈ (s :: ops).head?, (decide (O.prec s + 1 ≤ O.prec s')) = false := by
    intro s' hs'
    cases hs'
    exact decide_eq_false (Int.not_le.2 (Int.lt_succ (O.prec s)))
  have hright := hr (fun s' => O.prec s + 1 ≤ O.prec s') (fun s' hs' => by simpa using hs') vals
    (s :: ops) hless
  have hsplit : ∀ st : Stacks V S, reduceWhile O q st.ops st.vals =
      (reduceWhile O (fun s' => O.prec s + 1 ≤ O.prec s') st.ops st.vals).bind
        fun st => reduceWhile O q st.ops st.vals := fun st =>
    reduceWhile_split (fun s' hs' => hq s' (by
      have hle : O.prec s + 1 ≤ O.prec s' := by simpa using hs'
      omega)) st.ops st.vals
  simp only [List.length_cons] at hright
  rw [← hright, bind_bind]
  exact congrArg _ (funext hsplit)

theorem computes_bin {s : S} {l r : Tree V S} (hps : p ≤ O.prec s)
    (hl : Computes O cap l (O.prec s)) (hr : Computes O cap r (O.prec s + 1)) :
    Computes O cap (.bin s l r) p := by
  intro q hq vals ops hops
  have hleft := hl (fun s' => O.prec s ≤ O.prec s') (fun s' hs' => by simpa using hs') vals ops
    (left_outlived hps hq hops)
  rw [run_bin, hleft]
  simp only [Tree.eval]
  cases l.eval O cap vals.length ops.length with
  | error e => rfl
  | ok v₁ =>
      by_cases hfull : cap ≤ ops.length
      · simp only [Except.map, Except.bind, Stacks.pushOp, hfull, if_true]
      · have hpush : Stacks.pushOp cap { vals := v₁ :: vals, ops := ops } s =
            (.ok { vals := v₁ :: vals, ops := s :: ops } : Except (Stop E) (Stacks V S)) := by
          simp [Stacks.pushOp, hfull]
        have hfinish := right_reduced hr hps hq (v₁ :: vals) ops
        simp only [List.length_cons, Except.map, Except.bind, hpush, hfull, if_false] at hfinish ⊢
        refine hfinish.trans ?_
        cases r.eval O cap (vals.length + 1) (ops.length + 1) with
        | error e => rfl
        | ok v₂ =>
            simp only [reduceWhile, hq s hps, if_true]
            cases O.apply s v₁ v₂ with
            | error e => rfl
            | ok v => exact reduceWhile_of_head hops (v :: vals)

theorem run_tokens (t : Tree V S) (h : t.WellPlaced O p) : Computes O cap t p := by
  induction t generalizing p with
  | lit v => exact computes_lit v
  | paren t ih => exact computes_paren (ih h)
  | bin s l r ihl ihr =>
      rcases h with ⟨hps, hl, hr⟩
      exact computes_bin hps (ihl hl) (ihr hr)

end Trees

/-- Reading a tree and applying what is left computes its value. -/
theorem drain_run [DecidableEq S] (t : Tree V S) (h : t.WellPlaced O 0) :
    (run O cap t.tokens { vals := [], ops := [] }).bind (drain O) =
      (t.eval O cap 0 0).map fun v => { vals := [v], ops := [] } :=
  run_tokens t h (fun _ => true) (fun _ _ => rfl) [] [] (by simp)

end Correctness

/-! ## The value of a tree and its fold -/

section Fold

variable {O : Operators V S E} {cap : Nat}

namespace Tree

/-- The stacks are large enough for the tree, with `nv` and `no` entries pending around it. -/
def Fits (cap : Nat) (t : Tree V S) (nv no : Nat) : Prop :=
  nv + t.operands ≤ cap ∧ no + t.operators ≤ cap

instance (t : Tree V S) (nv no : Nat) : Decidable (t.Fits cap nv no) := by
  unfold Fits
  infer_instance

theorem mapError_ok {F : Type w} (f : E → F) (v : V) :
    (Except.ok v : Except E V).mapError f = .ok v := rfl

theorem eval_of_fits (t : Tree V S) {nv no : Nat} (h : t.Fits cap nv no) :
    t.eval O cap nv no = (t.fold O).mapError .apply := by
  induction t generalizing nv no with
  | lit v =>
      have hroom : ¬ cap ≤ nv := by
        have hnv := h.1
        simp only [operands] at hnv
        omega
      simp only [eval, fold, hroom, if_false]
      rfl
  | paren t ih =>
      rcases h with ⟨hnv, hno⟩
      simp only [operands, operators] at hnv hno
      -- the operator has a place on its stack, and so have those of the operands
      have hroom : ¬ cap ≤ no := by omega
      simp only [eval, fold, hroom, if_false]
      exact ih ⟨hnv, by omega⟩
  | bin s l r ihl ihr =>
      rcases h with ⟨hnv, hno⟩
      simp only [operands, operators] at hnv hno
      have hroom : ¬ cap ≤ no := by omega
      simp only [eval, fold, hroom, if_false]
      rw [ihl ⟨by omega, by omega⟩, ihr ⟨by omega, by omega⟩]
      cases l.fold O with
      | error e => rfl
      | ok v₁ =>
          cases r.fold O with
          | error e => rfl
          | ok v₂ =>
              simp only [mapError_ok]
              cases O.apply s v₁ v₂ <;> rfl

/-- A tree that needs more room than there is overflows, unless an operator fails before. -/
theorem eval_of_not_fits (t : Tree V S) {nv no : Nat} (hno : no ≤ cap)
    (h : ¬ t.Fits cap nv no) :
    t.eval O cap nv no = .error .overflow ∨
      ∃ e, t.eval O cap nv no = .error (.apply e) ∧ t.fold O = .error e := by
  induction t generalizing nv no with
  | lit v =>
      have hfull : cap ≤ nv := by
        simp only [Fits, operands, operators] at h
        omega
      exact .inl (by simp [eval, hfull])
  | paren t ih =>
      by_cases hfull : cap ≤ no
      · exact .inl (by simp [eval, hfull])
      · simp only [eval, fold, hfull, if_false]
        refine ih (by omega) fun hfits => h ⟨hfits.1, ?_⟩
        have hinner := hfits.2
        simp only [operators]
        omega
  | bin s l r ihl ihr =>
      -- the left operand does not fit, or the right one above its value does not
      by_cases hl : l.Fits cap nv no
      · simp only [eval, fold, eval_of_fits l hl]
        cases l.fold O with
        | error e => exact .inr ⟨e, rfl, rfl⟩
        | ok v₁ =>
            simp only [mapError_ok]
            by_cases hfull : cap ≤ no
            · exact .inl (by simp [hfull])
            · have hr : ¬ r.Fits cap (nv + 1) (no + 1) := by
                simp only [Fits, operands, operators] at h hl ⊢
                omega
              simp only [hfull, if_false]
              rcases ihr (by omega) hr with heval | ⟨e, heval, hfold⟩
              · exact .inl (by simp [heval])
              · exact .inr ⟨e, by simp [heval], by simp [hfold]⟩
      · rcases ihl hno hl with heval | ⟨e, heval, hfold⟩
        · exact .inl (by simp [eval, heval])
        · exact .inr ⟨e, by simp [eval, heval], by simp [fold, hfold]⟩

end Tree

end Fold

end ShuntingYard
end Lib
end WhitexKernel
