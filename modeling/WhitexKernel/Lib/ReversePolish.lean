import WhitexKernel.Lib.ShuntingYard

/-!
# ReversePolish — what the two-stack machine makes of any token sequence

The operator stack alone decides in which order operands and operators come to be used: it turns the
tokens into a word in reverse Polish notation (`polish`).  No token sequence is excluded; a
parenthesis that is never closed ends as an operator, and one that was never opened only moves the
operators before it.

* `evaluate` — the operand stack, working through such a word;
* `drain_run_eq` — the machine evaluates the reverse Polish word of its tokens;
* `Stacked` — a word made of the words of expressions, one behind the other, with their values;
* `evaluate_eq_ok_iff`, `evaluate_eq_apply_iff` — when an evaluation succeeds, and when it stops at an
  operator that has no value.
-/

namespace WhitexKernel
namespace Lib
namespace ShuntingYard

universe u v w

variable {V : Type u} {S : Type v} {E : Type w}

/-! ## Words -/

/-- What the operator stack passes on; `full` when it has no room for another entry. -/
inductive Item (V : Type u) (S : Type v)
  | operand (v : V)
  | operator (s : S)
  | full

/-- The expression in reverse Polish notation. -/
def Tree.word : Tree V S → List (Item V S)
  | .lit v => [.operand v]
  | .paren t => t.word
  | .bin s l r => l.word ++ r.word ++ [.operator s]

section Words

variable (O : Operators V S E) (cap : Nat)

/-- The word of the tokens, with `ops` on the operator stack. -/
def polish [DecidableEq S] : List (Token V S) → List S → List (Item V S)
  | [], ops => ops.map .operator
  | .num v :: ts, ops => .operand v :: polish ts ops
  | .lpar :: ts, ops => if cap ≤ ops.length then [.full] else polish ts (O.lpar :: ops)
  | .rpar :: ts, ops =>
      (ops.takeWhile fun s => s ≠ O.lpar).map .operator ++
        polish ts (ops.dropWhile fun s => s ≠ O.lpar).tail
  | .op s :: ts, ops =>
      let rest := ops.dropWhile fun s' => O.prec s ≤ O.prec s'
      (ops.takeWhile fun s' => O.prec s ≤ O.prec s').map .operator ++
        if cap ≤ rest.length then [.full] else polish ts (s :: rest)

/-- The word worked through, with the values on the operand stack. -/
def evaluate : List (Item V S) → List V → Except (Stop E) (List V)
  | [], vals => .ok vals
  | .operand v :: is, vals =>
      if cap ≤ vals.length then .error .overflow else evaluate is (v :: vals)
  | .operator s :: is, vals =>
      match vals with
      | v₂ :: v₁ :: vals =>
          match O.apply s v₁ v₂ with
          | .ok v => evaluate is (v :: vals)
          | .error e => .error (.apply e)
      | _ => .error .malformed
  | .full :: _, _ => .error .overflow

end Words

/-! ## The machine evaluates the word of its tokens -/

section Machine

variable {O : Operators V S E} {cap : Nat}

theorem evaluate_append (is js : List (Item V S)) (vals : List V) :
    evaluate O cap (is ++ js) vals = (evaluate O cap is vals).bind (evaluate O cap js) := by
  induction is generalizing vals with
  | nil => rfl
  | cons i is ih =>
      cases i with
      | full => rfl
      | operand v =>
          simp only [List.cons_append, evaluate]
          split
          · rfl
          · exact ih (v :: vals)
      | operator s =>
          match vals with
          | [] => rfl
          | [v] => rfl
          | v₂ :: v₁ :: vals =>
              simp only [List.cons_append, evaluate]
              cases O.apply s v₁ v₂ with
              | ok v => exact ih (v :: vals)
              | error e => rfl

/-- A reduction evaluates the operators it takes off the stack. -/
theorem reduceWhile_eq_evaluate (q : S → Bool) (ops : List S) (vals : List V) :
    reduceWhile O q ops vals =
      (evaluate O cap ((ops.takeWhile q).map .operator) vals).map fun vals =>
        { vals := vals, ops := ops.dropWhile q } := by
  induction ops generalizing vals with
  | nil => rfl
  | cons s ops ih =>
      cases hs : q s with
      | false => simp [reduceWhile, hs, evaluate, Except.map]
      | true =>
          rw [List.takeWhile_cons_of_pos hs, List.dropWhile_cons_of_pos hs]
          rcases vals with _ | ⟨v₂, _ | ⟨v₁, vals⟩⟩
          · simp [reduceWhile, hs, evaluate, Except.map]
          · simp [reduceWhile, hs, evaluate, Except.map]
          · simp only [reduceWhile, hs, if_true, List.map_cons, evaluate]
            cases O.apply s v₁ v₂ with
            | ok v => exact ih (v :: vals)
            | error e => rfl

/-- Reading tokens and applying what is left evaluates their word. -/
theorem drain_run_eq [DecidableEq S] (ts : List (Token V S)) (ops : List S) (vals : List V) :
    (run O cap ts { vals := vals, ops := ops }).bind (drain O) =
      (evaluate O cap (polish O cap ts ops) vals).map fun vals => { vals := vals, ops := [] } := by
  induction ts generalizing ops vals with
  | nil =>
      -- at the end of the text every operator is taken off
      have hdrop : ops.dropWhile (fun _ => true) = [] := by
        induction ops with
        | nil => rfl
        | cons s ops ih => rw [List.dropWhile_cons_of_pos rfl, ih]
      have htake : ops.takeWhile (fun _ => true) = ops := by
        have happend := List.takeWhile_append_dropWhile (p := fun _ => true) (l := ops)
        rwa [hdrop, List.append_nil] at happend
      simp only [run, drain, polish, Except.bind, @reduceWhile_eq_evaluate _ _ _ O cap,
        htake, hdrop]
  | cons t ts ih =>
      simp only [run, bind_bind]
      cases t with
      | num v =>
          simp only [step, Stacks.pushVal, polish, evaluate]
          split
          · rfl
          · exact ih ops (v :: vals)
      | lpar =>
          simp only [step, Stacks.pushOp, polish]
          split
          · rfl
          · exact ih (O.lpar :: ops) vals
      | rpar =>
          simp only [step, polish, evaluate_append,
            @reduceWhile_eq_evaluate _ _ _ O cap _ ops vals]
          cases evaluate O cap ((ops.takeWhile fun s => s ≠ O.lpar).map .operator) vals with
          | error stop => rfl
          | ok vals' => exact ih _ vals'
      | op s =>
          simp only [step, polish, evaluate_append,
            @reduceWhile_eq_evaluate _ _ _ O cap _ ops vals]
          cases evaluate O cap
              ((ops.takeWhile fun s' => O.prec s ≤ O.prec s').map .operator) vals with
          | error stop => rfl
          | ok vals' =>
              -- the stack of operators can overflow when the new one is put on it
              by_cases hfull : cap ≤ (ops.dropWhile fun s' => O.prec s ≤ O.prec s').length
              · simp only [Except.map, Except.bind, Stacks.pushOp, hfull, if_true, evaluate]
              · have hrest := ih (s :: ops.dropWhile fun s' => O.prec s ≤ O.prec s') vals'
                simp only [Except.map, Except.bind, Stacks.pushOp, hfull, if_false] at hrest ⊢
                exact hrest

end Machine

/-! ## Words of expressions -/

section Expressions

variable (O : Operators V S E) (cap : Nat)

/-- The word is made of the words of expressions that have the given values, the last one first, and
for which there is room on an operand stack of `cap` entries. -/
inductive Stacked : List (Item V S) → List V → Prop
  | nil : Stacked [] []
  | push {is : List (Item V S)} {vals : List V} {t : Tree V S} {v : V} (h : Stacked is vals)
      (hv : t.fold O = .ok v) (hroom : vals.length + t.operands ≤ cap) :
      Stacked (is ++ t.word) (v :: vals)

variable {O : Operators V S E} {cap : Nat}

/-- The word of an expression that has a value pushes it. -/
theorem evaluate_word (t : Tree V S) {v : V} {vals : List V} (hv : t.fold O = .ok v)
    (hroom : vals.length + t.operands ≤ cap) :
    evaluate O cap t.word vals = .ok (v :: vals) := by
  induction t generalizing v vals with
  | lit w =>
      have hfree : ¬ cap ≤ vals.length := by
        simp only [Tree.operands] at hroom
        omega
      cases hv
      simp only [Tree.word, evaluate, hfree, if_false]
  | paren t ih => exact ih hv hroom
  | bin s l r ihl ihr =>
      simp only [Tree.operands] at hroom
      simp only [Tree.fold] at hv
      cases hl : l.fold O with
      | error e => simp [hl] at hv
      | ok v₁ =>
          cases hr : r.fold O with
          | error e => simp [hl, hr] at hv
          | ok v₂ =>
              simp only [hl, hr] at hv
              -- the left operand lies below the right one
              have hleft : evaluate O cap l.word vals = .ok (v₁ :: vals) := ihl hl (by omega)
              have hright : evaluate O cap r.word (v₁ :: vals) = .ok (v₂ :: v₁ :: vals) := by
                refine ihr hr ?_
                rw [List.length_cons]
                omega
              simp only [Tree.word, evaluate_append, hleft, hright, Except.bind, evaluate, hv]

theorem Stacked.evaluate {is : List (Item V S)} {vals : List V} (h : Stacked O cap is vals) :
    evaluate O cap is [] = .ok vals := by
  induction h with
  | nil => rfl
  | push h hv hroom ih =>
      rw [evaluate_append, ih]
      exact evaluate_word _ hv hroom

/-- An operator behind two expressions makes one of them. -/
theorem Stacked.operator {is : List (Item V S)} {v₁ v₂ v : V} {vals : List V} {s : S}
    (h : Stacked O cap is (v₂ :: v₁ :: vals)) (hv : O.apply s v₁ v₂ = .ok v) :
    Stacked O cap (is ++ [.operator s]) (v :: vals) := by
  cases h with
  | @push _ _ r _ hl hr hrroom =>
      cases hl with
      | @push is _ l _ hrest hl hlroom =>
          have hfold : (Tree.bin s l r).fold O = .ok v := by
            simp only [Tree.fold, hl, hr, hv]
          have hroom : vals.length + (Tree.bin s l r).operands ≤ cap := by
            simp only [Tree.operands, List.length_cons] at hrroom ⊢
            omega
          have hpush := hrest.push hfold hroom
          simpa only [Tree.word, List.append_assoc] using hpush

/-- An evaluation that succeeds has gone over the words of expressions. -/
theorem Stacked.append {is js : List (Item V S)} {vals vals' : List V}
    (h : Stacked O cap is vals) (hjs : ShuntingYard.evaluate O cap js vals = .ok vals') :
    Stacked O cap (is ++ js) vals' := by
  induction js generalizing is vals with
  | nil =>
      cases hjs
      rwa [List.append_nil]
  | cons j js ih =>
      rw [← List.singleton_append, ← List.append_assoc]
      cases j with
      | full => cases hjs
      | operand v =>
          simp only [ShuntingYard.evaluate] at hjs
          split at hjs
          case isTrue => cases hjs
          case isFalse hroom =>
            -- an operand is a word of its own, and it has room
            have hlit : vals.length + (Tree.lit v : Tree V S).operands ≤ cap := by
              simp only [Tree.operands]
              omega
            exact ih (h.push (t := .lit v) rfl hlit) hjs
      | operator s =>
          -- an operator joins the last two words, and fails with fewer
          rcases vals with _ | ⟨v₂, _ | ⟨v₁, vals⟩⟩
          · cases hjs
          · cases hjs
          · simp only [ShuntingYard.evaluate] at hjs
            cases hv : O.apply s v₁ v₂ with
            | error e => simp [hv] at hjs
            | ok v =>
                simp only [hv] at hjs
                exact ih (h.operator hv) hjs

/-- A word has values exactly when it is made of the words of expressions with these values. -/
theorem evaluate_eq_ok_iff {is : List (Item V S)} {vals : List V} :
    evaluate O cap is [] = .ok vals ↔ Stacked O cap is vals :=
  ⟨fun h => by simpa using Stacked.nil.append h, Stacked.evaluate⟩

/-- A single value is that of one expression. -/
theorem stacked_singleton {is : List (Item V S)} {v : V} :
    Stacked O cap is [v] ↔ ∃ t : Tree V S, is = t.word ∧ t.fold O = .ok v ∧ t.operands ≤ cap := by
  constructor
  · intro h
    cases h with
    | @push is _ t _ hrest hv hroom =>
        cases hrest
        exact ⟨t, rfl, hv, by simpa using hroom⟩
  · rintro ⟨t, rfl, hv, hroom⟩
    exact Stacked.nil.push hv (by simpa using hroom)

/-- The evaluation stops at an operator without a value exactly when such an operator stands behind
the words of expressions. -/
theorem evaluate_eq_apply_iff {is : List (Item V S)} {e : E} :
    evaluate O cap is [] = .error (.apply e) ↔
      ∃ js s rest v₁ v₂ vals, is = js ++ .operator s :: rest ∧
        Stacked O cap js (v₂ :: v₁ :: vals) ∧ O.apply s v₁ v₂ = .error e := by
  constructor
  · suffices hrun : ∀ (ks js : List (Item V S)) (vals : List V), Stacked O cap js vals →
        evaluate O cap ks vals = .error (.apply e) →
        ∃ js' s rest v₁ v₂ vals', js ++ ks = js' ++ .operator s :: rest ∧
          Stacked O cap js' (v₂ :: v₁ :: vals') ∧ O.apply s v₁ v₂ = .error e by
      intro h
      exact hrun is [] [] .nil h
    intro ks
    induction ks with
    | nil =>
        intro js vals _ h
        cases h
    | cons k ks ih =>
        intro js vals hjs h
        -- before the operator that stops it, the evaluation goes on
        have hnext : ∀ vals', evaluate O cap [k] vals = .ok vals' →
            evaluate O cap ks vals' = .error (.apply e) →
            ∃ js' s rest v₁ v₂ vals', js ++ k :: ks = js' ++ .operator s :: rest ∧
              Stacked O cap js' (v₂ :: v₁ :: vals') ∧ O.apply s v₁ v₂ = .error e := by
          intro vals' hk hks
          have hrest := ih (js ++ [k]) vals' (hjs.append hk) hks
          rwa [List.append_assoc, List.singleton_append] at hrest
        cases k with
        | full => cases h
        | operand v =>
            simp only [evaluate] at h
            split at h
            case isTrue => cases h
            case isFalse hroom => exact hnext (v :: vals) (by simp [evaluate, hroom]) h
        | operator s =>
            match vals, hjs, hnext with
            | [], _, _ => cases h
            | [_], _, _ => cases h
            | v₂ :: v₁ :: vals, hjs, hnext =>
                simp only [evaluate] at h
                cases hv : O.apply s v₁ v₂ with
                | error e' =>
                    simp only [hv, Except.error.injEq, Stop.apply.injEq] at h
                    subst h
                    exact ⟨js, s, ks, v₁, v₂, vals, rfl, hjs, hv⟩
                | ok v =>
                    simp only [hv] at h
                    exact hnext (v :: vals) (by simp [evaluate, hv]) h
  · rintro ⟨js, s, rest, v₁, v₂, vals, rfl, hjs, hv⟩
    rw [evaluate_append, hjs.evaluate]
    simp only [Except.bind, evaluate, hv]

end Expressions

end ShuntingYard
end Lib
end WhitexKernel
