/-!
# Outcome — computations that may stop with an error

Rules for `Except` as the outcome of code that need not return: a sequence returns when each part
does, and a loop keeps what every round keeps.
-/

namespace WhitexKernel
namespace Lib
namespace Outcome

universe u v w

variable {ε : Type u} {α : Type v} {β : Type w}

@[simp] theorem ok_bind {β : Type v} (a : α) (f : α → Except ε β) : (Except.ok a >>= f) = f a := rfl

/-- A sequence returns exactly when its first part returns and then its second. -/
theorem bind_eq_ok {β : Type v} {x : Except ε α} {f : α → Except ε β} {b : β} :
    x >>= f = .ok b ↔ ∃ a, x = .ok a ∧ f a = .ok b := by
  cases x with
  | error e => simp [bind, Except.bind]
  | ok a => simp [bind, Except.bind]

/-- A loop that returns keeps what each of its rounds keeps. -/
theorem foldlM_invariant {I : β → Prop} {f : β → α → Except ε β} {l : List α}
    (hround : ∀ a ∈ l, ∀ b b', I b → f b a = .ok b' → I b') {b b' : β} (hb : I b)
    (h : l.foldlM f b = .ok b') : I b' := by
  induction l generalizing b with
  | nil =>
      cases h
      exact hb
  | cons a l ih =>
      rw [List.foldlM_cons, bind_eq_ok] at h
      rcases h with ⟨c, hround', hrest⟩
      refine ih ?_ (hround a (by simp) b c hb hround') hrest
      intro a' ha'
      exact hround a' (List.mem_cons_of_mem a ha')

/-- A loop over numbers keeps what its rounds lead from each number to the next. -/
theorem foldlM_range_invariant {I : Nat → β → Prop} {f : β → Nat → Except ε β} {n : Nat} {b b' : β}
    (hb : I 0 b) (hround : ∀ i < n, ∀ c c', I i c → f c i = .ok c' → I (i + 1) c')
    (h : (List.range n).foldlM f b = .ok b') : I n b' := by
  induction n generalizing b' with
  | zero =>
      cases h
      exact hb
  | succ n ih =>
      rw [List.range_succ, List.foldlM_append, bind_eq_ok] at h
      rcases h with ⟨c, hc, hlast⟩
      rw [List.foldlM_cons, bind_eq_ok] at hlast
      rcases hlast with ⟨c', hround', hend⟩
      cases hend
      exact hround n (Nat.lt_succ_self n) c b'
        (ih (fun i hi => hround i (Nat.lt_succ_of_lt hi)) hc) hround'

/-- `P` holds before every round that a loop comes to. -/
inductive AllRounds (f : β → α → Except ε β) (P : β → α → Prop) : β → List α → Prop
  | nil (b : β) : AllRounds f P b []
  | cons {b : β} {a : α} {l : List α} (head : P b a)
      (tail : ∀ c, f b a = .ok c → AllRounds f P c l) : AllRounds f P b (a :: l)

/-- A loop that returns keeps what is kept by its rounds under a condition that they all meet. -/
theorem AllRounds.invariant {I : β → Prop} {f : β → α → Except ε β} {P : β → α → Prop} {l : List α}
    (hround : ∀ a ∈ l, ∀ b b', I b → P b a → f b a = .ok b' → I b') {b b' : β}
    (hall : AllRounds f P b l) (hb : I b) (h : l.foldlM f b = .ok b') : I b' := by
  induction hall with
  | nil b =>
      cases h
      exact hb
  | cons head tail ih =>
      rw [List.foldlM_cons, bind_eq_ok] at h
      rcases h with ⟨c, hc, hrest⟩
      refine ih c hc ?_ (hround _ List.mem_cons_self _ c hb head hc) hrest
      exact fun a ha => hround a (List.mem_cons_of_mem _ ha)

/-- A loop returns if each of its rounds returns and keeps what the next one needs for it. -/
theorem foldlM_total {I : β → Prop} {f : β → α → Except ε β} {l : List α}
    (hround : ∀ a ∈ l, ∀ b, I b → ∃ b', f b a = .ok b' ∧ I b') {b : β} (hb : I b) :
    ∃ b', l.foldlM f b = .ok b' ∧ I b' := by
  induction l generalizing b with
  | nil => exact ⟨b, rfl, hb⟩
  | cons a l ih =>
      rcases hround a (by simp) b hb with ⟨c, hc, hIc⟩
      have hrest : ∃ b', l.foldlM f c = .ok b' ∧ I b' := by
        refine ih ?_ hIc
        intro a' ha'
        exact hround a' (List.mem_cons_of_mem a ha')
      rcases hrest with ⟨b', hb', hI⟩
      refine ⟨b', ?_, hI⟩
      rw [List.foldlM_cons, bind_eq_ok]
      exact ⟨c, hc, hb'⟩

/-- A loop over numbers returns if its rounds lead from each number to the next. -/
theorem foldlM_range_total {I : Nat → β → Prop} {f : β → Nat → Except ε β} {n : Nat} {b : β}
    (hb : I 0 b) (hround : ∀ i < n, ∀ c, I i c → ∃ c', f c i = .ok c' ∧ I (i + 1) c') :
    ∃ b', (List.range n).foldlM f b = .ok b' ∧ I n b' := by
  induction n with
  | zero => exact ⟨b, rfl, hb⟩
  | succ n ih =>
      rcases ih fun i hi => hround i (Nat.lt_succ_of_lt hi) with ⟨c, hc, hIc⟩
      rcases hround n (Nat.lt_succ_self n) c hIc with ⟨b', hb', hI⟩
      refine ⟨b', ?_, hI⟩
      rw [List.range_succ, List.foldlM_append, bind_eq_ok]
      refine ⟨c, hc, ?_⟩
      rw [List.foldlM_cons, bind_eq_ok]
      exact ⟨b', hb', rfl⟩

end Outcome
end Lib
end WhitexKernel
