import WhitexKernel.Lib.Transition

/-!
# Since — what the past of a run says about its present

* `Since start stop events` — something of the kind `start` has happened, and nothing of the kind
  `stop` after it;
* `observed step note s as` — what is noted on the run of `as` from `s`.

`Since` looks at a history as a whole, a machine only at its state; `since_concat` says how the
first changes with one more event, and `observed_invariant` carries it along a run.
-/

namespace WhitexKernel
namespace Lib

universe u v w

/-! ## Histories -/

section Histories

variable {ε : Type w} {start stop : ε → Prop}

/-- One of the `events` starts it, and none of the later ones stops it. -/
def Since (start stop : ε → Prop) (events : List ε) : Prop :=
  ∃ earlier event later, events = earlier ++ event :: later ∧ start event ∧
    ∀ e ∈ later, ¬ stop e

theorem not_since_nil : ¬ Since start stop [] := by
  rintro ⟨earlier, event, later, hsplit, _⟩
  exact List.cons_ne_nil event later (List.append_eq_nil_iff.1 hsplit.symm).2

/-- The last event starts it, or it was so before and the last event does not stop it. -/
theorem since_concat (events : List ε) (last : ε) :
    Since start stop (events ++ [last]) ↔ start last ∨ Since start stop events ∧ ¬ stop last := by
  constructor
  · rintro ⟨earlier, event, later, hsplit, hstart, hlater⟩
    rcases List.eq_nil_or_concat later with rfl | ⟨later, other, rfl⟩
    · have hlast := (List.append_inj' hsplit rfl).2
      cases hlast
      exact .inl hstart
    · rw [List.concat_eq_append, ← List.cons_append, ← List.append_assoc] at hsplit
      have hends := List.append_inj' hsplit rfl
      cases hends.2
      refine .inr ⟨⟨earlier, event, later, hends.1, hstart, fun e he => ?_⟩, ?_⟩
      · exact hlater e (by simp [he])
      · exact hlater last (by simp)
  · rintro (hstart | ⟨⟨earlier, event, later, rfl, hstart, hlater⟩, hlast⟩)
    · exact ⟨events, last, [], rfl, hstart, nofun⟩
    · refine ⟨earlier, event, later ++ [last], by simp, hstart, fun e he => ?_⟩
      rcases List.mem_append.1 he with hmem | hmem
      · exact hlater e hmem
      · rw [List.mem_singleton.1 hmem]
        exact hlast

end Histories

/-! ## Notes on a run -/

section Observed

variable {σ : Type u} {α : Type v} {ε : Type w} {step : σ → α → Option σ}
  {note : σ → α → Option ε}

/-- What is noted on the steps of a run, in their order. -/
def observed (step : σ → α → Option σ) (note : σ → α → Option ε) : σ → List α → List ε
  | _, [] => []
  | s, a :: as =>
      (note s a).toList ++ ((step s a).map fun t => observed step note t as).getD []

/-- What holds of the state and the events so far, and is kept by a step with its note, holds at the
end of every run. -/
theorem observed_invariant {I : List ε → σ → Prop}
    (hkeep : ∀ events s a t, I events s → step s a = some t → I (events ++ (note s a).toList) t)
    {events : List ε} {s t : σ} {as : List α} (hs : I events s) (hexec : exec step s as = some t) :
    I (events ++ observed step note s as) t := by
  induction as generalizing events s with
  | nil =>
      cases hexec
      rw [observed, List.append_nil]
      exact hs
  | cons a as ih =>
      rw [exec_cons] at hexec
      obtain ⟨u, hstep, hrest⟩ := Option.bind_eq_some_iff.1 hexec
      rw [observed, hstep, Option.map_some, Option.getD_some, ← List.append_assoc]
      exact ih (hkeep events s a u hs hstep) hrest

end Observed

end Lib
end WhitexKernel
