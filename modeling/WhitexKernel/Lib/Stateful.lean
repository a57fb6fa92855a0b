/-!
# Stateful — sequential code over a state, and what holds after it

`wp m Q s` says that `Q` holds of the value and the state `m` ends with when it starts in `s`.  The
code is deterministic and always ends, so the rules are equivalences.

* `wp_bind` and its companions take straight-line code apart;
* `Keeps R m` says that `m` only changes the state along `R`, for a reflexive and transitive `R`.
-/

namespace WhitexKernel
namespace Lib
namespace Stateful

universe u

variable {σ α β : Type u}

/-- `Q` holds of what `m` returns from `s`, and of the state it leaves. -/
def wp (m : StateM σ α) (Q : α → σ → Prop) (s : σ) : Prop := Q (m s).1 (m s).2

theorem wp_iff {m : StateM σ α} {Q : α → σ → Prop} {s : σ} :
    wp m Q s ↔ Q (m s).1 (m s).2 := Iff.rfl

theorem wp_mono {m : StateM σ α} {Q R : α → σ → Prop} {s : σ} (h : wp m Q s)
    (hQR : ∀ a t, Q a t → R a t) : wp m R s := hQR _ _ h

theorem wp_and {m : StateM σ α} {Q R : α → σ → Prop} {s : σ} (hQ : wp m Q s) (hR : wp m R s) :
    wp m (fun a t => Q a t ∧ R a t) s := ⟨hQ, hR⟩

/-- `if (c) m;` -/
def whenever (c : Prop) [Decidable c] (m : StateM σ PUnit) : StateM σ PUnit :=
  if c then m else pure ⟨⟩

/-! ## Rules -/

@[simp] theorem wp_pure (a : α) (Q : α → σ → Prop) (s : σ) :
    wp (pure a : StateM σ α) Q s ↔ Q a s := Iff.rfl

@[simp] theorem wp_bind (m : StateM σ α) (f : α → StateM σ β) (Q : β → σ → Prop) (s : σ) :
    wp (m >>= f) Q s ↔ wp m (fun a t => wp (f a) Q t) s := Iff.rfl

@[simp] theorem wp_map (f : α → β) (m : StateM σ α) (Q : β → σ → Prop) (s : σ) :
    wp (f <$> m) Q s ↔ wp m (fun a t => Q (f a) t) s := Iff.rfl

@[simp] theorem wp_discard (m : StateM σ α) (Q : PUnit → σ → Prop) (s : σ) :
    wp (discard m) Q s ↔ wp m (fun _ t => Q ⟨⟩ t) s := Iff.rfl

@[simp] theorem wp_get (Q : σ → σ → Prop) (s : σ) : wp (get : StateM σ σ) Q s ↔ Q s s := Iff.rfl

@[simp] theorem wp_set (t : σ) (Q : PUnit → σ → Prop) (s : σ) :
    wp (set t : StateM σ PUnit) Q s ↔ Q ⟨⟩ t := Iff.rfl

@[simp] theorem wp_modify (f : σ → σ) (Q : PUnit → σ → Prop) (s : σ) :
    wp (modify f : StateM σ PUnit) Q s ↔ Q ⟨⟩ (f s) := Iff.rfl

theorem wp_ite (c : Prop) [Decidable c] (m n : StateM σ α) (Q : α → σ → Prop) (s : σ) :
    wp (if c then m else n) Q s ↔ (c → wp m Q s) ∧ (¬ c → wp n Q s) := by
  by_cases hc : c
  · simp [hc]
  · simp [hc]

theorem wp_whenever (c : Prop) [Decidable c] (m : StateM σ PUnit) (Q : PUnit → σ → Prop) (s : σ) :
    wp (whenever c m) Q s ↔ (c → wp m Q s) ∧ (¬ c → Q ⟨⟩ s) := wp_ite c m (pure ⟨⟩) Q s

theorem bind_apply (m : StateM σ α) (f : α → StateM σ β) (s : σ) :
    (m >>= f) s = f (m s).1 (m s).2 := rfl

theorem discard_apply (m : StateM σ α) (s : σ) : discard m s = (⟨⟩, (m s).2) := rfl

/-- Programs of which the same holds end the same way. -/
theorem eq_of_wp {m n : StateM σ α} {s t : σ} (h : ∀ Q, wp m Q s ↔ wp n Q t) : m s = n t :=
  (h fun a u => (a, u) = n t).2 rfl

/-- What a program ends with, if that is all that decides what holds of it. -/
theorem apply_eq_of_wp {m : StateM σ α} {s t : σ} {a : α} (h : ∀ Q, wp m Q s ↔ Q a t) :
    m s = (a, t) :=
  (h fun b u => (b, u) = (a, t)).2 rfl

-- Unification must not run programs; from here on the rules are all that is known of `wp`.
attribute [irreducible] wp

/-! ## Changes along a relation -/

/-- `m` takes every state to a related one. -/
def Keeps (R : σ → σ → Prop) (m : StateM σ α) : Prop := ∀ s, wp m (fun _ t => R s t) s

section Keeps

variable {R : σ → σ → Prop}

theorem Keeps.of_pure (hrefl : ∀ s, R s s) (a : α) : Keeps R (pure a : StateM σ α) := by
  intro s
  rw [wp_pure]
  exact hrefl s

theorem Keeps.bind (htrans : ∀ s t u, R s t → R t u → R s u) {m : StateM σ α}
    {f : α → StateM σ β} (hm : Keeps R m) (hf : ∀ a, Keeps R (f a)) : Keeps R (m >>= f) := by
  intro s
  rw [wp_bind]
  refine wp_mono (hm s) fun a t hst => ?_
  exact wp_mono (hf a t) fun _ u htu => htrans s t u hst htu

theorem Keeps.ite {c : Prop} [Decidable c] {m n : StateM σ α} (hm : Keeps R m) (hn : Keeps R n) :
    Keeps R (if c then m else n) := by
  split
  · exact hm
  · exact hn

theorem Keeps.whenever (hrefl : ∀ s, R s s) {c : Prop} [Decidable c] {m : StateM σ PUnit}
    (hm : Keeps R m) : Keeps R (whenever c m) := Keeps.ite hm (Keeps.of_pure hrefl _)

theorem Keeps.of_get (hrefl : ∀ s, R s s) : Keeps R (get : StateM σ σ) := by
  intro s
  rw [wp_get]
  exact hrefl s

theorem Keeps.of_modify {f : σ → σ} (h : ∀ s, R s (f s)) :
    Keeps R (modify f : StateM σ PUnit) := by
  intro s
  rw [wp_modify]
  exact h s

end Keeps

end Stateful
end Lib
end WhitexKernel
