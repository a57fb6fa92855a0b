/-!
# Transition — labelled partial machines and their runs

A machine is a partial step function `step : σ → α → Option σ`; a run feeds it a list of labels.

* `exec step s as` — the state the labels `as` lead to, if every one of them is enabled;
* `AllStates step Q s as` — `Q` holds of every state the run passes through;
* `AllSteps step P s as` — `P` holds of every step of the run, at the state before it;
* `AllTried step P s as` — `P` holds of every step the run tries, also of one that is not enabled;
* `AllLater step R s as` — `R` holds of every two states of the run, the earlier and the later one.

The rules below turn a fact about one step into a fact about whole runs.
-/

namespace WhitexKernel
namespace Lib

universe u v w

variable {σ : Type u} {α : Type v}

/-! ## Runs -/

/-- The state reached from `s` by the labels `as`; `none` once a label is not enabled. -/
def exec (step : σ → α → Option σ) : σ → List α → Option σ
  | s, [] => some s
  | s, a :: as => (step s a).bind fun t => exec step t as

/-- `t` is reached from `s` by some run. -/
def Reachable (step : σ → α → Option σ) (s t : σ) : Prop :=
  ∃ as : List α, exec step s as = some t

/-- `Q` holds of every state of the run of `as` from `s`, the first one included. -/
def AllStates (step : σ → α → Option σ) (Q : σ → Prop) : σ → List α → Prop
  | s, [] => Q s
  | s, a :: as => Q s ∧ ∀ t, step s a = some t → AllStates step Q t as

/-- `P` holds of every enabled step of the run of `as` from `s`, at the state before the step. -/
def AllSteps (step : σ → α → Option σ) (P : σ → α → Prop) : σ → List α → Prop
  | _, [] => True
  | s, a :: as => ∀ t, step s a = some t → P s a ∧ AllSteps step P t as

/-- `P` holds of every step that the run of `as` from `s` tries, the one it stops at included. -/
def AllTried (step : σ → α → Option σ) (P : σ → α → Prop) : σ → List α → Prop
  | _, [] => True
  | s, a :: as => P s a ∧ ∀ t, step s a = some t → AllTried step P t as

/-- `R` holds of every two states of the run of `as` from `s`, the earlier and the later one. -/
def AllLater (step : σ → α → Option σ) (R : σ → σ → Prop) : σ → List α → Prop
  | s, [] => R s s
  | s, a :: as =>
      AllStates step (R s) s (a :: as) ∧ ∀ t, step s a = some t → AllLater step R t as

instance decidableAllSteps (step : σ → α → Option σ) (P : σ → α → Prop)
    [∀ s a, Decidable (P s a)] : ∀ s as, Decidable (AllSteps step P s as)
  | _, [] => isTrue trivial
  | s, a :: as =>
      match h : step s a with
      | none => isTrue fun t ht => by simp [h] at ht
      | some t =>
          have : Decidable (AllSteps step P t as) := decidableAllSteps step P t as
          decidable_of_iff (P s a ∧ AllSteps step P t as)
            ⟨fun hp u hu => by
              rw [h, Option.some.injEq] at hu
              exact hu ▸ hp, fun hp => hp t h⟩

instance decidableAllStates (step : σ → α → Option σ) (Q : σ → Prop) [DecidablePred Q] :
    ∀ s as, Decidable (AllStates step Q s as)
  | s, [] => inferInstanceAs (Decidable (Q s))
  | s, a :: as =>
      match h : step s a with
      | none => decidable_of_iff (Q s)
          ⟨fun hs => ⟨hs, fun t ht => by simp [h] at ht⟩, fun hs => hs.1⟩
      | some t =>
          have : Decidable (AllStates step Q t as) := decidableAllStates step Q t as
          decidable_of_iff (Q s ∧ AllStates step Q t as)
            ⟨fun hs => ⟨hs.1, fun u hu => by
              rw [h, Option.some.injEq] at hu
              exact hu ▸ hs.2⟩, fun hs => ⟨hs.1, hs.2 t h⟩⟩

section Runs

variable {step : σ → α → Option σ}

@[simp] theorem exec_nil (s : σ) : exec step s [] = some s := rfl

@[simp] theorem exec_cons (s : σ) (a : α) (as : List α) :
    exec step s (a :: as) = (step s a).bind fun t => exec step t as := rfl

theorem exec_append (s : σ) (as bs : List α) :
    exec step s (as ++ bs) = (exec step s as).bind fun t => exec step t bs := by
  induction as generalizing s with
  | nil => simp
  | cons a as ih =>
      cases h : step s a with
      | none => simp [h]
      | some t => simp [h, ih]

/-- A test of the state a run leads to. -/
theorem exists_of_exec_any {s : σ} {as : List α} {p : σ → Bool}
    (h : (exec step s as).any p = true) : ∃ t, exec step s as = some t ∧ p t = true := by
  cases hexec : exec step s as with
  | none => simp [hexec] at h
  | some t => exact ⟨t, rfl, by simpa [hexec] using h⟩

namespace Reachable

theorem refl (s : σ) : Reachable step s s := ⟨[], rfl⟩

theorem tail {s t u : σ} {a : α} (h : Reachable step s t) (hstep : step t a = some u) :
    Reachable step s u := by
  rcases h with ⟨as, has⟩
  refine ⟨as ++ [a], ?_⟩
  simp [exec_append, has, hstep]

theorem trans {s t u : σ} (hst : Reachable step s t) (htu : Reachable step t u) :
    Reachable step s u := by
  rcases hst with ⟨as, has⟩
  rcases htu with ⟨bs, hbs⟩
  exact ⟨as ++ bs, by simpa [exec_append, has] using hbs⟩

/-- What holds at the start and is kept by every step holds of every reachable state. -/
theorem invariant {I : σ → Prop} (hkeep : ∀ s a t, I s → step s a = some t → I t)
    {s t : σ} (hs : I s) (h : Reachable step s t) : I t := by
  rcases h with ⟨as, has⟩
  induction as generalizing s with
  | nil =>
      cases has
      exact hs
  | cons a as ih =>
      cases hstep : step s a with
      | none => simp [hstep] at has
      | some u =>
          have hrest : exec step u as = some t := by simpa [hstep] using has
          exact ih (hkeep s a u hs hstep) hrest

end Reachable

/-! ## From steps to runs -/

/-- `AllStates` speaks about the last state of the run, too. -/
theorem AllStates.last {Q : σ → Prop} {s t : σ} {as : List α}
    (h : AllStates step Q s as) (hexec : exec step s as = some t) : Q t := by
  induction as generalizing s with
  | nil =>
      cases hexec
      exact h
  | cons a as ih =>
      cases hstep : step s a with
      | none => simp [hstep] at hexec
      | some u =>
          have hrest : exec step u as = some t := by simpa [hstep] using hexec
          exact ih (h.2 u hstep) hrest

/-- `AllStates` speaks about the first state of the run. -/
theorem AllStates.head {Q : σ → Prop} {s : σ} {as : List α} (h : AllStates step Q s as) : Q s := by
  cases as with
  | nil => exact h
  | cons a as => exact h.1

theorem AllStates.mono {Q R : σ → Prop} (hQR : ∀ s, Q s → R s) {s : σ} {as : List α}
    (h : AllStates step Q s as) : AllStates step R s as := by
  induction as generalizing s with
  | nil => exact hQR s h
  | cons a as ih => exact ⟨hQR s h.1, fun t ht => ih (h.2 t ht)⟩

theorem AllStates.and {Q R : σ → Prop} {s : σ} {as : List α} (hQ : AllStates step Q s as)
    (hR : AllStates step R s as) : AllStates step (fun s => Q s ∧ R s) s as := by
  induction as generalizing s with
  | nil => exact ⟨hQ, hR⟩
  | cons a as ih => exact ⟨⟨hQ.1, hR.1⟩, fun t ht => ih (hQ.2 t ht) (hR.2 t ht)⟩

theorem AllSteps.mono {P R : σ → α → Prop} (hPR : ∀ s a, P s a → R s a) {s : σ} {as : List α}
    (h : AllSteps step P s as) : AllSteps step R s as := by
  induction as generalizing s with
  | nil => trivial
  | cons a as ih => exact fun t ht => ⟨hPR s a (h t ht).1, ih (h t ht).2⟩

theorem allSteps_of_forall {P : σ → α → Prop} (hP : ∀ s a, P s a) (s : σ) (as : List α) :
    AllSteps step P s as := by
  induction as generalizing s with
  | nil => trivial
  | cons a as ih => exact fun t _ => ⟨hP s a, ih t⟩

theorem allSteps_of_forall_mem {P : α → Prop} {as : List α} (h : ∀ a ∈ as, P a) (s : σ) :
    AllSteps step (fun _ a => P a) s as := by
  induction as generalizing s with
  | nil => trivial
  | cons a as ih =>
      exact fun t _ => ⟨h a List.mem_cons_self, ih (fun b hb => h b (List.mem_cons_of_mem a hb)) t⟩

theorem AllSteps.and {P R : σ → α → Prop} {s : σ} {as : List α} (hP : AllSteps step P s as)
    (hR : AllSteps step R s as) : AllSteps step (fun s a => P s a ∧ R s a) s as := by
  induction as generalizing s with
  | nil => trivial
  | cons a as ih =>
      intro t ht
      exact ⟨⟨(hP t ht).1, (hR t ht).1⟩, ih (hP t ht).2 (hR t ht).2⟩

/-- What holds of every state holds before every step. -/
theorem AllStates.allSteps {Q : σ → Prop} {s : σ} {as : List α} (h : AllStates step Q s as) :
    AllSteps step (fun s _ => Q s) s as := by
  induction as generalizing s with
  | nil => trivial
  | cons a as ih => exact fun t ht => ⟨h.1, ih (h.2 t ht)⟩

/-- What a step needs that leads from a good state to a good state, all steps of a good run meet. -/
theorem AllStates.allSteps_of_step {Q : σ → Prop} {P : σ → α → Prop}
    (hP : ∀ s a t, Q s → step s a = some t → Q t → P s a) {s : σ} {as : List α}
    (h : AllStates step Q s as) : AllSteps step P s as := by
  induction as generalizing s with
  | nil => trivial
  | cons a as ih =>
      intro t ht
      exact ⟨hP s a t h.1 ht (h.2 t ht).head, ih (h.2 t ht)⟩

/-- Weakening a condition on steps with the help of an invariant. -/
theorem AllSteps.mono_of_invariant {J : σ → Prop} {P R : σ → α → Prop}
    (hJ : ∀ s a t, J s → step s a = some t → J t)
    (hPR : ∀ s a t, J s → step s a = some t → P s a → R s a) {s : σ} {as : List α} (hs : J s)
    (h : AllSteps step P s as) : AllSteps step R s as := by
  induction as generalizing s with
  | nil => trivial
  | cons a as ih =>
      intro t ht
      exact ⟨hPR s a t hs ht (h t ht).1, ih (hJ s a t hs ht) (h t ht).2⟩

/-- A run all of whose steps meet `P` stays inside an invariant that such steps keep. -/
theorem allStates_of_allSteps {I : σ → Prop} {P : σ → α → Prop}
    (hkeep : ∀ s a t, I s → P s a → step s a = some t → I t)
    {s : σ} {as : List α} (hs : I s) (h : AllSteps step P s as) : AllStates step I s as := by
  induction as generalizing s with
  | nil => exact hs
  | cons a as ih =>
      refine ⟨hs, fun t ht => ?_⟩
      have hstep := h t ht
      exact ih (hkeep s a t hs hstep.1 ht) hstep.2

/-- What holds of the steps of a run, they meet inside an invariant that they keep. -/
theorem AllSteps.and_of_invariant {I : σ → Prop} {P : σ → α → Prop}
    (hkeep : ∀ s a t, I s → P s a → step s a = some t → I t)
    {s : σ} {as : List α} (hs : I s) (h : AllSteps step P s as) :
    AllSteps step (fun s a => I s ∧ P s a) s as := by
  induction as generalizing s with
  | nil => trivial
  | cons a as ih =>
      intro t ht
      have hstep := h t ht
      exact ⟨⟨hs, hstep.1⟩, ih (hkeep s a t hs hstep.1 ht) hstep.2⟩

theorem AllSteps.append_left {P : σ → α → Prop} {s : σ} {as bs : List α}
    (h : AllSteps step P s (as ++ bs)) : AllSteps step P s as := by
  induction as generalizing s with
  | nil => trivial
  | cons a as ih => exact fun t ht => ⟨(h t ht).1, ih (h t ht).2⟩

/-- `AllSteps` speaks about the steps of the rest of a run. -/
theorem AllSteps.of_exec {P : σ → α → Prop} {s t : σ} {as bs : List α}
    (h : AllSteps step P s (as ++ bs)) (hst : exec step s as = some t) : AllSteps step P t bs := by
  induction as generalizing s with
  | nil =>
      cases hst
      exact h
  | cons a as ih =>
      cases hstep : step s a with
      | none => simp [hstep] at hst
      | some u =>
          have hrest : exec step u as = some t := by simpa [hstep] using hst
          exact ih (h u hstep).2 hrest

/-- A run stays inside an invariant. -/
theorem allStates_of_invariant {I : σ → Prop} (hkeep : ∀ s a t, I s → step s a = some t → I t)
    {s : σ} (hs : I s) (as : List α) : AllStates step I s as := by
  induction as generalizing s with
  | nil => exact hs
  | cons a as ih => exact ⟨hs, fun t ht => ih (hkeep s a t hs ht)⟩

/-- If, inside an invariant `J` that every step keeps, a step from a good state meets `R` and leads
to a good state exactly when it meets `P`, then a run of such steps is good throughout exactly when
all its steps meet `P`. -/
theorem allSteps_and_allStates_iff {J Q : σ → Prop} {R P : σ → α → Prop}
    (hJ : ∀ s a t, J s → step s a = some t → J t)
    (hQ : ∀ s a t, J s → Q s → step s a = some t → (R s a ∧ Q t ↔ P s a))
    {s : σ} {as : List α} (hJs : J s) (hQs : Q s) :
    AllSteps step R s as ∧ AllStates step Q s as ↔ AllSteps step P s as := by
  induction as generalizing s with
  | nil => exact ⟨fun _ => trivial, fun _ => ⟨trivial, hQs⟩⟩
  | cons a as ih =>
      constructor
      · rintro ⟨hR, _, hrest⟩ t ht
        have hQt : Q t := (hrest t ht).head
        exact ⟨(hQ s a t hJs hQs ht).1 ⟨(hR t ht).1, hQt⟩,
          (ih (hJ s a t hJs ht) hQt).1 ⟨(hR t ht).2, hrest t ht⟩⟩
      · intro h
        have hstep : ∀ t, step s a = some t →
            (R s a ∧ Q t) ∧ AllSteps step R t as ∧ AllStates step Q t as := by
          intro t ht
          have hgood : R s a ∧ Q t := (hQ s a t hJs hQs ht).2 (h t ht).1
          exact ⟨hgood, (ih (hJ s a t hJs ht) hgood.2).2 (h t ht).2⟩
        exact ⟨fun t ht => ⟨(hstep t ht).1.1, (hstep t ht).2.1⟩,
          hQs, fun t ht => (hstep t ht).2.2⟩

/-- The same with nothing asked of the steps themselves. -/
theorem allStates_iff_allSteps {J Q : σ → Prop} {P : σ → α → Prop}
    (hJ : ∀ s a t, J s → step s a = some t → J t)
    (hQ : ∀ s a t, J s → Q s → step s a = some t → (Q t ↔ P s a))
    {s : σ} {as : List α} (hJs : J s) (hQs : Q s) :
    AllStates step Q s as ↔ AllSteps step P s as := by
  have htrivial : AllSteps step (fun _ _ => True) s as :=
    allSteps_of_forall (fun _ _ => trivial) s as
  have hboth : AllSteps step (fun _ _ => True) s as ∧ AllStates step Q s as ↔
      AllSteps step P s as :=
    allSteps_and_allStates_iff hJ
      (fun s a t hJs hQs ht => by simpa using hQ s a t hJs hQs ht) hJs hQs
  simpa [htrivial] using hboth

/-- In a run whose steps meet `N` and whose states meet `Q`, the steps meet `P`, if inside an
invariant that steps meeting `N` keep, only those lead to a state meeting `Q`. -/
theorem allSteps_of_allStates {J Q : σ → Prop} {N P : σ → α → Prop}
    (hJ : ∀ s a t, J s → N s a → step s a = some t → J t)
    (hP : ∀ s a t, J s → N s a → step s a = some t → Q t → P s a)
    {s : σ} {as : List α} (hs : J s) (hN : AllSteps step N s as) (hQ : AllStates step Q s as) :
    AllSteps step P s as := by
  induction as generalizing s with
  | nil => trivial
  | cons a as ih =>
      intro t ht
      have hstep := hN t ht
      have hrest := hQ.2 t ht
      exact ⟨hP s a t hs hstep.1 ht hrest.head, ih (hJ s a t hs hstep.1 ht) hstep.2 hrest⟩

/-- Two conditions that agree inside an invariant hold of the steps of the same runs. -/
theorem allTried_congr {J : σ → Prop} {P R : σ → α → Prop}
    (hJ : ∀ s a t, J s → step s a = some t → J t) (hPR : ∀ s a, J s → (P s a ↔ R s a))
    {s : σ} (hs : J s) (as : List α) : AllTried step P s as ↔ AllTried step R s as := by
  induction as generalizing s with
  | nil => exact Iff.rfl
  | cons a as ih =>
      refine and_congr (hPR s a hs) ?_
      exact forall₂_congr fun t ht => ih (hJ s a t hs ht)

/-- What holds of every state holds of every one a step is tried in. -/
theorem AllStates.allTried {Q : σ → Prop} {s : σ} {as : List α} (h : AllStates step Q s as) :
    AllTried step (fun s _ => Q s) s as := by
  induction as generalizing s with
  | nil => trivial
  | cons a as ih => exact ⟨h.1, fun t ht => ih (h.2 t ht)⟩

/-- A run that is not good throughout comes to a first state that is not good. -/
theorem exists_first_of_not_allStates {Q : σ → Prop} {s : σ} {as : List α}
    (h : ¬ AllStates step Q s as) :
    ∃ (bs cs : List α) (t : σ), as = bs ++ cs ∧ exec step s bs = some t ∧ ¬ Q t ∧
      AllTried step (fun s _ => Q s) s bs := by
  induction as generalizing s with
  | nil => exact ⟨[], [], s, rfl, rfl, h, trivial⟩
  | cons a as ih =>
      by_cases hs : Q s
      · have hrest : ∃ t, step s a = some t ∧ ¬ AllStates step Q t as := by
          apply Classical.byContradiction
          intro hnone
          exact h ⟨hs, fun t ht => Classical.byContradiction fun hbad => hnone ⟨t, ht, hbad⟩⟩
        rcases hrest with ⟨u, hu, hbad⟩
        rcases ih hbad with ⟨bs, cs, t, rfl, hexec, ht, htried⟩
        refine ⟨a :: bs, cs, t, rfl, ?_, ht, hs, fun v hv => ?_⟩
        · rw [exec_cons, hu]
          exact hexec
        · rw [hu, Option.some.injEq] at hv
          exact hv ▸ htried
      · exact ⟨[], a :: as, s, rfl, rfl, hs, trivial⟩

/-! ## Two machines -/

/-- Two machines that stay related, one step after the other, are related after a whole run. -/
theorem exec_rel {τ : Type w} {step' : τ → α → Option τ} {R : σ → τ → Prop} {Q : τ → Prop}
    (hstep : ∀ s t a, R s t → Q t → Option.Rel R (step s a) (step' t a)) {s : σ} {t : τ}
    (hst : R s t) {as : List α} (h : AllTried step' (fun t _ => Q t) t as) :
    Option.Rel R (exec step s as) (exec step' t as) := by
  induction as generalizing s t with
  | nil => exact .some hst
  | cons a as ih =>
      -- both take the step, or neither does
      have hfirst := hstep s t a hst h.1
      rw [exec_cons, exec_cons]
      cases hs : step s a with
      | none =>
          rw [hs] at hfirst
          cases ht : step' t a with
          | none => exact .none
          | some u =>
              rw [ht] at hfirst
              cases hfirst
      | some v =>
          rw [hs] at hfirst
          cases ht : step' t a with
          | none =>
              rw [ht] at hfirst
              cases hfirst
          | some u =>
              rw [ht] at hfirst
              cases hfirst with
              | some hvu => exact ih hvu (h.2 u ht)

/-- The first machine follows where the second one leads. -/
theorem exists_exec_of_rel {τ : Type w} {step' : τ → α → Option τ} {R : σ → τ → Prop}
    {Q : τ → Prop} (hstep : ∀ s t a, R s t → Q t → Option.Rel R (step s a) (step' t a)) {s : σ}
    {t t' : τ} (hst : R s t) {as : List α} (h : AllTried step' (fun t _ => Q t) t as)
    (ht : exec step' t as = some t') : ∃ s', exec step s as = some s' ∧ R s' t' := by
  have hrel := exec_rel hstep hst h
  rw [ht] at hrel
  cases hs : exec step s as with
  | none =>
      rw [hs] at hrel
      cases hrel
  | some s' =>
      rw [hs] at hrel
      cases hrel with
      | some hst' => exact ⟨s', rfl, hst'⟩

/-! ## What lasts -/

/-- `AllLater` speaks about two states that a run comes by. -/
theorem AllLater.of_exec {R : σ → σ → Prop} {s t u : σ} {as bs : List α}
    (h : AllLater step R s (as ++ bs)) (hst : exec step s as = some t)
    (htu : exec step t bs = some u) : R t u := by
  induction as generalizing s with
  | nil =>
      cases hst
      cases bs with
      | nil =>
          cases htu
          exact h
      | cons b bs => exact h.1.last htu
  | cons a as ih =>
      cases hstep : step s a with
      | none => simp [hstep] at hst
      | some s' =>
          have hrest : exec step s' as = some t := by simpa [hstep] using hst
          exact ih (h.2 s' hstep) hrest

/-- What is reflexive and transitive lasts throughout a run exactly when every step keeps it. -/
theorem allLater_iff_allSteps {R : σ → σ → Prop} (hrefl : ∀ s, R s s)
    (htrans : ∀ s t u, R s t → R t u → R s u) (s : σ) (as : List α) :
    AllLater step R s as ↔ AllSteps step (fun s a => ∀ t, step s a = some t → R s t) s as := by
  induction as generalizing s with
  | nil => exact ⟨fun _ => trivial, fun _ => hrefl s⟩
  | cons a as ih =>
      constructor
      · intro h t ht
        refine ⟨fun u hu => (h.1.2 u hu).head, (ih t).1 (h.2 t ht)⟩
      · intro h
        refine ⟨?_, fun t ht => (ih t).2 (h t ht).2⟩
        refine allStates_of_allSteps (I := R s) ?_ (hrefl s) h
        intro u b v hsu hkeep hstep
        exact htrans s u v hsu (hkeep v hstep)

end Runs

/-! ## Progress -/

/-- A machine gets to `P` by labels of a kind when one of them always leads closer. -/
theorem exists_foldl_of_decreasing {step : σ → α → σ} {I P : σ → Prop} {labels : α → Prop}
    (μ : σ → Nat)
    (hstep : ∀ s, I s → ¬ P s → ∃ a, labels a ∧ I (step s a) ∧ μ (step s a) < μ s) {s : σ}
    (hs : I s) : ∃ as : List α, (∀ a ∈ as, labels a) ∧ P (as.foldl step s) := by
  induction hμ : μ s using Nat.strongRecOn generalizing s with
  | ind n ih =>
      by_cases hdone : P s
      · exact ⟨[], nofun, hdone⟩
      · rcases hstep s hs hdone with ⟨a, ha, hkeep, hless⟩
        rcases ih _ (hμ ▸ hless) hkeep rfl with ⟨as, has, hend⟩
        refine ⟨a :: as, fun b hb => ?_, hend⟩
        rcases List.mem_cons.1 hb with rfl | hb
        · exact ha
        · exact has b hb

end Lib
end WhitexKernel
