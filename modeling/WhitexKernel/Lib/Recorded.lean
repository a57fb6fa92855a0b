import Mathlib.Logic.Basic

/-!
# Recorded — partial code that keeps a record of what it does

Code of type `Recorded ω ε α` ends with a value or an error, and leaves the list of the events it has
noted on its way.  `result` forgets the record and is the code in `Except ε`.

* `Within P E Q m` — every event of `m` meets `P`, and what it ends with `E` or `Q`;
* `Within.bind` and its companions follow straight-line code.
-/

namespace WhitexKernel
namespace Lib

universe u v

/-- What code has noted until its end, and how it ends. -/
structure Recorded (ω : Type v) (ε : Type u) (α : Type u) where
  record : List ω
  result : Except ε α

namespace Recorded

variable {ω : Type v} {ε α β : Type u}

/-- An error ends the code, and what has been noted before stays. -/
def andThen (m : Recorded ω ε α) (f : α → Recorded ω ε β) : Recorded ω ε β :=
  match m.result with
  | .ok a =>
      { record := m.record ++ (f a).record
        result := (f a).result }
  | .error e =>
      { record := m.record
        result := .error e }

instance : Monad (Recorded ω ε) where
  pure a :=
    { record := []
      result := .ok a }
  bind := andThen

/-- Note one event. -/
def note (event : ω) : Recorded ω ε PUnit :=
  { record := [event]
    result := .ok ⟨⟩ }

/-- Code that notes nothing. -/
def silent (x : Except ε α) : Recorded ω ε α :=
  { record := []
    result := x }

/-! ## The code without its record -/

@[simp] theorem result_pure (a : α) : (pure a : Recorded ω ε α).result = pure a := rfl

@[simp] theorem result_note (event : ω) :
    (note event : Recorded ω ε PUnit).result = pure ⟨⟩ := rfl

@[simp] theorem result_silent (x : Except ε α) : (silent x : Recorded ω ε α).result = x := rfl

@[simp] theorem result_bind (m : Recorded ω ε α) (f : α → Recorded ω ε β) :
    (m >>= f).result = m.result >>= fun a => (f a).result := by
  show (andThen m f).result = _
  unfold andThen
  cases m.result with
  | ok a => rfl
  | error e => rfl

/-! ## What is noted -/

/-- Every event of `m` meets `P`, an error it ends with meets `E`, and its value meets `Q`. -/
structure Within (P : ω → Prop) (E : ε → Prop) (Q : α → Prop) (m : Recorded ω ε α) : Prop where
  record : ∀ event ∈ m.record, P event
  error : ∀ e, m.result = .error e → E e
  value : ∀ a, m.result = .ok a → Q a

namespace Within

variable {P : ω → Prop} {E : ε → Prop} {Q : α → Prop} {R : β → Prop}

theorem of_pure {a : α} (ha : Q a) : Within P E Q (pure a : Recorded ω ε α) := by
  refine ⟨fun event hevent => ?_, fun e he => ?_, fun b hb => ?_⟩
  · cases hevent
  · cases he
  · cases hb
    exact ha

theorem of_note {event : ω} (hevent : P event) :
    Within P E (fun _ => True) (note event : Recorded ω ε PUnit) := by
  refine ⟨fun other hother => ?_, fun e he => ?_, fun _ _ => trivial⟩
  · rw [List.mem_singleton.1 hother]
    exact hevent
  · cases he

theorem of_error {e : ε} (he : E e) : Within P E Q (silent (.error e) : Recorded ω ε α) := by
  refine ⟨fun event hevent => ?_, fun e' he' => ?_, fun a ha => ?_⟩
  · cases hevent
  · cases he'
    exact he
  · cases ha

theorem of_ok {x : Except ε α} {a : α} (hx : x = .ok a) (ha : Q a) :
    Within P E Q (silent x : Recorded ω ε α) := by
  rw [hx]
  exact of_pure ha

/-- A sequence stays within what both of its parts stay within. -/
theorem bind {m : Recorded ω ε α} {f : α → Recorded ω ε β} (hm : Within P E Q m)
    (hf : ∀ a, Q a → Within P E R (f a)) : Within P E R (m >>= f) := by
  show Within P E R (andThen m f)
  unfold andThen
  cases hresult : m.result with
  | ok a =>
      have hrest := hf a (hm.value a hresult)
      refine ⟨fun event hevent => ?_, hrest.error, hrest.value⟩
      rcases List.mem_append.1 hevent with hfirst | hlater
      · exact hm.record event hfirst
      · exact hrest.record event hlater
  | error e =>
      refine ⟨hm.record, fun e' he' => ?_, fun b hb => ?_⟩
      · cases he'
        exact hm.error e hresult
      · cases hb

end Within

end Recorded
end Lib
end WhitexKernel
