import Mathlib.Data.Finmap
import Mathlib.Data.Finset.Card
import Mathlib.Data.Finset.Range

/-!
# BoundedMap — maps with room for a number of keys, and tables of slots that hold them

A new key is taken into a `BoundedMap` as long as there is room; a key that is in it can always get
another value.  A table has a slot for every key: a binding goes to the slot of its key, or else to
the first free one.

* `BoundedMap.lookup_puts` — a key has the value of the last binding for it that was taken in;
* `Slots.Holds.lookup_eq`, `Slots.Holds.store` — a table that holds a map looks up and stores like it.
-/

namespace WhitexKernel
namespace Lib

universe u

variable {κ ν : Type u} [DecidableEq κ] {cap : Nat}

/-- A map of at most `cap` keys. -/
structure BoundedMap (κ ν : Type u) [DecidableEq κ] (cap : Nat) where
  bindings : Finmap fun _ : κ => ν
  card_le : bindings.keys.card ≤ cap

namespace BoundedMap

def empty : BoundedMap κ ν cap :=
  { bindings := ∅
    card_le := by simp }

def lookup (m : BoundedMap κ ν cap) (k : κ) : Option ν := m.bindings.lookup k

/-- The number of keys. -/
def size (m : BoundedMap κ ν cap) : Nat := m.bindings.keys.card

/-- A binding for `k` is taken in: the map has the key already, or room for another one. -/
def Accepts (m : BoundedMap κ ν cap) (k : κ) : Prop := (m.lookup k).isSome = true ∨ m.size < cap

instance (m : BoundedMap κ ν cap) (k : κ) : Decidable (m.Accepts k) :=
  inferInstanceAs (Decidable (_ ∨ _))

theorem keys_insert (f : Finmap fun _ : κ => ν) (k : κ) (v : ν) :
    (f.insert k v).keys = insert k f.keys := by
  ext a
  simp [Finmap.mem_keys]

/-- A map with one more binding, or another value for a key. -/
def put (m : BoundedMap κ ν cap) (k : κ) (v : ν) : BoundedMap κ ν cap :=
  if h : m.Accepts k then
    { bindings := m.bindings.insert k v
      card_le := by
        rw [keys_insert]
        rcases h with hsome | hroom
        · rw [Finset.insert_eq_of_mem (Finmap.mem_keys.2 (Finmap.lookup_isSome.1 hsome))]
          exact m.card_le
        · exact (Finset.card_insert_le _ _).trans hroom }
  else m

section Put

variable (m : BoundedMap κ ν cap) {k other : κ} {v : ν}

@[simp] theorem lookup_empty (k : κ) : (empty : BoundedMap κ ν cap).lookup k = none :=
  Finmap.lookup_empty k

theorem lookup_put_self (h : m.Accepts k) : (m.put k v).lookup k = some v := by
  unfold put
  rw [dif_pos h]
  exact Finmap.lookup_insert _

/-- A binding for one key does not change the others. -/
theorem lookup_put_of_ne (h : other ≠ k) : (m.put k v).lookup other = m.lookup other := by
  unfold put
  split
  · exact Finmap.lookup_insert_of_ne _ h
  · rfl

theorem put_of_not_accepts (h : ¬ m.Accepts k) : m.put k v = m := dif_neg h

theorem lookup_put (h : m.Accepts k) :
    (m.put k v).lookup other = if other = k then some v else m.lookup other := by
  split
  case isTrue heq =>
    rw [heq]
    exact m.lookup_put_self h
  case isFalse hne => exact m.lookup_put_of_ne hne

end Put

/-! ## Histories -/

def puts (m : BoundedMap κ ν cap) (bindings : List (κ × ν)) : BoundedMap κ ν cap :=
  bindings.foldl (fun m b => m.put b.1 b.2) m

/-- The bindings that are taken in, one after the other. -/
def accepted (m : BoundedMap κ ν cap) : List (κ × ν) → List (κ × ν)
  | [] => []
  | b :: rest =>
      if m.Accepts b.1 then b :: (m.put b.1 b.2).accepted rest else m.accepted rest

/-- A key has the value of the last binding for it that was taken in. -/
theorem lookup_puts (m : BoundedMap κ ν cap) (bindings : List (κ × ν)) (k : κ) :
    (m.puts bindings).lookup k = ((m.accepted bindings).reverse.lookup k).or (m.lookup k) := by
  induction bindings generalizing m with
  | nil => simp [puts, accepted]
  | cons b rest ih =>
      have hrest : (m.puts (b :: rest)).lookup k =
          (((m.put b.1 b.2).accepted rest).reverse.lookup k).or ((m.put b.1 b.2).lookup k) :=
        ih (m.put b.1 b.2)
      rw [hrest, accepted]
      split
      case isTrue h =>
        obtain ⟨key, value⟩ := b
        rw [List.reverse_cons, List.lookup_append, Option.or_assoc, m.lookup_put h]
        by_cases hk : k = key
        · simp [hk]
        · have hbeq : (k == key) = false := by simpa using hk
          simp [List.lookup_cons, hk, hbeq]
      case isFalse h => rw [m.put_of_not_accepts h]

/-- What is bound to other keys does not change. -/
theorem lookup_puts_of_not_mem (m : BoundedMap κ ν cap) {bindings : List (κ × ν)} {k : κ}
    (h : ∀ b ∈ bindings, k ≠ b.1) : (m.puts bindings).lookup k = m.lookup k := by
  induction bindings generalizing m with
  | nil => rfl
  | cons b rest ih =>
      have hrest : (m.puts (b :: rest)).lookup k = (m.put b.1 b.2).lookup k :=
        ih (m.put b.1 b.2) fun c hc => h c (List.mem_cons_of_mem b hc)
      rw [hrest, m.lookup_put_of_ne (h b List.mem_cons_self)]

/-- A key that is new takes up room. -/
theorem size_put_new (m : BoundedMap κ ν cap) {k : κ} (hnew : m.lookup k = none)
    (hroom : m.size < cap) (v : ν) : (m.put k v).size = m.size + 1 := by
  have hmem : k ∉ m.bindings.keys := by
    rw [Finmap.mem_keys]
    exact Finmap.lookup_eq_none.1 hnew
  have haccepts : m.Accepts k := .inr hroom
  unfold size put
  rw [dif_pos haccepts, keys_insert, Finset.card_insert_of_notMem hmem]

/-- Different new keys take up room each. -/
theorem size_puts (m : BoundedMap κ ν cap) {bindings : List (κ × ν)}
    (hnodup : (bindings.map Prod.fst).Nodup) (hnew : ∀ b ∈ bindings, m.lookup b.1 = none)
    (hroom : m.size + bindings.length ≤ cap) :
    (m.puts bindings).size = m.size + bindings.length := by
  induction bindings generalizing m with
  | nil => rfl
  | cons b rest ih =>
      rw [List.map_cons, List.nodup_cons] at hnodup
      rw [List.length_cons] at hroom
      have hsize := m.size_put_new (hnew b List.mem_cons_self) (by omega) b.2
      have hrest : ∀ c ∈ rest, (m.put b.1 b.2).lookup c.1 = none := by
        intro c hc
        have hne : c.1 ≠ b.1 := fun heq => hnodup.1 (heq ▸ List.mem_map_of_mem hc)
        rw [m.lookup_put_of_ne hne]
        exact hnew c (List.mem_cons_of_mem b hc)
      have hfits : (m.put b.1 b.2).size + rest.length ≤ cap := by omega
      calc (m.puts (b :: rest)).size
          = (m.put b.1 b.2).size + rest.length := ih _ hnodup.2 hrest hfits
        _ = m.size + (b :: rest).length := by
          rw [hsize, List.length_cons]
          omega

end BoundedMap

/-! ## Tables -/

namespace Slots

variable (slots : Nat → Option (κ × ν)) (cap)

/-- The first slot with a binding for `k`. -/
def index (k : κ) : Option Nat := (List.range cap).find? fun i => (slots i).any fun b => b.1 = k

/-- The first slot without a binding. -/
def freeIndex : Option Nat := (List.range cap).find? fun i => (slots i).isNone

def lookup (k : κ) : Option ν := ((index cap slots k).bind slots).map Prod.snd

/-- A binding goes to the slot of its key, or to the first free one, or nowhere. -/
def store (k : κ) (v : ν) : Nat → Option (κ × ν) :=
  match index cap slots k with
  | some i => Function.update slots i (some (k, v))
  | none =>
      match freeIndex cap slots with
      | some i => Function.update slots i (some (k, v))
      | none => slots

variable {slots cap}

theorem index_eq_some {k : κ} {i : Nat} (h : index cap slots k = some i) :
    i < cap ∧ ∃ v, slots i = some (k, v) := by
  have hmem := List.mem_range.1 (List.mem_of_find?_eq_some h)
  have hany := List.find?_some h
  cases hslot : slots i with
  | none => simp [hslot] at hany
  | some b =>
      have hkey : b.1 = k := by simpa [hslot] using hany
      exact ⟨hmem, b.2, by rw [← hkey]⟩

theorem index_eq_none {k : κ} :
    index cap slots k = none ↔ ∀ i < cap, ∀ v, slots i ≠ some (k, v) := by
  unfold index
  rw [List.find?_eq_none]
  constructor
  · intro h i hi v hslot
    have hnot := h i (List.mem_range.2 hi)
    simp [hslot] at hnot
  · intro h i hi hany
    cases hslot : slots i with
    | none => simp [hslot] at hany
    | some b =>
        have hkey : b.1 = k := by simpa [hslot] using hany
        exact h i (List.mem_range.1 hi) b.2 (by rw [hslot, ← hkey])

omit [DecidableEq κ] in
theorem freeIndex_eq_some {i : Nat} (h : freeIndex cap slots = some i) :
    i < cap ∧ slots i = none :=
  ⟨List.mem_range.1 (List.mem_of_find?_eq_some h), by simpa using List.find?_some h⟩

omit [DecidableEq κ] in
theorem freeIndex_eq_none : freeIndex cap slots = none ↔ ∀ i < cap, slots i ≠ none := by
  unfold freeIndex
  rw [List.find?_eq_none]
  simp

/-- No key is in two slots, and the bindings of the slots are those of `m`. -/
structure Holds (slots : Nat → Option (κ × ν)) (m : BoundedMap κ ν cap) : Prop where
  unique : ∀ i < cap, ∀ j < cap, ∀ k v w, slots i = some (k, v) → slots j = some (k, w) → i = j
  bound_iff : ∀ k v, m.lookup k = some v ↔ ∃ i < cap, slots i = some (k, v)

namespace Holds

variable {m : BoundedMap κ ν cap} {k : κ}

theorem empty (h : ∀ i < cap, slots i = none) :
    Holds slots (BoundedMap.empty : BoundedMap κ ν cap) := by
  refine ⟨fun i hi j _ k v w hslot _ => ?_, fun k v => ?_⟩
  · rw [h i hi] at hslot
    cases hslot
  · rw [BoundedMap.lookup_empty]
    constructor
    · intro hnone
      cases hnone
    · rintro ⟨i, hi, hslot⟩
      rw [h i hi] at hslot
      cases hslot

theorem lookup_eq (h : Holds slots m) (k : κ) : Slots.lookup cap slots k = m.lookup k := by
  unfold Slots.lookup
  cases hindex : index cap slots k with
  | none =>
      cases hlookup : m.lookup k with
      | none => rfl
      | some v =>
          obtain ⟨i, hi, hslot⟩ := (h.bound_iff k v).1 hlookup
          exact absurd hslot (index_eq_none.1 hindex i hi v)
  | some i =>
      obtain ⟨hi, v, hslot⟩ := index_eq_some hindex
      rw [(h.bound_iff k v).2 ⟨i, hi, hslot⟩, Option.bind_some, hslot]
      rfl

/-- There is a slot in use for every key. -/
theorem size_eq (h : Holds slots m) :
    m.size = ((Finset.range cap).filter fun i => (slots i).isSome).card := by
  symm
  refine Finset.card_bij (fun i hi => ((slots i).get (Finset.mem_filter.1 hi).2).1) ?_ ?_ ?_
  · intro i hi
    obtain ⟨hlt, hsome⟩ := Finset.mem_filter.1 hi
    obtain ⟨b, hb⟩ := Option.isSome_iff_exists.1 hsome
    refine Finmap.mem_keys.2 (Finmap.mem_iff.2 ⟨b.2, (h.bound_iff _ _).2 ⟨i, ?_, ?_⟩⟩)
    · exact Finset.mem_range.1 hlt
    · simp [hb]
  · intro i hi j hj heq
    obtain ⟨hlti, hsomei⟩ := Finset.mem_filter.1 hi
    obtain ⟨hltj, hsomej⟩ := Finset.mem_filter.1 hj
    obtain ⟨b, hb⟩ := Option.isSome_iff_exists.1 hsomei
    obtain ⟨c, hc⟩ := Option.isSome_iff_exists.1 hsomej
    have hkey : b.1 = c.1 := by simpa [hb, hc] using heq
    exact h.unique i (Finset.mem_range.1 hlti) j (Finset.mem_range.1 hltj) b.1 b.2 c.2 hb
      (by rw [hc, hkey])
  · intro k hk
    obtain ⟨v, hv⟩ := Finmap.mem_iff.1 (Finmap.mem_keys.1 hk)
    obtain ⟨i, hi, hslot⟩ := (h.bound_iff k v).1 hv
    refine ⟨i, Finset.mem_filter.2 ⟨Finset.mem_range.2 hi, by simp [hslot]⟩, by simp [hslot]⟩

/-- A slot is free as long as there is room for a key. -/
theorem freeIndex_ne_none_iff (h : Holds slots m) : freeIndex cap slots ≠ none ↔ m.size < cap := by
  have hle : m.size ≤ cap := m.card_le
  have hfull : m.size = cap ↔ freeIndex cap slots = none := by
    have hcard := Finset.card_filter_eq_iff (s := Finset.range cap)
      (p := fun i => (slots i).isSome = true)
    rw [Finset.card_range] at hcard
    rw [h.size_eq, hcard, freeIndex_eq_none]
    simp [Option.isSome_iff_ne_none]
  rw [Ne, ← hfull]
  omega

/-- The slot `i`, which has the key already or is free when no other slot has it, gets the
binding. -/
theorem update (h : Holds slots m) {i : Nat} (hi : i < cap) (haccepts : m.Accepts k)
    (hown : ∀ other v, slots i = some (other, v) → other = k)
    (honly : ∀ j < cap, ∀ v, slots j = some (k, v) → j = i) (v : ν) :
    Holds (Function.update slots i (some (k, v))) (m.put k v) := by
  refine ⟨fun a ha b hb key x y hx hy => ?_, fun key x => ?_⟩
  -- two slots with one key: either is the written one, or they had it before
  · by_cases hai : a = i
    · by_cases hbi : b = i
      · rw [hai, hbi]
      · subst hai
        rw [Function.update_self] at hx
        rw [Function.update_of_ne hbi] at hy
        cases hx
        exact (honly b hb y hy).symm
    · rw [Function.update_of_ne hai] at hx
      by_cases hbi : b = i
      · subst hbi
        rw [Function.update_self] at hy
        cases hy
        exact honly a ha x hx
      · rw [Function.update_of_ne hbi] at hy
        exact h.unique a ha b hb key x y hx hy
  · rw [m.lookup_put haccepts]
    split
    case isTrue heq =>
      subst heq
      constructor
      · intro hv
        exact ⟨i, hi, by rw [Function.update_self, Option.some.inj hv]⟩
      · rintro ⟨j, hj, hslot⟩
        by_cases hji : j = i
        · subst hji
          rw [Function.update_self] at hslot
          cases hslot
          rfl
        · rw [Function.update_of_ne hji] at hslot
          exact absurd (honly j hj x hslot) hji
    case isFalse hne =>
      rw [h.bound_iff]
      refine exists_congr fun j => and_congr_right fun _ => ?_
      by_cases hji : j = i
      · subst hji
        rw [Function.update_self]
        constructor
        -- what the slot had was under the key as well, so no other key loses its value
        · intro hslot
          exact absurd (hown key x hslot) hne
        · intro hslot
          cases hslot
          exact absurd rfl hne
      · rw [Function.update_of_ne hji]

/-- A table stores what its map takes in. -/
theorem store (h : Holds slots m) (k : κ) (v : ν) :
    Holds (Slots.store cap slots k v) (m.put k v) := by
  unfold Slots.store
  cases hindex : index cap slots k with
  | some i =>
      obtain ⟨hi, w, hslot⟩ := index_eq_some hindex
      have hlookup := (h.bound_iff k w).2 ⟨i, hi, hslot⟩
      refine h.update hi (.inl (by rw [hlookup]; rfl)) (fun other x hx => ?_) (fun j hj x hx => ?_) v
      · rw [hslot] at hx
        cases hx
        rfl
      · exact h.unique j hj i hi k x w hx hslot
  | none =>
      have hnone := index_eq_none.1 hindex
      dsimp only
      cases hfree : freeIndex cap slots with
      | some i =>
          obtain ⟨hi, hslot⟩ := freeIndex_eq_some hfree
          have hroom : m.size < cap := h.freeIndex_ne_none_iff.1 (by rw [hfree]; exact nofun)
          refine h.update hi (.inr hroom) (fun other x hx => ?_) (fun j hj x hx => ?_) v
          · rw [hslot] at hx
            cases hx
          · exact absurd hx (hnone j hj x)
      | none =>
          -- neither a slot with the key nor a free one
          have hrejects : ¬ m.Accepts k := by
            rintro (hsome | hroom)
            · obtain ⟨x, hx⟩ := Option.isSome_iff_exists.1 hsome
              obtain ⟨i, hi, hslot⟩ := (h.bound_iff k x).1 hx
              exact hnone i hi x hslot
            · exact h.freeIndex_ne_none_iff.2 hroom hfree
          rw [m.put_of_not_accepts hrejects]
          exact h

end Holds

end Slots
end Lib
end WhitexKernel
