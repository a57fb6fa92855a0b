import Mathlib.Order.BooleanAlgebra.Set

/-!
# OwnedLock — a lock that knows its owner by a tag only

Processes of type `P` take turns on one lock.  The lock does not record which process took it, only
the tag that process showed, and it opens for anybody who shows that tag.  The set `holders` is
history: the processes whose acquisition has returned and that have not released since.

* `Exclusive` — at most one holder, and the lock is closed exactly while there is one;
* `Named` — a closed lock carries the tag of some holder;
* `Shares` — a process that holds nothing shows the tag of one that does.

`Named` survives every operation.  `Exclusive` survives, with the lock opened by its holder only,
exactly as long as no process that `Shares` the holder's tag calls release.
-/

namespace WhitexKernel
namespace Lib

universe u v

/-- A lock over processes `P` with tags `T`. -/
structure OwnedLock (P : Type u) (T : Type v) where
  closed : Prop
  owner : T
  holders : Set P

namespace OwnedLock

variable {P : Type u} {T : Type v}

/-! ## Operations -/

/-- `p` takes the lock and shows the tag `c`. -/
def acquire (l : OwnedLock P T) (c : T) (p : P) : OwnedLock P T :=
  { closed := True
    owner := c
    holders := insert p l.holders }

/-- `p` shows the tag `c` to release the lock; `nobody` is the tag of an open lock. -/
noncomputable def release [DecidableEq T] (l : OwnedLock P T) (nobody c : T) (p : P) :
    OwnedLock P T :=
  { closed := if l.owner = c then False else l.closed
    owner := if l.owner = c then nobody else l.owner
    holders := l.holders \ {p} }

/-! ## What is asked of a lock -/

/-- At most one holder, and the lock is closed exactly while there is one. -/
structure Exclusive (l : OwnedLock P T) : Prop where
  one : ∀ p q, p ∈ l.holders → q ∈ l.holders → p = q
  closed_iff : l.closed ↔ ∃ p, p ∈ l.holders

/-- A closed lock carries the tag of some holder. -/
def Named (tag : P → T) (l : OwnedLock P T) : Prop :=
  l.closed → ∃ p ∈ l.holders, tag p = l.owner

/-- `p` holds nothing and carries the tag of a holder. -/
def Shares (tag : P → T) (l : OwnedLock P T) (p : P) : Prop :=
  p ∉ l.holders ∧ ∃ q ∈ l.holders, tag q = tag p

/-! ## The owner is a holder -/

section Rules

variable {tag : P → T} {l : OwnedLock P T} {p : P}

/-- Only the tags of the holders count. -/
theorem Named.congr {tag' : P → T} (h : Named tag l) (htag : ∀ q ∈ l.holders, tag' q = tag q) :
    Named tag' l := by
  intro hclosed
  rcases h hclosed with ⟨q, hq, howner⟩
  exact ⟨q, hq, by rw [htag q hq, howner]⟩

theorem named_acquire (l : OwnedLock P T) (p : P) : Named tag (l.acquire (tag p) p) :=
  fun _ => ⟨p, Set.mem_insert p l.holders, rfl⟩

theorem Exclusive.acquire (h : l.Exclusive) (hopen : ¬ l.closed) (c : T) (p : P) :
    (l.acquire c p).Exclusive := by
  have hnone : ∀ q, q ∉ l.holders := fun q hq => hopen (h.closed_iff.2 ⟨q, hq⟩)
  constructor
  · intro q r hq hr
    have hqp : q = p := hq.resolve_right (hnone q)
    have hrp : r = p := hr.resolve_right (hnone r)
    exact hqp.trans hrp.symm
  · exact iff_of_true trivial ⟨p, Set.mem_insert p l.holders⟩

/-- In a lock that is exclusive and named, a holder's tag is the owner's. -/
theorem Exclusive.owner_eq (h : l.Exclusive) (hnamed : Named tag l) {q : P}
    (hq : q ∈ l.holders) : l.owner = tag q := by
  rcases hnamed (h.closed_iff.2 ⟨q, hq⟩) with ⟨r, hr, howner⟩
  rw [h.one q r hq hr, howner]

variable [DecidableEq T] {nobody : T}

/-- A release under another tag than the owner's takes nothing from the owner. -/
theorem Named.release (h : Named tag l) (nobody : T) (p : P) :
    Named tag (l.release nobody (tag p) p) := by
  intro hclosed
  by_cases hown : l.owner = tag p
  · simp [OwnedLock.release, hown] at hclosed
  · have hbefore : l.closed := by simpa [OwnedLock.release, hown] using hclosed
    rcases h hbefore with ⟨q, hq, htag⟩
    refine ⟨q, ⟨hq, ?_⟩, by simpa [OwnedLock.release, hown] using htag⟩
    rintro rfl
    exact hown htag.symm

/-- The release of a process that shares its tag with no holder leaves the lock exclusive. -/
theorem Exclusive.release (h : l.Exclusive) (hnamed : Named tag l) (hshares : ¬ Shares tag l p) :
    (l.release nobody (tag p) p).Exclusive := by
  constructor
  · exact fun q r hq hr => h.one q r hq.1 hr.1
  · by_cases hp : p ∈ l.holders
    · -- the holder's own release opens the lock and leaves no holder
      have hown : l.owner = tag p := h.owner_eq hnamed hp
      have hnone : ∀ q, q ∉ (l.release nobody (tag p) p).holders :=
        fun q hq => hq.2 (h.one q p hq.1 hp)
      simpa [OwnedLock.release, hown] using fun q hq => h.one q p hq hp
    · -- anybody else's release takes no holder away, and the tag opens nothing
      have hother : ∀ q ∈ l.holders, tag q ≠ tag p := by
        intro q hq htag
        exact hshares ⟨hp, q, hq, htag⟩
      have hholders : l.holders \ {p} = l.holders := Set.sdiff_singleton_eq_self hp
      have hclosed : (l.release nobody (tag p) p).closed ↔ l.closed := by
        by_cases hown : l.owner = tag p
        · have hopen : ¬ l.closed := by
            intro hc
            rcases hnamed hc with ⟨q, hq, howner⟩
            exact hother q hq (howner.trans hown)
          simp [OwnedLock.release, hown, hopen]
        · simp [OwnedLock.release, hown]
      rw [hclosed, h.closed_iff]
      exact exists_congr fun q => by rw [← hholders]; rfl

/-- A release keeps the lock exclusive, and opens it for its holder only, exactly when it does not
come from a process that shares the holder's tag. -/
theorem Exclusive.release_iff (h : l.Exclusive) (hnamed : Named tag l) :
    ((l.closed → ¬ (l.release nobody (tag p) p).closed → p ∈ l.holders) ∧
      (l.release nobody (tag p) p).Exclusive) ↔ ¬ Shares tag l p := by
  constructor
  · rintro ⟨hopened, _⟩ ⟨hp, q, hq, htag⟩
    -- the shared tag opens the lock that `q` holds
    have hown : l.owner = tag p := (h.owner_eq hnamed hq).trans htag
    have hopen : ¬ (l.release nobody (tag p) p).closed := by simp [OwnedLock.release, hown]
    exact hp (hopened (h.closed_iff.2 ⟨q, hq⟩) hopen)
  · intro hshares
    refine ⟨fun hclosed hopen => ?_, h.release hnamed hshares⟩
    have hown : l.owner = tag p := by
      by_contra hne
      exact hopen (by simpa [OwnedLock.release, hne] using hclosed)
    rcases hnamed hclosed with ⟨q, hq, howner⟩
    by_contra hp
    exact hshares ⟨hp, q, hq, howner.trans hown⟩

end Rules

end OwnedLock

end Lib
end WhitexKernel
