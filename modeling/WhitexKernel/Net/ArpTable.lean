import WhitexKernel.Lib.BoundedMap
import WhitexKernel.Net.Model

/-!
# ArpTable — the ARP cache is a map with room for 256 addresses

An entry in state 1 binds its address to its MAC address.  `wx_arp_update` is the store of a table of
slots and `wx_arp_lookup` its lookup, so after any updates the cache is the map that takes in an
address as long as there are fewer than 256 (`arpCache_isFiniteMap`).
-/

namespace WhitexKernel
namespace Net

open Lib Lib.Stateful Machine

/-! ## Entries as bindings -/

/-- What an entry binds. -/
def WxArpEntry.binding (entry : WxArpEntry) : Option (WxIpv4 × WxMac) :=
  if entry.state = 1 then some (entry.ip, entry.mac) else none

/-- The cache as a table of slots. -/
def arpSlots (cache : Nat → WxArpEntry) (i : Nat) : Option (WxIpv4 × WxMac) := (cache i).binding

/-- Every entry is free or in use. -/
def StatesKnown (cache : Nat → WxArpEntry) : Prop :=
  ∀ i, (cache i).state = 0 ∨ (cache i).state = 1

section Entries

variable {cache : Nat → WxArpEntry} {ip : WxIpv4} {mac : WxMac}

theorem binding_eq_some {entry : WxArpEntry} :
    entry.binding = some (ip, mac) ↔ entry.state = 1 ∧ entry.ip = ip ∧ entry.mac = mac := by
  unfold WxArpEntry.binding
  split
  case isTrue h => simp [h]
  case isFalse h => simp [h]

theorem arpIndex_eq (cache : Nat → WxArpEntry) (ip : WxIpv4) :
    arpIndex cache ip = Slots.index wxArpCacheSize (arpSlots cache) ip := by
  unfold arpIndex Slots.index arpSlots WxArpEntry.binding
  congr 1
  funext i
  by_cases hstate : (cache i).state = 1
  · simp [hstate]
  · simp [hstate]

theorem wxArpLookup_eq (cache : Nat → WxArpEntry) (ip : WxIpv4) :
    wxArpLookup cache ip = Slots.lookup wxArpCacheSize (arpSlots cache) ip := by
  unfold wxArpLookup Slots.lookup
  rw [arpIndex_eq]
  cases hindex : Slots.index wxArpCacheSize (arpSlots cache) ip with
  | none => rfl
  | some i =>
      obtain ⟨-, mac, hslot⟩ := Slots.index_eq_some hindex
      have hmac := (binding_eq_some.1 hslot).2.2
      rw [Option.map_some, Option.bind_some, hslot, hmac]
      rfl

theorem freeIndex_eq (h : StatesKnown cache) :
    (List.range wxArpCacheSize).find? (fun i => (cache i).state == 0) =
      Slots.freeIndex wxArpCacheSize (arpSlots cache) := by
  unfold Slots.freeIndex arpSlots WxArpEntry.binding
  congr 1
  funext i
  rcases h i with hfree | hused
  · simp [hfree]
  · simp [hused]

/-- The entries with another one in place of the `i`-th. -/
theorem arpSlots_update (cache : Nat → WxArpEntry) (i : Nat) (entry : WxArpEntry) :
    arpSlots (Function.update cache i entry) =
      Function.update (arpSlots cache) i entry.binding := by
  funext j
  unfold arpSlots
  by_cases hj : j = i
  · subst hj
    rw [Function.update_self, Function.update_self]
  · rw [Function.update_of_ne hj, Function.update_of_ne hj]

/-- The two scans of `wx_arp_update` are those of a store. -/
theorem arpSlots_wxArpUpdate (h : StatesKnown cache) (ip : WxIpv4) (mac : WxMac) :
    arpSlots (wxArpUpdate cache ip mac) = Slots.store wxArpCacheSize (arpSlots cache) ip mac := by
  unfold wxArpUpdate Slots.store
  rw [arpIndex_eq, freeIndex_eq h]
  cases hindex : Slots.index wxArpCacheSize (arpSlots cache) ip with
  | some i =>
      obtain ⟨-, old, hslot⟩ := Slots.index_eq_some hindex
      obtain ⟨hstate, hip, -⟩ := binding_eq_some.1 hslot
      dsimp only
      rw [arpSlots_update]
      congr 1
      exact binding_eq_some.2 ⟨hstate, hip, rfl⟩
  | none =>
      dsimp only
      cases hfree : Slots.freeIndex wxArpCacheSize (arpSlots cache) with
      | some i =>
          dsimp only
          rw [arpSlots_update]
          rfl
      | none => rfl

theorem StatesKnown.wxArpUpdate (h : StatesKnown cache) (ip : WxIpv4) (mac : WxMac) :
    StatesKnown (wxArpUpdate cache ip mac) := by
  have hset : ∀ i entry, entry.state = 0 ∨ entry.state = 1 →
      StatesKnown (Function.update cache i entry) := by
    intro i entry hentry j
    by_cases hj : j = i
    · subst hj
      rwa [Function.update_self]
    · rw [Function.update_of_ne hj]
      exact h j
  unfold Net.wxArpUpdate
  split
  case h_1 i _ => exact hset i _ (h i)
  case h_2 =>
    split
    case h_1 i _ => exact hset i _ (.inr rfl)
    case h_2 => exact h

end Entries

/-! ## The map -/

/-- The cache holds the bindings of `m`. -/
structure HoldsPeers (cache : Nat → WxArpEntry)
    (m : BoundedMap WxIpv4 WxMac wxArpCacheSize) : Prop where
  states : StatesKnown cache
  slots : Slots.Holds (arpSlots cache) m

namespace HoldsPeers

variable {cache : Nat → WxArpEntry} {m : BoundedMap WxIpv4 WxMac wxArpCacheSize}

/-- A cache all of whose entries are zero. -/
theorem zero : HoldsPeers (fun _ => WxArpEntry.zero) BoundedMap.empty :=
  ⟨fun _ => .inl rfl, .empty fun _ _ => rfl⟩

theorem lookup_eq (h : HoldsPeers cache m) (ip : WxIpv4) : wxArpLookup cache ip = m.lookup ip := by
  rw [wxArpLookup_eq]
  exact h.slots.lookup_eq ip

theorem update (h : HoldsPeers cache m) (ip : WxIpv4) (mac : WxMac) :
    HoldsPeers (wxArpUpdate cache ip mac) (m.put ip mac) := by
  refine ⟨h.states.wxArpUpdate ip mac, ?_⟩
  rw [arpSlots_wxArpUpdate h.states]
  exact h.slots.store ip mac

/-- No address is in two entries. -/
theorem unique (h : HoldsPeers cache m) {i j : Nat} (hi : i < wxArpCacheSize)
    (hj : j < wxArpCacheSize) (hstatei : (cache i).state = 1) (hstatej : (cache j).state = 1)
    (hip : (cache i).ip = (cache j).ip) : i = j :=
  h.slots.unique i hi j hj (cache i).ip (cache i).mac (cache j).mac
    (binding_eq_some.2 ⟨hstatei, rfl, rfl⟩) (binding_eq_some.2 ⟨hstatej, hip.symm, rfl⟩)

end HoldsPeers

/-! ## Whole runs -/

/-- Calls of `wx_arp_update`, one after the other. -/
def wxArpUpdates (cache : Nat → WxArpEntry) (updates : List (WxIpv4 × WxMac)) :
    Nat → WxArpEntry :=
  updates.foldl (fun cache u => wxArpUpdate cache u.1 u.2) cache

theorem HoldsPeers.updates {cache : Nat → WxArpEntry}
    {m : BoundedMap WxIpv4 WxMac wxArpCacheSize} (h : HoldsPeers cache m)
    (updates : List (WxIpv4 × WxMac)) :
    HoldsPeers (wxArpUpdates cache updates) (m.puts updates) := by
  induction updates generalizing cache m with
  | nil => exact h
  | cons u rest ih => exact ih (h.update u.1 u.2)

/-- The map with room for 256 addresses, after the same updates. -/
def peerMap (updates : List (WxIpv4 × WxMac)) : BoundedMap WxIpv4 WxMac wxArpCacheSize :=
  BoundedMap.empty.puts updates

/-- The updates that are stored: those for an address that is present, or made while fewer than 256
addresses are. -/
def storedUpdates (updates : List (WxIpv4 × WxMac)) : List (WxIpv4 × WxMac) :=
  (BoundedMap.empty : BoundedMap WxIpv4 WxMac wxArpCacheSize).accepted updates

/-- After these updates, `cache` is the map they lead to. -/
structure IsFiniteMap (updates : List (WxIpv4 × WxMac)) (cache : Nat → WxArpEntry) : Prop where
  unique : ∀ i < wxArpCacheSize, ∀ j < wxArpCacheSize, (cache i).state = 1 →
    (cache j).state = 1 → (cache i).ip = (cache j).ip → i = j
  refines : ∀ ip, wxArpLookup cache ip = (peerMap updates).lookup ip
  /-- A lookup succeeds when some update for the address was stored, with the last one of them. -/
  lastStored : ∀ ip, wxArpLookup cache ip = (storedUpdates updates).reverse.lookup ip
  succeeds_iff : ∀ ip, (wxArpLookup cache ip).isSome ↔ ∃ mac, (ip, mac) ∈ storedUpdates updates
  apart : ∀ ip mac other, other ≠ ip →
    wxArpLookup (wxArpUpdate cache ip mac) other = wxArpLookup cache other

/-- After `wx_arp_init`, whatever the state before it, and any updates, the cache is a map of at most
256 addresses: no address is in two entries, a lookup finds exactly the last update that was stored
for its address, and an update for one address leaves the others alone. -/
theorem arpCache_isFiniteMap (s : NetState) (updates : List (WxIpv4 × WxMac)) :
    IsFiniteMap updates (wxArpUpdates (wxArpInit s).2.arpCache updates) := by
  have hholds : HoldsPeers (wxArpUpdates (wxArpInit s).2.arpCache updates) (peerMap updates) :=
    HoldsPeers.zero.updates updates
  have hlast : ∀ ip, wxArpLookup (wxArpUpdates (wxArpInit s).2.arpCache updates) ip =
      (storedUpdates updates).reverse.lookup ip := by
    intro ip
    rw [hholds.lookup_eq]
    unfold peerMap
    rw [BoundedMap.lookup_puts, BoundedMap.lookup_empty, Option.or_none]
    rfl
  refine ⟨?_, hholds.lookup_eq, hlast, fun ip => ?_, fun ip mac other hne => ?_⟩
  · intro i hi j hj hstatei hstatej hip
    exact hholds.unique hi hj hstatei hstatej hip
  · rw [hlast, List.lookup_isSome_iff]
    simp
  · rw [(hholds.update ip mac).lookup_eq, hholds.lookup_eq, BoundedMap.lookup_put_of_ne _ hne]

end Net
end WhitexKernel
