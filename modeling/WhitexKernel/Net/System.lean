import WhitexKernel.Lib.Transition
import WhitexKernel.Net.Model

/-!
# System — the calls that the network stack gets

The loop of `internetmain` polls the adapter, the shell sends a ping or opens a socket, and programs
use the socket functions.  A run of the stack is a list of such calls.
-/

namespace WhitexKernel
namespace Net

open Lib Lib.Stateful Machine

inductive NetCall
  | poll (frames : List Frame)
  | pingSend (targetIp : WxIpv4) (id seq : Nat)
  | socket (domain type protocol : Int)
  | bind (sockfd : Int) (port : Nat)
  | listen (sockfd : Int)
  | pkgListen

def NetCall.run : NetCall → NetM Unit
  | .poll frames => wxE1000Poll frames
  | .pingSend targetIp id seq => wxPingSend targetIp id seq
  | .socket domain type protocol => discard (wxSocket domain type protocol)
  | .bind sockfd port => discard (wxBind sockfd port)
  | .listen sockfd => discard (wxListen sockfd)
  | .pkgListen => wxPkgListen

/-- Every call returns. -/
def netStep (s : NetState) (call : NetCall) : Option NetState := some (call.run s).2

/-- What holds of every run of a call holds of its step. -/
theorem of_netStep {R : NetState → NetState → Prop} {call : NetCall} (hkeeps : Keeps R call.run)
    {s t : NetState} (h : netStep s call = some t) : R s t := by
  have hst : (call.run s).2 = t := Option.some.inj h
  exact hst ▸ wp_iff.1 (hkeeps s)

/-! ## The socket functions -/

theorem openSocket_used {s : NetState} {sockfd : Int} {i : Nat}
    (h : openSocket s sockfd = some i) : (s.tcpSockets i).used = true := by
  unfold openSocket at h
  split at h
  · cases h
  · rename_i hopen
    cases h
    by_contra hused
    exact hopen (.inr (.inr (by simpa using hused)))

/-- `wx_socket` gives a socket that was not used, or none. -/
theorem wxSocket_eq (domain type protocol : Int) (s : NetState) :
    wxSocket domain type protocol s = (-1, s) ∨
      ∃ i < wxTcpMaxSocks, (s.tcpSockets i).used = false ∧
        wxSocket domain type protocol s =
          ((i : Int), s.setTcb i { s.tcpSockets i with used := true, state := 0 }) := by
  by_cases hkind : domain ≠ 2 ∨ type ≠ 1 ∨ protocol ≠ 6
  · refine .inl (apply_eq_of_wp fun Q => ?_)
    unfold wxSocket
    rw [if_pos hkind, wp_pure]
  · cases hfree : (List.range wxTcpMaxSocks).find? fun i => !(s.tcpSockets i).used with
    | none =>
        refine .inl (apply_eq_of_wp fun Q => ?_)
        unfold wxSocket
        rw [if_neg hkind, wp_bind, wp_get]
        dsimp only
        rw [hfree, wp_pure]
    | some i =>
        -- the first socket that is not in use
        have hmem : i < wxTcpMaxSocks := List.mem_range.1 (List.mem_of_find?_eq_some hfree)
        have hunused : (s.tcpSockets i).used = false := by simpa using List.find?_some hfree
        refine .inr ⟨i, hmem, hunused, apply_eq_of_wp fun Q => ?_⟩
        unfold wxSocket
        rw [if_neg hkind, wp_bind, wp_get]
        dsimp only
        rw [hfree]
        dsimp only
        rw [wp_bind, wp_set, wp_pure]

/-- `wx_bind` and `wx_listen` change the socket they are called for, if it is in use. -/
theorem changeSocket_eq (sockfd : Int) (f : WxTcpTcb → WxTcpTcb) (s : NetState) :
    (do
      let s ← get
      match openSocket s sockfd with
      | none => pure (-1)
      | some i => do
          set (s.setTcb i (f (s.tcpSockets i)))
          pure 0 : NetM Int) s =
      match openSocket s sockfd with
      | none => (-1, s)
      | some i => (0, s.setTcb i (f (s.tcpSockets i))) := by
  refine apply_eq_of_wp fun Q => ?_
  rw [wp_bind, wp_get]
  cases openSocket s sockfd with
  | none => rw [wp_pure]
  | some i => rw [wp_bind, wp_set, wp_pure]

theorem wxBind_eq (sockfd : Int) (port : Nat) (s : NetState) :
    wxBind sockfd port s =
      match openSocket s sockfd with
      | none => (-1, s)
      | some i => (0, s.setTcb i { s.tcpSockets i with localPort := port }) :=
  changeSocket_eq sockfd (fun tcb => { tcb with localPort := port }) s

theorem wxListen_eq (sockfd : Int) (s : NetState) :
    wxListen sockfd s =
      match openSocket s sockfd with
      | none => (-1, s)
      | some i => (0, s.setTcb i { s.tcpSockets i with state := 1 }) :=
  changeSocket_eq sockfd (fun tcb => { tcb with state := 1 }) s

theorem wxPkgListen_eq (s : NetState) :
    wxPkgListen s = (⟨⟩, s) ∨
      ∃ i, (s.tcpSockets i).used = false ∧
        wxPkgListen s = (⟨⟩, s.setTcb i { s.tcpSockets i with used := true, state := 2 }) := by
  unfold wxPkgListen
  rw [bind_apply]
  rcases wxSocket_eq 2 1 6 s with heq | ⟨i, _, hfree, heq⟩
  · refine .inl (apply_eq_of_wp fun Q => ?_)
    rw [heq]
    dsimp only
    rw [if_pos (by decide), wp_pure]
  · refine .inr ⟨i, hfree, apply_eq_of_wp fun Q => ?_⟩
    have hindex : ¬ (i : Int) < 0 := by omega
    rw [heq]
    dsimp only
    rw [if_neg hindex, wp_modify]
    simp [NetState.setTcb]

/-! ## They change sockets only -/

section Sockets

variable {R : NetState → NetState → Prop} (hrefl : ∀ s, R s s)
  (hset : ∀ s i tcb, R s (s.setTcb i tcb))

include hrefl hset

theorem keeps_wxSocket (domain type protocol : Int) : Keeps R (wxSocket domain type protocol) := by
  intro s
  rw [wp_iff]
  rcases wxSocket_eq domain type protocol s with heq | ⟨i, _, _, heq⟩
  · simpa [heq] using hrefl s
  · simpa [heq] using hset s i _

theorem keeps_wxBind (sockfd : Int) (port : Nat) : Keeps R (wxBind sockfd port) := by
  intro s
  rw [wp_iff, wxBind_eq]
  cases openSocket s sockfd with
  | none => exact hrefl s
  | some i => exact hset s i _

theorem keeps_wxListen (sockfd : Int) : Keeps R (wxListen sockfd) := by
  intro s
  rw [wp_iff, wxListen_eq]
  cases openSocket s sockfd with
  | none => exact hrefl s
  | some i => exact hset s i _

theorem keeps_wxPkgListen : Keeps R wxPkgListen := by
  intro s
  rw [wp_iff]
  rcases wxPkgListen_eq s with heq | ⟨i, _, heq⟩
  · simpa [heq] using hrefl s
  · simpa [heq] using hset s i _

end Sockets

end Net
end WhitexKernel
