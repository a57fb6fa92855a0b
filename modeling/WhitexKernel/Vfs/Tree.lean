import WhitexKernel.Lib.Ancestry
import WhitexKernel.Lib.Transition
import WhitexKernel.Vfs.Model

/-!
# Tree — what the commands leave of the directory tree

`rm` frees a slot without a look at who names it as parent, and the next creation, anywhere in the
tree, takes the slot over.  So the table stays a tree exactly as long as no command removes a
directory that has something in it.  The way from the current directory up to the root is safe
in any case: what `rm` takes away is a child of the current directory, and what a creation takes
over is not in use.
-/

namespace WhitexKernel
namespace Vfs

open Lib

namespace FileSystem

variable {s t : FileSystem} {a : VfsAction}

/-- The slot is in use, as a directory. -/
def IsDir (s : FileSystem) (i : NodeIdx) : Prop :=
  (s.storage i).isUsed = true ∧ (s.storage i).type = .dirNode

/-- The parent of every node in use is a directory in use. -/
def TreeIntact (s : FileSystem) : Prop :=
  ∀ i, (s.storage i).isUsed = true → s.IsDir (s.parent i)

/-- The slot the command frees. -/
def removed (s : FileSystem) : VfsAction → Option NodeIdx
  | .rm name => (s.lookup (fun _ => true) name).filter (· ≠ 0)
  | .whitexRm name => (s.lookup (fun _ => true) name).filter (· ≠ 0)
  | _ => none

/-- Nothing else in use has the slot that the command frees as its parent. -/
def LeavesNoOrphan (s : FileSystem) (a : VfsAction) : Prop :=
  ∀ i, s.removed a = some i → ∀ j, j ≠ i → (s.storage j).isUsed = true → s.parent j ≠ i

/-! ## What a command does -/

theorem firstFree_eq_some {i : NodeIdx} (h : s.firstFree = some i) :
    (s.storage i).isUsed = false := by
  simpa using List.find?_some h

theorem lookup_eq_some {p : VfsNode → Bool} {name : NodeName} {i : NodeIdx}
    (h : s.lookup p name = some i) :
    (s.storage i).isUsed = true ∧ p (s.storage i) = true ∧ s.parent i = s.currentDir := by
  have hfound := List.find?_some h
  simp only [Bool.and_eq_true, beq_iff_eq] at hfound
  exact ⟨hfound.1.1.1, hfound.1.1.2, hfound.2⟩

/-- The commands, by what they change. -/
inductive Change (s : FileSystem) (a : VfsAction) : FileSystem → Prop
  | nothing (hkept : s.removed a = none) : Change s a s
  | created (i : NodeIdx) (node : VfsNode) (hkept : s.removed a = none)
      (hfree : (s.storage i).isUsed = false) (hparent : node.parentIdx = s.currentDir) :
      Change s a (s.setNode i node)
  | freed (i : NodeIdx) (hfreed : s.removed a = some i) (hroot : i ≠ 0)
      (hparent : s.parent i = s.currentDir) :
      Change s a (s.setNode i { s.storage i with isUsed := false })
  | moved (i : NodeIdx) (hkept : s.removed a = none)
      (hway : i = s.parent s.currentDir ∨ (s.IsDir i ∧ s.parent i = s.currentDir)) :
      Change s a { s with currentDir := i }

theorem createNode_change (hkept : s.removed a = none) (type : NodeType) (prompt : String)
    (created full : List String) (name : NodeName) :
    Change s a (s.createNode type prompt created full name).1 := by
  unfold createNode
  cases hfree : s.firstFree with
  | none => exact .nothing hkept
  | some i => exact .created i _ hkept (firstFree_eq_some hfree) rfl

theorem removeNode_change {name : NodeName}
    (hremoved : s.removed a = (s.lookup (fun _ => true) name).filter (· ≠ 0)) (prompt : String)
    (deleted notFound : List String) :
    Change s a (s.removeNode prompt deleted notFound name).1 := by
  unfold removeNode
  cases hfound : s.lookup (fun _ => true) name with
  | none => exact .nothing (by simp [hremoved, hfound])
  | some i =>
      by_cases hroot : i = 0
      · simp only [hroot, if_true]
        exact .nothing (by simp [hremoved, hfound, hroot])
      · simp only [hroot, if_false]
        exact .freed i (by simp [hremoved, hfound, hroot]) hroot (lookup_eq_some hfound).2.2

theorem cd_change (name : NodeName) : Change s (.cd name) (s.cd name).1 := by
  unfold cd
  by_cases hup : strcmp name.text "..".toList = 0
  · simp only [hup, if_true]
    exact .moved _ rfl (.inl rfl)
  · simp only [hup, if_false]
    cases hfound : s.lookup (fun node => node.type == .dirNode) name with
    | none => exact .nothing rfl
    | some i =>
        rcases lookup_eq_some hfound with ⟨hused, hdir, hparent⟩
        exact .moved i rfl (.inr ⟨⟨hused, by simpa using hdir⟩, hparent⟩)

theorem step_change (h : s.step a = some t) : Change s a t := by
  cases a with
  | mkdir name =>
      cases h
      exact createNode_change rfl _ _ _ _ name
  | touch name =>
      cases h
      exact createNode_change rfl _ _ _ _ name
  | whitexTouch name =>
      cases h
      exact createNode_change rfl _ _ _ _ name
  | cd name =>
      cases h
      exact cd_change name
  | rm name =>
      cases h
      exact removeNode_change rfl _ _ _
  | whitexRm name =>
      cases h
      exact removeNode_change rfl _ _ _

/-! ## Slots after a change -/

theorem storage_setNode (s : FileSystem) (i j : NodeIdx) (node : VfsNode) :
    (s.setNode i node).storage j = if j = i then node else s.storage j := by
  simp [setNode, Function.update_apply]

theorem parent_setNode_of_ne {i j : NodeIdx} (h : j ≠ i) (node : VfsNode) :
    (s.setNode i node).parent j = s.parent j := by
  simp [parent, storage_setNode, h]

theorem isDir_setNode_of_ne {i j : NodeIdx} (h : j ≠ i) (node : VfsNode) :
    (s.setNode i node).IsDir j ↔ s.IsDir j := by
  simp [IsDir, storage_setNode, h]

/-! ## The way up from the current directory -/

/-- The root is its own parent, and parents lead from the current directory to it, over directories
in use only. -/
structure Rooted (s : FileSystem) : Prop where
  root : s.parent 0 = 0
  climbs : ∃ n, Climbs s.parent 0 s.IsDir s.currentDir n

theorem Rooted.rootUsed (h : Rooted s) : s.IsDir 0 := by
  rcases h.climbs with ⟨n, hclimbs⟩
  exact hclimbs.root_good

theorem Rooted.current (h : Rooted s) : s.IsDir s.currentDir := by
  rcases h.climbs with ⟨n, hclimbs⟩
  exact hclimbs.head

/-- A slot that is off the way up may be rewritten. -/
theorem Rooted.setNode (h : Rooted s) {i : NodeIdx} (node : VfsNode) (hi : i ≠ 0)
    (hoff : ∀ n, Climbs s.parent 0 s.IsDir s.currentDir n →
      ∀ k, k ≤ n → s.parent^[k] s.currentDir ≠ i) : Rooted (s.setNode i node) := by
  rcases h.climbs with ⟨n, hclimbs⟩
  -- the same climb, over the slots that are directories before the change and not slot `i`
  have hway : Climbs s.parent 0 (fun j => s.IsDir j ∧ j ≠ i) s.currentDir n :=
    ⟨hclimbs.arrives, fun k hk => ⟨hclimbs.good k hk, hoff n hclimbs k hk⟩⟩
  refine ⟨?_, n, hway.congr (fun j hj => parent_setNode_of_ne hj.2 node) fun k hk => ?_⟩
  · rw [parent_setNode_of_ne (Ne.symm hi)]
    exact h.root
  · exact (isDir_setNode_of_ne (hway.good k hk).2 node).2 (hway.good k hk).1

theorem Rooted.change (h : Rooted s) (hchange : Change s a t) : Rooted t := by
  cases hchange with
  | nothing => exact h
  | created i node _ hfree _ =>
      -- what is on the way up is in use
      have hne : ∀ j, s.IsDir j → j ≠ i := by
        rintro j hj rfl
        rw [hj.1] at hfree
        cases hfree
      refine h.setNode node (Ne.symm (hne 0 h.rootUsed)) fun n hclimbs k hk => ?_
      exact hne _ (hclimbs.good k hk)
  | freed i _ hroot hparent =>
      refine h.setNode _ hroot fun n hclimbs k _ => ?_
      exact hclimbs.not_child h.root hroot hparent k
  | moved i _ hway =>
      rcases h.climbs with ⟨n, hclimbs⟩
      rcases hway with rfl | ⟨hdir, hparent⟩
      · rcases hclimbs.up h.root with ⟨m, _, hup⟩
        exact ⟨h.root, m, hup⟩
      · exact ⟨h.root, n + 1, hclimbs.down hdir hparent⟩

theorem Rooted.step (h : Rooted s) (hstep : s.step a = some t) : Rooted t :=
  h.change (step_change hstep)

/-- After `init_fs` the current directory is the root. -/
theorem rooted_boot (s : FileSystem) : Rooted s.boot := by
  have hroot : s.boot.IsDir 0 := ⟨rfl, rfl⟩
  exact ⟨rfl, 0, Climbs.refl hroot⟩

/-! ## The tree -/

theorem treeIntact_boot (s : FileSystem) : TreeIntact s.boot := by
  intro i hused
  have hi : i = 0 := by
    by_contra hne
    simp [boot, initFs, setNode, hne] at hused
  subst hi
  exact ⟨rfl, rfl⟩

/-- A new node lies in the current directory, and its slot was nobody's parent. -/
theorem TreeIntact.created (h : TreeIntact s) (hrooted : Rooted s) {i : NodeIdx} {node : VfsNode}
    (hfree : (s.storage i).isUsed = false) (hparent : node.parentIdx = s.currentDir) :
    TreeIntact (s.setNode i node) := by
  have hne : ∀ j, s.IsDir j → j ≠ i := by
    rintro j hj rfl
    rw [hj.1] at hfree
    cases hfree
  intro j hused
  have hdir : s.IsDir ((s.setNode i node).parent j) := by
    by_cases hj : j = i
    · subst hj
      have hself : (s.setNode j node).parent j = s.currentDir := by
        rw [← hparent]
        simp [parent, storage_setNode]
      rw [hself]
      exact hrooted.current
    · rw [parent_setNode_of_ne hj]
      rw [storage_setNode, if_neg hj] at hused
      exact h j hused
  exact (isDir_setNode_of_ne (hne _ hdir) node).2 hdir

/-- Freeing a slot keeps the tree exactly when it is nobody else's parent. -/
theorem treeIntact_freed_iff (h : TreeIntact s) (i : NodeIdx) :
    TreeIntact (s.setNode i { s.storage i with isUsed := false }) ↔
      ∀ j, j ≠ i → (s.storage j).isUsed = true → s.parent j ≠ i := by
  constructor
  · rintro hnew j hj hused rfl
    have hparent := hnew j (by rwa [storage_setNode, if_neg hj])
    rw [parent_setNode_of_ne hj] at hparent
    simp [IsDir, storage_setNode] at hparent
  · intro hnone j hused
    by_cases hj : j = i
    · subst hj
      simp [storage_setNode] at hused
    · rw [storage_setNode, if_neg hj] at hused
      rw [parent_setNode_of_ne hj, isDir_setNode_of_ne (hnone j hj hused)]
      exact h j hused

/-- One command keeps the tree exactly when it removes no directory that has something in it. -/
theorem treeIntact_step_iff (hrooted : Rooted s) (h : TreeIntact s) (hstep : s.step a = some t) :
    TreeIntact t ↔ LeavesNoOrphan s a := by
  have hkeeps : s.removed a = none → LeavesNoOrphan s a := by
    intro hkept i hi
    rw [hkept] at hi
    cases hi
  cases step_change hstep with
  | nothing hkept => exact ⟨fun _ => hkeeps hkept, fun _ => h⟩
  | created i node hkept hfree hparent =>
      exact ⟨fun _ => hkeeps hkept, fun _ => h.created hrooted hfree hparent⟩
  | moved i hkept => exact ⟨fun _ => hkeeps hkept, fun _ => h⟩
  | freed i hfreed =>
      rw [treeIntact_freed_iff h i]
      unfold LeavesNoOrphan
      simp [hfreed]

/-- From `init_fs` on, every parent is a directory in use throughout a run exactly when no command
of the run removes a directory that has something in it. -/
theorem treeIntact_run_iff (s : FileSystem) (as : List VfsAction) :
    AllStates step TreeIntact s.boot as ↔ AllSteps step LeavesNoOrphan s.boot as :=
  allStates_iff_allSteps (fun _ _ _ hs h => Rooted.step hs h)
    (fun _ _ _ hrooted hs h => treeIntact_step_iff hrooted hs h) (rooted_boot s)
    (treeIntact_boot s)

/-- A directory made in a directory that is removed afterwards is left behind. -/
theorem treeIntact_run_false :
    ¬ ∀ (s : FileSystem) (as : List VfsAction), AllStates step TreeIntact s.boot as := by
  intro h
  have hrun : (exec step zero.boot
      [.mkdir ⟨"a".toList, by decide⟩, .cd ⟨"a".toList, by decide⟩, .mkdir ⟨"b".toList, by decide⟩,
        .cd ⟨"..".toList, by decide⟩, .rm ⟨"a".toList, by decide⟩]).any
        (fun t => (t.storage 2).isUsed && decide ((t.storage 2).parentIdx = 1) &&
          !(t.storage 1).isUsed) = true := by
    decide +kernel
  rcases exists_of_exec_any hrun with ⟨t, hexec, ht⟩
  simp only [Bool.and_eq_true, decide_eq_true_eq, Bool.not_eq_true'] at ht
  have hdir : t.IsDir (t.parent 2) := (h _ _).last hexec 2 ht.1.1
  rw [parent, ht.1.2] at hdir
  have hused := hdir.1
  rw [ht.2] at hused
  cases hused

/-! ## The current directory -/

/-- The name of the parent directory. -/
def dotDot : NodeName := ⟨"..".toList, by decide⟩

/-- The current directory is a directory in use, and so is every node on its way up to the root,
which is shorter than the table; going up command by command takes that way. -/
structure CurrentRooted (s : FileSystem) : Prop where
  current : s.IsDir s.currentDir
  climbs : ∃ n, n < maxNodes ∧ Climbs s.parent 0 s.IsDir s.currentDir n
  home : ∃ n t, n < maxNodes ∧ exec step s (List.replicate n (.cd dotDot)) = some t ∧
    t.currentDir = 0

/-- Going up `n` times. -/
theorem exec_dotDot (s : FileSystem) (n : Nat) :
    exec step s (List.replicate n (.cd dotDot)) =
      some { s with currentDir := s.parent^[n] s.currentDir } := by
  induction n generalizing s with
  | zero => rfl
  | succ n ih =>
      rw [List.replicate_succ, exec_cons]
      have hup : s.step (.cd dotDot) = some { s with currentDir := s.parent s.currentDir } := rfl
      rw [hup, Option.bind_some, ih]
      rfl

theorem Rooted.currentRooted (h : Rooted s) : CurrentRooted s := by
  rcases h.climbs with ⟨n, hclimbs⟩
  rcases hclimbs.exists_lt_card with ⟨m, hm, hshort⟩
  rw [Fintype.card_fin] at hm
  refine ⟨h.current, ⟨m, hm, hshort⟩, m, _, hm, exec_dotDot s m, ?_⟩
  exact hshort.arrives

/-- Throughout every run from `init_fs`, the current directory and the way up from it are sound. -/
theorem currentRooted_run (s : FileSystem) (as : List VfsAction) :
    AllStates step CurrentRooted s.boot as := by
  refine (allStates_of_invariant ?_ (rooted_boot s) as).mono fun _ h => h.currentRooted
  intro s a t hs h
  exact hs.step h

end FileSystem

end Vfs
end WhitexKernel
