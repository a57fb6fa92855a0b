import WhitexKernel.Lib.Keyed
import WhitexKernel.Vfs.Tree

/-!
# Names — what a name in the current directory stands for

The commands take a name for the first node of that name in the current directory.  None of the
three that create a node looks whether there is one already, so a name stands for one node exactly
as long as nobody creates a second one of that name (`namesIdentify_run_iff`).  The root is an entry
of itself.
-/

namespace WhitexKernel
namespace Vfs

open Lib

/-- A string ends at its first NUL. -/
def IsText (text : List Char) : Prop := Char.ofNat 0 ∉ text

instance (text : List Char) : Decidable (IsText text) := inferInstanceAs (Decidable (¬ _))

/-- The line typed for a command. -/
def VfsAction.name : VfsAction → NodeName
  | .mkdir name => name
  | .touch name => name
  | .whitexTouch name => name
  | .cd name => name
  | .rm name => name
  | .whitexRm name => name

/-- Different strings compare as different. -/
theorem strcmp_eq_zero {a b : List Char} (ha : IsText a) (hb : IsText b) :
    strcmp a b = 0 ↔ a = b := by
  -- a character of a string is not zero
  have hpos : ∀ {c : Char} {rest : List Char}, IsText (c :: rest) → c.toNat ≠ 0 := by
    intro c rest htext hzero
    refine htext ?_
    have hc : c = Char.ofNat 0 := by rw [← hzero, Char.ofNat_toNat]
    rw [hc]
    exact List.mem_cons_self
  induction a generalizing b with
  | nil =>
      cases b with
      | nil => simp [strcmp]
      | cons d b =>
          have hd := hpos hb
          simp only [strcmp]
          constructor
          · intro h
            omega
          · intro h
            cases h
  | cons c a ih =>
      cases b with
      | nil =>
          have hc := hpos ha
          simp only [strcmp]
          constructor
          · intro h
            omega
          · intro h
            cases h
      | cons d b =>
          have hrest : strcmp a b = 0 ↔ a = b :=
            ih (fun h => ha (List.mem_cons_of_mem c h)) (fun h => hb (List.mem_cons_of_mem d h))
          by_cases hcd : c = d
          · subst hcd
            simp [strcmp, hrest]
          · have hne : c.toNat ≠ d.toNat := fun h => hcd (Char.toNat_inj.1 h)
            simp only [strcmp, if_neg hcd]
            constructor
            · intro h
              omega
            · intro h
              cases h
              exact absurd rfl hcd

namespace FileSystem

variable {s t : FileSystem} {a : VfsAction}

/-! ## Entries -/

/-- The directory that a used node lies in, and its name. -/
def entry (s : FileSystem) (i : NodeIdx) : Option (NodeIdx × List Char) :=
  if (s.storage i).isUsed then some (s.parent i, (s.storage i).name) else none

/-- No two used nodes have the same parent and the same name. -/
def NamesUnique (s : FileSystem) : Prop :=
  ∀ i j, (s.storage i).isUsed = true → (s.storage j).isUsed = true → s.parent i = s.parent j →
    (s.storage i).name = (s.storage j).name → i = j

/-- Node `i` is a node of that name in the current directory. -/
structure Named (s : FileSystem) (name : NodeName) (i : NodeIdx) : Prop where
  used : (s.storage i).isUsed = true
  parent : s.parent i = s.currentDir
  name : (s.storage i).name = name.text

/-- The slot that the command puts a new node into. -/
def created (s : FileSystem) : VfsAction → Option NodeIdx
  | .mkdir _ => s.firstFree
  | .touch _ => s.firstFree
  | .whitexTouch _ => s.firstFree
  | _ => none

/-- The command creates no second node of its name in the current directory. -/
def FreshName (s : FileSystem) (a : VfsAction) : Prop :=
  s.created a ≠ none → ∀ j, ¬ s.Named a.name j

/-- Names identify nodes: they are unique, what is removed by name is gone, and what is entered by
name is the directory of that name. -/
structure NamesIdentify (s : FileSystem) : Prop where
  unique : NamesUnique s
  removes : ∀ a i, s.removed a = some i → ∀ t, s.step a = some t → ∀ j, ¬ t.Named a.name j
  enters : ∀ name i, name.text ≠ "..".toList → s.Named name i → (s.storage i).type = .dirNode →
    (s.cd name).1.currentDir = i

theorem entry_eq_some {i : NodeIdx} {dir : NodeIdx} {name : List Char} :
    s.entry i = some (dir, name) ↔
      (s.storage i).isUsed = true ∧ s.parent i = dir ∧ (s.storage i).name = name := by
  unfold entry
  split
  case isTrue hused => simp [hused]
  case isFalse hunused => simp [hunused]

theorem named_iff {name : NodeName} {i : NodeIdx} :
    s.Named name i ↔ s.entry i = some (s.currentDir, name.text) := by
  rw [entry_eq_some]
  exact ⟨fun h => ⟨h.used, h.parent, h.name⟩, fun h => ⟨h.1, h.2.1, h.2.2⟩⟩

theorem namesUnique_iff : NamesUnique s ↔ DistinctKeys s.entry := by
  constructor
  · rintro h i j ⟨dir, name⟩ hi hj
    rw [entry_eq_some] at hi hj
    exact h i j hi.1 hj.1 (hi.2.1.trans hj.2.1.symm) (hi.2.2.trans hj.2.2.symm)
  · intro h i j hi hj hparent hname
    exact h i j _ (entry_eq_some.2 ⟨hi, hparent, hname⟩) (entry_eq_some.2 ⟨hj, rfl, rfl⟩)

/-! ## What a command does to the entries -/

/-- The commands, by what they do to the entries. -/
inductive EntryChange (s : FileSystem) (a : VfsAction) (t : FileSystem) : Prop
  | kept (hnone : s.created a = none) (hsub : ∀ i k, t.entry i = some k → s.entry i = some k)
  | added (i : NodeIdx) (hcreated : s.created a = some i) (hfree : s.entry i = none)
      (hentry : t.entry = Function.update s.entry i (some (s.currentDir, a.name.text)))

theorem entry_setNode (s : FileSystem) (i : NodeIdx) (node : VfsNode) :
    (s.setNode i node).entry = Function.update s.entry i
      (if node.isUsed then some (node.parentIdx, node.name) else none) := by
  funext j
  unfold entry parent
  rw [storage_setNode, Function.update_apply]
  by_cases hj : j = i
  · simp [hj]
  · simp [hj]

theorem entry_eq_none {i : NodeIdx} (h : (s.storage i).isUsed = false) : s.entry i = none := by
  simp [entry, h]

theorem createNode_entryChange (hcreated : s.created a = s.firstFree) (type : NodeType)
    (prompt : String) (printed full : List String) :
    EntryChange s a (s.createNode type prompt printed full a.name).1 := by
  unfold createNode
  cases hfree : s.firstFree with
  | none => exact .kept (hcreated.trans hfree) fun _ _ h => h
  | some i =>
      refine .added i (hcreated.trans hfree) (entry_eq_none (firstFree_eq_some hfree)) ?_
      have hcopied : fsStrcpy a.name.text = a.name.text :=
        List.take_of_length_le (Nat.le_pred_of_lt a.name.fits)
      dsimp only
      rw [entry_setNode, hcopied]
      rfl

theorem removeNode_entryChange (hnone : s.created a = none) (prompt : String)
    (deleted notFound : List String) :
    EntryChange s a (s.removeNode prompt deleted notFound a.name).1 := by
  unfold removeNode
  cases s.lookup (fun _ => true) a.name with
  | none => exact .kept hnone fun _ _ h => h
  | some i =>
      dsimp only
      split
      · exact .kept hnone fun _ _ h => h
      · refine .kept hnone fun j k h => ?_
        rw [entry_setNode, Function.update_apply] at h
        by_cases hj : j = i
        · simp [hj] at h
        · simpa [hj] using h

theorem cd_entryChange (name : NodeName) : EntryChange s (.cd name) (s.cd name).1 := by
  refine .kept rfl fun i k h => ?_
  have hstorage : (s.cd name).1.storage = s.storage := by
    unfold cd
    split
    · rfl
    · split
      · rfl
      · rfl
  simpa [entry, parent, hstorage] using h

theorem step_entryChange (h : s.step a = some t) : EntryChange s a t := by
  cases a with
  | mkdir name =>
      cases h
      exact createNode_entryChange rfl _ _ _ _
  | touch name =>
      cases h
      exact createNode_entryChange rfl _ _ _ _
  | whitexTouch name =>
      cases h
      exact createNode_entryChange rfl _ _ _ _
  | cd name =>
      cases h
      exact cd_entryChange name
  | rm name =>
      cases h
      exact removeNode_entryChange rfl _ _ _
  | whitexRm name =>
      cases h
      exact removeNode_entryChange rfl _ _ _

/-! ## Uniqueness -/

theorem namesUnique_step_iff (h : NamesUnique s) (hstep : s.step a = some t) :
    NamesUnique t ↔ FreshName s a := by
  rw [namesUnique_iff] at h ⊢
  unfold FreshName
  cases step_entryChange hstep with
  | kept hnone hsub => exact ⟨fun _ hsome => absurd hnone hsome, fun _ => h.mono hsub⟩
  | added i hcreated hfree hentry =>
      rw [hentry, h.update_iff hfree]
      have hsome : s.created a ≠ none := by
        rw [hcreated]
        exact nofun
      constructor
      · intro hfresh _ j hnamed
        exact hfresh j (named_iff.1 hnamed)
      · intro hfresh j hentry
        exact hfresh hsome j (named_iff.2 hentry)

theorem namesUnique_boot (s : FileSystem) : NamesUnique s.boot := by
  have honly : ∀ i, (s.boot.storage i).isUsed = true → i = 0 := by
    intro i hused
    by_contra hne
    simp [boot, initFs, setNode, hne] at hused
  intro i j hi hj _ _
  rw [honly i hi, honly j hj]

/-! ## What names find -/

/-- The names of the nodes are strings. -/
def TextNames (s : FileSystem) : Prop := ∀ i dir name, s.entry i = some (dir, name) → IsText name

theorem textNames_boot (s : FileSystem) : TextNames s.boot := by
  intro i dir name hentry
  rw [entry_eq_some] at hentry
  have hi : i = 0 := by
    by_contra hne
    simp [boot, initFs, setNode, hne] at hentry
  subst hi
  have hroot : IsText (fsStrcpy "root".toList) := by decide
  rw [← hentry.2.2]
  exact hroot

theorem TextNames.step (h : TextNames s) (htext : IsText a.name.text)
    (hstep : s.step a = some t) : TextNames t := by
  intro i dir name hentry
  cases step_entryChange hstep with
  | kept hnone hsub => exact h i dir name (hsub i _ hentry)
  | added k hcreated hfree hadded =>
      rw [hadded, Function.update_apply] at hentry
      split at hentry
      · cases hentry
        exact htext
      · exact h i dir name hentry

/-- A search by name compares what it finds with the name. -/
theorem entry_of_lookup {p : VfsNode → Bool} {name : NodeName} {i : NodeIdx} (h : TextNames s)
    (htext : IsText name.text) (hfound : s.lookup p name = some i) :
    s.entry i = some (s.currentDir, name.text) := by
  have hmatch := List.find?_some hfound
  simp only [Bool.and_eq_true, beq_iff_eq] at hmatch
  have hentry : s.entry i = some (s.currentDir, (s.storage i).name) :=
    entry_eq_some.2 ⟨hmatch.1.1.1, hmatch.2, rfl⟩
  rw [hentry, (strcmp_eq_zero (h i _ _ hentry) htext).1 hmatch.1.2]

/-- A command that removes a node finds it by its name, and frees its slot. -/
theorem step_of_removed {i : NodeIdx} (h : s.removed a = some i) :
    s.lookup (fun _ => true) a.name = some i ∧
      s.step a = some (s.setNode i { s.storage i with isUsed := false }) := by
  -- both commands free the first node found under the name, the root apart
  have hremove : ∀ {name : NodeName} (prompt : String) (deleted notFound : List String),
      (s.lookup (fun _ => true) name).filter (· ≠ 0) = some i →
      s.lookup (fun _ => true) name = some i ∧ (s.removeNode prompt deleted notFound name).1 =
        s.setNode i { s.storage i with isUsed := false } := by
    intro name prompt deleted notFound hfiltered
    rw [Option.filter_eq_some_iff] at hfiltered
    have hroot : i ≠ 0 := by simpa using hfiltered.2
    refine ⟨hfiltered.1, ?_⟩
    unfold removeNode
    rw [hfiltered.1]
    dsimp only
    rw [if_neg hroot]
  cases a with
  | mkdir name => cases h
  | touch name => cases h
  | whitexTouch name => cases h
  | cd name => cases h
  | rm name =>
      rcases hremove "Remove: " ["Deleted.\n"] ["Not found.\n"] h with ⟨hfound, hfreed⟩
      exact ⟨hfound, congrArg some hfreed⟩
  | whitexRm name =>
      rcases hremove "RM: " [] [] h with ⟨hfound, hfreed⟩
      exact ⟨hfound, congrArg some hfreed⟩

/-- The directory of a name is found, if names are unique. -/
theorem lookup_of_named {p : VfsNode → Bool} {name : NodeName} {i : NodeIdx}
    (h : DistinctKeys s.entry) (htexts : TextNames s) (hnamed : s.Named name i)
    (hp : p (s.storage i) = true) : s.lookup p name = some i := by
  have hentry := named_iff.1 hnamed
  have htext : IsText name.text := htexts i _ _ hentry
  have hsame : strcmp (s.storage i).name name.text = 0 := by
    rw [hnamed.name]
    exact (strcmp_eq_zero htext htext).2 rfl
  have hparent : (s.storage i).parentIdx = s.currentDir := hnamed.parent
  refine h.find?_eq (k := (s.currentDir, name.text)) ?_ ?_ (List.mem_finRange i)
  · intro j hj
    simp only [Bool.and_eq_true, beq_iff_eq] at hj
    have hother : s.entry j = some (s.currentDir, (s.storage j).name) :=
      entry_eq_some.2 ⟨hj.1.1.1, hj.2, rfl⟩
    rw [hother, (strcmp_eq_zero (htexts j _ _ hother) htext).1 hj.1.2]
  · simp [hnamed.used, hp, hsame, hparent]

theorem namesIdentify_iff (htexts : TextNames s) : NamesIdentify s ↔ NamesUnique s := by
  refine ⟨NamesIdentify.unique, fun hunique => ?_⟩
  have hdistinct := namesUnique_iff.1 hunique
  refine ⟨hunique, ?_, ?_⟩
  · intro a i hremoved t hstep j hnamed
    rcases step_of_removed hremoved with ⟨hfound, hfreed⟩
    cases hfreed.symm.trans hstep
    -- what is left are entries of the table before
    have hentry := entry_setNode s i { s.storage i with isUsed := false }
    have hsub : ∀ k key, (s.setNode i { s.storage i with isUsed := false }).entry k = some key →
        s.entry k = some key := by
      intro k key hkey
      rw [hentry, Function.update_apply] at hkey
      by_cases hk : k = i
      · simp [hk] at hkey
      · simpa [hk] using hkey
    have hleft := named_iff.1 hnamed
    have htext : IsText a.name.text := htexts j _ _ (hsub j _ hleft)
    have hgone : (s.setNode i { s.storage i with isUsed := false }).entry i = none := by
      rw [hentry, Function.update_self]
      rfl
    exact hdistinct.gone (entry_of_lookup htexts htext hfound) hgone hsub j hleft
  · intro name i hup hnamed hdir
    have htext : IsText name.text := htexts i _ _ (named_iff.1 hnamed)
    have hname : strcmp name.text "..".toList ≠ 0 := by
      rw [Ne, strcmp_eq_zero htext (by decide)]
      exact hup
    have hfound : s.lookup (fun node => node.type == .dirNode) name = some i :=
      lookup_of_named hdistinct htexts hnamed (by simp [hdir])
    unfold cd
    rw [if_neg hname, hfound]

/-! ## Whole runs -/

/-- From `init_fs` on, names identify nodes throughout a run exactly when no command of the run
creates a second node of its name in the current directory. -/
theorem namesIdentify_run_iff (s : FileSystem) {as : List VfsAction}
    (htext : ∀ a ∈ as, IsText a.name.text) :
    AllStates step NamesIdentify s.boot as ↔ AllSteps step FreshName s.boot as := by
  have htexts : AllStates step TextNames s.boot as :=
    allStates_of_allSteps (fun _ _ _ h ha hstep => h.step ha hstep) (textNames_boot s)
      (allSteps_of_forall_mem htext s.boot)
  have hunique : AllStates step NamesUnique s.boot as ↔ AllSteps step FreshName s.boot as :=
    allStates_iff_allSteps (J := fun _ => True) (fun _ _ _ _ _ => trivial)
      (fun _ _ _ _ h hstep => namesUnique_step_iff h hstep) trivial (namesUnique_boot s)
  rw [← hunique]
  constructor
  · intro h
    exact h.mono fun _ hs => hs.unique
  · intro h
    exact (h.and htexts).mono fun _ hs => (namesIdentify_iff hs.2).2 hs.1

/-- A directory, and a file in it of the same name. -/
theorem namesIdentify_run_iff_nested :
    AllStates step NamesIdentify zero.boot
        [.mkdir ⟨['a'], by decide⟩, .cd ⟨['a'], by decide⟩, .touch ⟨['a'], by decide⟩] ↔
      AllSteps step FreshName zero.boot
        [.mkdir ⟨['a'], by decide⟩, .cd ⟨['a'], by decide⟩, .touch ⟨['a'], by decide⟩] :=
  namesIdentify_run_iff zero (by decide)

/-- The same name twice in the root directory. -/
theorem namesIdentify_run_false :
    ¬ ∀ (s : FileSystem) (as : List VfsAction), (∀ a ∈ as, IsText a.name.text) →
      AllStates step NamesIdentify s.boot as := by
  intro h
  have hall := h zero [.mkdir ⟨['a'], by decide⟩, .mkdir ⟨['a'], by decide⟩] (by decide)
  have hrun : (exec step zero.boot
      [.mkdir ⟨['a'], by decide⟩, .mkdir ⟨['a'], by decide⟩]).any
        (fun t => (t.storage 1).isUsed && (t.storage 2).isUsed &&
          decide ((t.storage 1).parentIdx = (t.storage 2).parentIdx) &&
          decide ((t.storage 1).name = (t.storage 2).name)) = true := by
    decide +kernel
  rcases exists_of_exec_any hrun with ⟨t, hexec, ht⟩
  simp only [Bool.and_eq_true, decide_eq_true_eq] at ht
  have hsame : (1 : NodeIdx) = 2 :=
    (hall.last hexec).unique 1 2 ht.1.1.1 ht.1.1.2 ht.1.2 ht.2
  exact absurd hsame (by decide)

end FileSystem

end Vfs
end WhitexKernel
