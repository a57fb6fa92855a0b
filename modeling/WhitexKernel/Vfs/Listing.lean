import Mathlib.Data.List.Nodup
import WhitexKernel.Vfs.Names

/-!
# Listing — what `ls` shows of the commands

`ls` walks the table and prints a line for each node that lies in the current directory, except for
the directory itself: the root is its own parent.  `items` is what it finds in a directory.  A
creation puts one item into the current directory, a removal takes away the first item of its name,
and neither shows in any other directory (`shows_run`).
-/

namespace WhitexKernel
namespace Vfs

open Lib

/-- What `ls` shows of a node. -/
abbrev Item := NodeType × List Char

/-- The kind of node that the command creates. -/
def VfsAction.creates : VfsAction → Option NodeType
  | .mkdir _ => some .dirNode
  | .touch _ => some .fileNode
  | .whitexTouch _ => some .fileNode
  | _ => none

/-- The command removes a node. -/
def VfsAction.removes : VfsAction → Bool
  | .rm _ => true
  | .whitexRm _ => true
  | _ => false

namespace FileSystem

/-- The texts that `ls` prints. -/
def ls (s : FileSystem) : List String :=
  "\n" :: (List.finRange maxNodes).flatMap fun i =>
    if (s.storage i).isUsed && (s.storage i).parentIdx == s.currentDir && i != s.currentDir then
      [if (s.storage i).type = .dirNode then "[D] " else "[F] ", String.ofList (s.storage i).name,
        "\n"]
    else []

def pwd (s : FileSystem) : List String :=
  ["/", String.ofList (s.storage s.currentDir).name, "\n"]

/-! ## Items -/

variable {s t : FileSystem} {a : VfsAction} {dir i : NodeIdx} {item : Item}

/-- What a directory shows of a slot. -/
def itemAt (s : FileSystem) (dir i : NodeIdx) : Option Item :=
  if (s.storage i).isUsed && (s.storage i).parentIdx == dir && i != dir then
    some ((s.storage i).type, (s.storage i).name)
  else none

/-- What lies in a directory, in the order of the table. -/
def items (s : FileSystem) (dir : NodeIdx) : List Item :=
  (List.finRange maxNodes).filterMap (s.itemAt dir)

/-- The line of an item. -/
def itemLine (item : Item) : List String :=
  [if item.1 = .dirNode then "[D] " else "[F] ", String.ofList item.2, "\n"]

/-- `ls` prints a line for each item of the current directory. -/
theorem ls_eq (s : FileSystem) : s.ls = "\n" :: (s.items s.currentDir).flatMap itemLine := by
  have hline : ∀ slots : List NodeIdx, (slots.filterMap (s.itemAt s.currentDir)).flatMap itemLine =
      slots.flatMap fun i => ((s.itemAt s.currentDir i).map itemLine).getD [] := by
    intro slots
    induction slots with
    | nil => rfl
    | cons i slots ih =>
        cases h : s.itemAt s.currentDir i with
        | none => simp [h, ih]
        | some item => simp [h, ih]
  unfold ls items
  rw [hline]
  refine congrArg _ (List.flatMap_congr fun i _ => ?_)
  unfold itemAt
  split
  · rfl
  · rfl

theorem itemAt_eq_some : s.itemAt dir i = some item ↔
    (s.storage i).isUsed = true ∧ s.parent i = dir ∧ i ≠ dir ∧
      ((s.storage i).type, (s.storage i).name) = item := by
  unfold itemAt
  split
  case isTrue h =>
    simp only [Bool.and_eq_true, beq_iff_eq, bne_iff_ne] at h
    simp [h.1.1, h.1.2, h.2, parent]
  case isFalse h =>
    simp only [Bool.and_eq_true, beq_iff_eq, bne_iff_ne] at h
    constructor
    · intro hnone
      cases hnone
    · rintro ⟨hused, hparent, hne, -⟩
      exact absurd ⟨⟨hused, hparent⟩, hne⟩ h

theorem itemAt_eq_none (h : (s.storage i).isUsed = false) : s.itemAt dir i = none := by
  simp [itemAt, h]

theorem itemAt_setNode_of_ne {j : NodeIdx} (h : j ≠ i) (node : VfsNode) :
    (s.setNode i node).itemAt dir j = s.itemAt dir j := by
  simp [itemAt, storage_setNode, h]

/-- Around a slot, its change leaves all items. -/
theorem items_around (s : FileSystem) (dir i : NodeIdx) (node : VfsNode) {front back : List NodeIdx}
    (hslots : List.finRange maxNodes = front ++ i :: back) :
    s.items dir = front.filterMap (s.itemAt dir) ++
        ((s.itemAt dir i).toList ++ back.filterMap (s.itemAt dir)) ∧
      (s.setNode i node).items dir = front.filterMap (s.itemAt dir) ++
        (((s.setNode i node).itemAt dir i).toList ++ back.filterMap (s.itemAt dir)) := by
  have hnodup : (front ++ i :: back).Nodup := hslots ▸ List.nodup_finRange maxNodes
  rw [List.nodup_middle, List.nodup_cons, List.mem_append, not_or] at hnodup
  have hkept : ∀ slots : List NodeIdx, i ∉ slots →
      slots.filterMap ((s.setNode i node).itemAt dir) = slots.filterMap (s.itemAt dir) := by
    intro slots hnot
    refine List.filterMap_congr fun j hj => itemAt_setNode_of_ne ?_ node
    rintro rfl
    exact hnot hj
  have hcons : ∀ f : NodeIdx → Option Item,
      (i :: back).filterMap f = (f i).toList ++ back.filterMap f := by
    intro f
    cases h : f i with
    | none => simp [h]
    | some item => simp [h]
  unfold items
  rw [hslots, List.filterMap_append, List.filterMap_append, hcons, hcons, hkept front hnodup.1.1,
    hkept back hnodup.1.2]
  exact ⟨rfl, rfl⟩

/-! ## What a command shows -/

/-- The list `after` is `before` with the item put in somewhere. -/
def Inserted (before : List Item) (item : Item) (after : List Item) : Prop :=
  ∃ front back, before = front ++ back ∧ after = front ++ item :: back

/-- The command `a`, from `s` to `t`, as `ls` shows it. -/
structure Shows (s : FileSystem) (a : VfsAction) (t : FileSystem) : Prop where
  prints : t.ls = "\n" :: (t.items t.currentDir).flatMap itemLine
  created : ∀ type, a.creates = some type → (∃ i, (s.storage i).isUsed = false) →
    Inserted (s.items s.currentDir) (type, a.name.text) (t.items s.currentDir)
  full : a.creates ≠ none → (∀ i, (s.storage i).isUsed = true) → t = s
  removed : a.removes = true → ¬ (s.currentDir = 0 ∧ a.name.text = "root".toList) →
    t.items s.currentDir = (s.items s.currentDir).eraseP fun item => item.2 = a.name.text
  /-- In the root directory the name of the root stands for the root. -/
  root : a.removes = true → s.currentDir = 0 → a.name.text = "root".toList → t = s
  elsewhere : ∀ dir, dir ≠ s.currentDir → t.items dir = s.items dir
  stays : a.creates ≠ none ∨ a.removes = true → t.currentDir = s.currentDir
  looks : ∀ name, a = .cd name → t.storage = s.storage
  /-- A directory that is listed can be entered, and left again. -/
  back : ∀ name, a = .cd name → name.text ≠ "..".toList →
    (.dirNode, name.text) ∈ s.items s.currentDir → t.step (.cd dotDot) = some s

/-- What the runs from `init_fs` keep. -/
structure Sound (s : FileSystem) : Prop where
  rooted : Rooted s
  texts : TextNames s
  rootName : (s.storage 0).name = "root".toList

theorem sound_boot (s : FileSystem) : Sound s.boot :=
  ⟨rooted_boot s, textNames_boot s, by rfl⟩

theorem Sound.step (h : Sound s) (htext : IsText a.name.text) (hstep : s.step a = some t) :
    Sound t := by
  refine ⟨h.rooted.step hstep, h.texts.step htext hstep, ?_⟩
  have hkept : ∀ (i : NodeIdx) (node : VfsNode), i ≠ 0 →
      ((s.setNode i node).storage 0).name = "root".toList := by
    intro i node hi
    rw [storage_setNode, if_neg (Ne.symm hi)]
    exact h.rootName
  cases step_change hstep with
  | nothing => exact h.rootName
  | created i node _ hfree _ =>
      refine hkept i node ?_
      rintro rfl
      rw [h.rooted.rootUsed.1] at hfree
      cases hfree
  | freed i _ hroot _ => exact hkept i _ hroot
  | moved => exact h.rootName

/-- Only the root lies in itself, of what lies in the current directory. -/
theorem Rooted.ne_currentDir (h : Rooted s) (hparent : s.parent i = s.currentDir) (hi : i ≠ 0) :
    i ≠ s.currentDir := by
  rintro rfl
  rcases h.climbs with ⟨n, hclimbs⟩
  exact hclimbs.not_child h.root hi hparent 0 rfl

/-! ## Creations -/

/-- A node that lies elsewhere may be rewritten. -/
theorem items_setNode_elsewhere {node : VfsNode} (hbefore : s.itemAt dir i = none)
    (hafter : node.isUsed = true → node.parentIdx ≠ dir) :
    (s.setNode i node).items dir = s.items dir := by
  rcases List.append_of_mem (List.mem_finRange i) with ⟨front, back, hslots⟩
  have hgone : (s.setNode i node).itemAt dir i = none := by
    rw [Option.eq_none_iff_forall_ne_some]
    intro item hitem
    rw [itemAt_eq_some] at hitem
    have hself : (s.setNode i node).storage i = node := by rw [storage_setNode, if_pos rfl]
    rw [parent, hself] at hitem
    exact hafter hitem.1 hitem.2.1
  rcases s.items_around dir i node hslots with ⟨hitems, hitems'⟩
  rw [hitems, hitems', hbefore, hgone]

/-- A node that is put into a free slot is one item more. -/
theorem items_created (node : VfsNode) (hfree : (s.storage i).isUsed = false)
    (hused : node.isUsed = true) (hparent : node.parentIdx = dir) (hne : i ≠ dir) :
    Inserted (s.items dir) (node.type, node.name) ((s.setNode i node).items dir) := by
  rcases List.append_of_mem (List.mem_finRange i) with ⟨front, back, hslots⟩
  have hnew : (s.setNode i node).itemAt dir i = some (node.type, node.name) := by
    have hself : (s.setNode i node).storage i = node := by rw [storage_setNode, if_pos rfl]
    rw [itemAt_eq_some, parent, hself]
    exact ⟨hused, hparent, hne, rfl⟩
  rcases s.items_around dir i node hslots with ⟨hitems, hitems'⟩
  refine ⟨front.filterMap (s.itemAt dir), back.filterMap (s.itemAt dir), ?_, ?_⟩
  · rw [hitems, itemAt_eq_none hfree]
    rfl
  · rw [hitems', hnew]
    rfl

theorem firstFree_eq_none_iff : s.firstFree = none ↔ ∀ i, (s.storage i).isUsed = true := by
  simp [firstFree]

/-- A command that creates a node. -/
theorem shows_created {type : NodeType} {prompt : String} {printed full : List String}
    (hcreates : a.creates = some type) (hremoves : a.removes = false) (hrooted : Rooted s)
    (ht : t = (s.createNode type prompt printed full a.name).1) : Shows s a t := by
  have hcd : ∀ name, a ≠ .cd name := by
    rintro name rfl
    cases hcreates
  have hkeeps : a.removes ≠ true := by simp [hremoves]
  subst ht
  unfold createNode
  cases hfree : s.firstFree with
  | none =>
      have hfull := firstFree_eq_none_iff.1 hfree
      refine ⟨ls_eq s, ?_, fun _ _ => rfl, fun h => absurd h hkeeps, fun h => absurd h hkeeps,
        fun _ _ => rfl, fun _ => rfl, fun name h => absurd h (hcd name),
        fun name h => absurd h (hcd name)⟩
      rintro - - ⟨i, hi⟩
      rw [hfull i] at hi
      cases hi
  | some i =>
      have hunused := firstFree_eq_some hfree
      have hcopied : fsStrcpy a.name.text = a.name.text :=
        List.take_of_length_le (Nat.le_pred_of_lt a.name.fits)
      refine ⟨ls_eq _, ?_, ?_, fun h => absurd h hkeeps, fun h => absurd h hkeeps, ?_, fun _ => rfl,
        fun name h => absurd h (hcd name), fun name h => absurd h (hcd name)⟩
      · intro type' htype' _
        obtain rfl : type = type' := Option.some.inj (hcreates.symm.trans htype')
        have hne : i ≠ s.currentDir := by
          rintro rfl
          rw [hrooted.current.1] at hunused
          cases hunused
        dsimp only
        rw [hcopied]
        exact items_created
          { name := a.name.text, type := type, parentIdx := s.currentDir, isUsed := true }
          hunused rfl rfl hne
      · intro _ hfull
        rw [hfull i] at hunused
        cases hunused
      · intro dir hdir
        exact items_setNode_elsewhere (itemAt_eq_none hunused) fun _ => Ne.symm hdir

/-! ## Removals -/

theorem strcmp_self (text : List Char) : strcmp text text = 0 := by
  induction text with
  | nil => rfl
  | cons c text ih => simp [strcmp, ih]

/-- The slots of which a search by name finds none show no item of that name. -/
theorem forall_items_ne {name : NodeName} {slots : List NodeIdx}
    (hnone : ∀ j ∈ slots, ((s.storage j).isUsed && true &&
      strcmp (s.storage j).name name.text == 0 &&
      (s.storage j).parentIdx == s.currentDir) = false) :
    ∀ item ∈ slots.filterMap (s.itemAt s.currentDir), ¬ decide (item.2 = name.text) = true := by
  intro item hitem hname
  rw [List.mem_filterMap] at hitem
  rcases hitem with ⟨j, hj, hat⟩
  rcases itemAt_eq_some.1 hat with ⟨hused, hparent, -, rfl⟩
  have hsame : (s.storage j).name = name.text := of_decide_eq_true hname
  have hmatch := hnone j hj
  have hdir : (s.storage j).parentIdx = s.currentDir := hparent
  rw [hused, hsame, strcmp_self, hdir] at hmatch
  simp at hmatch

/-- The root is the first node of its name in its directory. -/
theorem Sound.lookup_root (h : Sound s) {name : NodeName} (hroot : s.currentDir = 0)
    (hname : name.text = "root".toList) : s.lookup (fun _ => true) name = some 0 := by
  have hfirst : List.finRange maxNodes = 0 :: (List.finRange 127).map Fin.succ := List.finRange_succ
  have hparent : (s.storage 0).parentIdx = 0 := h.rooted.root
  unfold lookup
  rw [hfirst, List.find?_cons_of_pos]
  simp [h.rooted.rootUsed.1, h.rootName, hname, strcmp_self, hparent, hroot]

/-- A node found by its name is the first item of that name; without it, the others are left. -/
theorem Sound.items_removed (h : Sound s) {name : NodeName} (htext : IsText name.text)
    (hfound : s.lookup (fun _ => true) name = some i) (hi : i ≠ 0) :
    (s.setNode i { s.storage i with isUsed := false }).items s.currentDir =
      (s.items s.currentDir).eraseP fun item => item.2 = name.text := by
  rcases entry_eq_some.1 (entry_of_lookup h.texts htext hfound) with ⟨hused, hparent, hname⟩
  rcases (List.find?_eq_some_iff_append.1 hfound).2 with ⟨front, back, hslots, hfront⟩
  have hitem : s.itemAt s.currentDir i = some ((s.storage i).type, name.text) := by
    rw [itemAt_eq_some, hname]
    exact ⟨hused, hparent, h.rooted.ne_currentDir hparent hi, rfl⟩
  have hgone : (s.setNode i { s.storage i with isUsed := false }).itemAt s.currentDir i = none :=
    itemAt_eq_none (by rw [storage_setNode, if_pos rfl])
  rcases s.items_around s.currentDir i { s.storage i with isUsed := false } hslots with
    ⟨hitems, hitems'⟩
  have hothers : ∀ item ∈ front.filterMap (s.itemAt s.currentDir),
      ¬ decide (item.2 = name.text) = true := by
    refine forall_items_ne fun j hj => ?_
    rw [← Bool.not_eq_true']
    exact hfront j hj
  rw [hitems, hitems', hitem, hgone, List.eraseP_append_right _ hothers]
  simp

/-- Where no search finds a node, no item has the name. -/
theorem items_not_found {name : NodeName} (hnone : s.lookup (fun _ => true) name = none) :
    (s.items s.currentDir).eraseP (fun item => item.2 = name.text) = s.items s.currentDir := by
  refine List.eraseP_of_forall_not (forall_items_ne fun j hj => ?_)
  simpa using List.find?_eq_none.1 hnone j hj

/-- What a removal leaves. -/
theorem Sound.removeNode_cases (h : Sound s) {name : NodeName} (htext : IsText name.text)
    (prompt : String) (deleted notFound : List String) :
    (s.lookup (fun _ => true) name = none ∧ (s.removeNode prompt deleted notFound name).1 = s) ∨
      (s.currentDir = 0 ∧ name.text = "root".toList ∧
        (s.removeNode prompt deleted notFound name).1 = s) ∨
      ∃ i, s.lookup (fun _ => true) name = some i ∧ i ≠ 0 ∧
        (s.removeNode prompt deleted notFound name).1 =
          s.setNode i { s.storage i with isUsed := false } := by
  unfold removeNode
  cases hfound : s.lookup (fun _ => true) name with
  | none => exact .inl ⟨rfl, rfl⟩
  | some i =>
      refine .inr ?_
      by_cases hi : i = 0
      · subst hi
        rcases entry_eq_some.1 (entry_of_lookup h.texts htext hfound) with ⟨-, hparent, hname⟩
        exact .inl ⟨hparent.symm.trans h.rooted.root, hname.symm.trans h.rootName, rfl⟩
      · refine .inr ⟨i, rfl, hi, ?_⟩
        dsimp only
        rw [if_neg hi]

/-- A command that removes a node. -/
theorem shows_removed {prompt : String} {deleted notFound : List String}
    (hremoves : a.removes = true) (hsound : Sound s) (htext : IsText a.name.text)
    (ht : t = (s.removeNode prompt deleted notFound a.name).1) : Shows s a t := by
  have hcreates : a.creates = none := by
    cases a with
    | rm name => rfl
    | whitexRm name => rfl
    | mkdir name => cases hremoves
    | touch name => cases hremoves
    | whitexTouch name => cases hremoves
    | cd name => cases hremoves
  have hcd : ∀ name, a ≠ .cd name := by
    rintro name rfl
    cases hremoves
  have hroot : s.currentDir = 0 → a.name.text = "root".toList → t = s := by
    intro hdir hname
    rw [ht, removeNode, hsound.lookup_root hdir hname]
    rfl
  have hcases := hsound.removeNode_cases htext prompt deleted notFound
  rw [← ht] at hcases
  refine ⟨ls_eq t, fun type htype => ?_, fun h => absurd hcreates h, fun _ hother => ?_,
    fun _ => hroot, fun dir hdir => ?_, fun _ => ?_, fun name h => absurd h (hcd name),
    fun name h => absurd h (hcd name)⟩
  · rw [hcreates] at htype
    cases htype
  · rcases hcases with ⟨hnone, rfl⟩ | ⟨hdir, hname, -⟩ | ⟨i, hfound, hi, rfl⟩
    · exact (items_not_found hnone).symm
    · exact absurd ⟨hdir, hname⟩ hother
    · exact hsound.items_removed htext hfound hi
  · rcases hcases with ⟨-, rfl⟩ | ⟨-, -, rfl⟩ | ⟨i, hfound, -, rfl⟩
    · rfl
    · rfl
    · refine items_setNode_elsewhere ?_ fun hused => absurd hused Bool.false_ne_true
      rw [Option.eq_none_iff_forall_ne_some]
      intro item hitem
      rw [itemAt_eq_some, (lookup_eq_some hfound).2.2] at hitem
      exact hdir hitem.2.1.symm
  · rcases hcases with ⟨-, rfl⟩ | ⟨-, -, rfl⟩ | ⟨i, -, -, rfl⟩
    · rfl
    · rfl
    · rfl

/-! ## Whole runs -/

/-- The directory of a listed item is found. -/
theorem lookup_listed {name : NodeName} {type : NodeType}
    (hlisted : (type, name.text) ∈ s.items s.currentDir) :
    ∃ i, s.lookup (fun node => node.type == type) name = some i := by
  rw [items, List.mem_filterMap] at hlisted
  rcases hlisted with ⟨j, hj, hat⟩
  rw [itemAt_eq_some, Prod.mk.injEq] at hat
  have hdir : (s.storage j).parentIdx = s.currentDir := hat.2.1
  rw [← Option.isSome_iff_exists, lookup, List.find?_isSome]
  refine ⟨j, hj, ?_⟩
  simp [hat.1, hat.2.2.2.1, hat.2.2.2.2, strcmp_self, hdir]

/-- A command that moves. -/
theorem shows_cd (name : NodeName) (htext : IsText name.text) :
    Shows s (.cd name) (s.cd name).1 := by
  have hstorage : (s.cd name).1.storage = s.storage := by
    unfold cd
    split
    · rfl
    · split
      · rfl
      · rfl
  refine ⟨ls_eq _, nofun, fun h => absurd rfl h, nofun, nofun, fun dir _ => ?_, ?_, ?_, ?_⟩
  · unfold items itemAt
    rw [hstorage]
  · rintro (h | h)
    · exact absurd rfl h
    · cases h
  · rintro name' -
    exact hstorage
  · rintro name' hname' hup hlisted
    obtain rfl : name = name' := VfsAction.cd.inj hname'
    rcases lookup_listed hlisted with ⟨i, hfound⟩
    have hname : strcmp name.text "..".toList ≠ 0 := by
      rw [Ne, strcmp_eq_zero htext (by decide)]
      exact hup
    have hmoved : (s.cd name).1 = { s with currentDir := i } := by
      unfold cd
      rw [if_neg hname, hfound]
    have hparent : s.parent i = s.currentDir := (lookup_eq_some hfound).2.2
    -- the way up leads over the parent of the node found
    have hup : FileSystem.step { s with currentDir := i } (.cd dotDot) =
        some { s with currentDir := s.parent i } := rfl
    rw [hmoved, hup, hparent]

theorem Sound.shows (h : Sound s) (htext : IsText a.name.text) (hstep : s.step a = some t) :
    Shows s a t := by
  cases a with
  | mkdir name =>
      cases hstep
      exact shows_created rfl rfl h.rooted rfl
  | touch name =>
      cases hstep
      exact shows_created rfl rfl h.rooted rfl
  | whitexTouch name =>
      cases hstep
      exact shows_created rfl rfl h.rooted rfl
  | cd name =>
      cases hstep
      exact shows_cd name htext
  | rm name =>
      cases hstep
      exact shows_removed rfl h htext rfl
  | whitexRm name =>
      cases hstep
      exact shows_removed rfl h htext rfl

/-- From `init_fs` on, every command of a run shows in the listings as it should. -/
theorem shows_run (s : FileSystem) {as : List VfsAction} (htext : ∀ a ∈ as, IsText a.name.text) :
    AllSteps step (fun s a => ∀ t, s.step a = some t → Shows s a t) s.boot as := by
  have hsound : AllSteps step (fun s a => Sound s ∧ IsText a.name.text) s.boot as :=
    AllSteps.and_of_invariant (fun _ _ _ h ha hstep => h.step ha hstep) (sound_boot s)
      (allSteps_of_forall_mem htext s.boot)
  refine hsound.mono ?_
  intro s a h t hstep
  exact h.1.shows h.2 hstep

/-- A directory and a file of the same name, of which one is removed. -/
theorem shows_run_twice :
    AllSteps step (fun s a => ∀ t, s.step a = some t → Shows s a t) zero.boot
      [.mkdir ⟨['a'], by decide⟩, .touch ⟨['a'], by decide⟩, .rm ⟨['a'], by decide⟩] :=
  shows_run zero (by decide)

end FileSystem

end Vfs
end WhitexKernel
