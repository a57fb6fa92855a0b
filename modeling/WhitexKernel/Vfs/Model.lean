import Mathlib.Algebra.GroupWithZero.Nat
import Mathlib.Data.List.FinRange
import Mathlib.Logic.Function.Basic

/-!
# Vfs — the node table of the file system (`fs.h`, `fssdd.h`, `sdd.h`)

Directories and files are slots of one table; a slot knows its parent, and the children of a
directory are whoever names it as theirs.  The commands read one line, the name they work on, and
return the state together with the texts they print, in order.
-/

namespace WhitexKernel
namespace Vfs

/-- `MAX_NODES` -/
abbrev maxNodes : Nat := 128

/-- `NAME_LEN` -/
abbrev nameLen : Nat := 32

inductive NodeType
  | dirNode
  | fileNode
  deriving DecidableEq, Repr

/-- An index into `storage`. -/
abbrev NodeIdx := Fin maxNodes

theorem maxNodes_ne_zero : maxNodes ≠ 0 := by decide

instance : NeZero maxNodes := ⟨maxNodes_ne_zero⟩

/-- `VFSNode` -/
structure VfsNode where
  name : List Char
  type : NodeType
  parentIdx : NodeIdx
  isUsed : Bool
  deriving DecidableEq, Repr

/-- The globals of `fs.h`. -/
structure FileSystem where
  storage : NodeIdx → VfsNode
  currentDir : NodeIdx

/-- A line that fits the buffer `name` of the commands. -/
structure NodeName where
  text : List Char
  fits : text.length < nameLen
  deriving DecidableEq, Repr

/-! ## Strings -/

/-- `fs_strcpy`: the string found in `dest` afterwards. -/
def fsStrcpy (src : List Char) : List Char := src.take (nameLen - 1)

def strcmp : List Char → List Char → Int
  | [], [] => 0
  | [], d :: _ => -(d.toNat : Int)
  | c :: _, [] => c.toNat
  | c :: s1, d :: s2 => if c = d then strcmp s1 s2 else (c.toNat : Int) - d.toNat

/-! ## Nodes -/

namespace FileSystem

def setNode (s : FileSystem) (i : NodeIdx) (node : VfsNode) : FileSystem :=
  { s with storage := Function.update s.storage i node }

/-- The parent of a node. -/
def parent (s : FileSystem) (i : NodeIdx) : NodeIdx := (s.storage i).parentIdx

/-- The first slot that is not in use. -/
def firstFree (s : FileSystem) : Option NodeIdx :=
  (List.finRange maxNodes).find? fun i => !(s.storage i).isUsed

/-- The first node of that name in the current directory that meets `p`. -/
def lookup (s : FileSystem) (p : VfsNode → Bool) (name : NodeName) : Option NodeIdx :=
  (List.finRange maxNodes).find? fun i =>
    (s.storage i).isUsed && p (s.storage i) && strcmp (s.storage i).name name.text == 0 &&
      (s.storage i).parentIdx == s.currentDir

/-! ## Commands -/

/-- Slot 0 is the root, which is its own parent. -/
def initFs (s : FileSystem) : FileSystem × List String :=
  let cleared : FileSystem :=
    { s with storage := fun i => { s.storage i with isUsed := false } }
  ({ cleared.setNode 0
      { name := fsStrcpy "root".toList
        type := .dirNode
        parentIdx := 0
        isUsed := true } with
      currentDir := 0 }, ["FS Ready.\n"])

/-- The creation of a node in the first free slot; `created` and `full` are printed when there is
one, and when there is none. -/
def createNode (s : FileSystem) (type : NodeType) (prompt : String) (created full : List String)
    (name : NodeName) : FileSystem × List String :=
  match s.firstFree with
  | none => (s, prompt :: full)
  | some i =>
      (s.setNode i
        { name := fsStrcpy name.text
          type := type
          parentIdx := s.currentDir
          isUsed := true }, prompt :: created)

/-- The removal of a node; the root stays. -/
def removeNode (s : FileSystem) (prompt : String) (deleted notFound : List String)
    (name : NodeName) : FileSystem × List String :=
  match s.lookup (fun _ => true) name with
  | none => (s, prompt :: notFound)
  | some i =>
      if i = 0 then (s, [prompt])
      else (s.setNode i { s.storage i with isUsed := false }, prompt :: deleted)

def mkdir (s : FileSystem) (name : NodeName) : FileSystem × List String :=
  s.createNode .dirNode "Name: " [] [] name

def touch (s : FileSystem) (name : NodeName) : FileSystem × List String :=
  s.createNode .fileNode "File Name: " ["File created.\n"] ["FS Full!\n"] name

def whitexTouch (s : FileSystem) (name : NodeName) : FileSystem × List String :=
  s.createNode .fileNode "File: " [] [] name

def cd (s : FileSystem) (name : NodeName) : FileSystem × List String :=
  if strcmp name.text "..".toList = 0 then
    ({ s with currentDir := s.parent s.currentDir }, ["To: "])
  else
    match s.lookup (fun node => node.type == .dirNode) name with
    | none => (s, ["To: "])
    | some i => ({ s with currentDir := i }, ["To: "])

def rm (s : FileSystem) (name : NodeName) : FileSystem × List String :=
  s.removeNode "Remove: " ["Deleted.\n"] ["Not found.\n"] name

def whitexRm (s : FileSystem) (name : NodeName) : FileSystem × List String :=
  s.removeNode "RM: " [] [] name

end FileSystem

/-! ## The system -/

/-- A command and the line typed for it. -/
inductive VfsAction
  | mkdir (name : NodeName)
  | touch (name : NodeName)
  | whitexTouch (name : NodeName)
  | cd (name : NodeName)
  | rm (name : NodeName)
  | whitexRm (name : NodeName)

namespace FileSystem

/-- Every command returns. -/
def step (s : FileSystem) : VfsAction → Option FileSystem
  | .mkdir name => some (s.mkdir name).1
  | .touch name => some (s.touch name).1
  | .whitexTouch name => some (s.whitexTouch name).1
  | .cd name => some (s.cd name).1
  | .rm name => some (s.rm name).1
  | .whitexRm name => some (s.whitexRm name).1

/-- The table in zeroed static storage. -/
def zero : FileSystem :=
  { storage := fun _ =>
      { name := []
        type := .dirNode
        parentIdx := 0
        isUsed := false }
    currentDir := 0 }

/-- The state after `init_fs`. -/
def boot (s : FileSystem) : FileSystem := s.initFs.1

end FileSystem

end Vfs
end WhitexKernel
