import WhitexKernel.Vfs.Listing

/-!
# Shells — the two file shells (`shellfs` of `fssdd.h`, `fsshell` of `sdd.h`)

A shell prints its prompt, reads a line and calls the command of that name, which may read a line
itself, until it is left.  The two shells differ in the room they have for a line, in the commands
they know and in the functions behind `touch` and `rm`.  What they leave of the table differs in
nothing (`sameShells`).
-/

namespace WhitexKernel
namespace Vfs

open Lib

/-- What a line calls. -/
inductive FsCommand
  | ls
  | pwd
  /-- A command that reads the name it works on. -/
  | named (prompt : String) (action : NodeName → VfsAction)
  /-- A command that leaves the table alone, and what it prints. -/
  | prints (text : String)
  /-- `quit` resets the machine. -/
  | quit
  /-- `q` -/
  | leave

/-- How a session ends. -/
inductive Ending
  /-- It waits for the next line. -/
  | waiting
  | left
  | reset
  /-- A line was longer than its buffer. -/
  | overrun
  deriving DecidableEq, Repr

/-- A shell: the length of `cmd`, what it prints in front of the directory, and its commands. -/
structure FsShell where
  cmdLen : Nat
  banner : List String
  command : List Char → FsCommand

/-- What is left of a session, and the texts it printed. -/
structure Session where
  files : FileSystem
  printed : List String
  ending : Ending

namespace FileSystem

/-- The command, and the texts it prints. -/
def perform (s : FileSystem) : VfsAction → FileSystem × List String
  | .mkdir name => s.mkdir name
  | .touch name => s.touch name
  | .whitexTouch name => s.whitexTouch name
  | .cd name => s.cd name
  | .rm name => s.rm name
  | .whitexRm name => s.whitexRm name

theorem step_eq_perform (s : FileSystem) (a : VfsAction) : s.step a = some (s.perform a).1 := by
  cases a <;> rfl

end FileSystem

namespace FsShell

/-- `shellfs` -/
def shellfs : FsShell where
  cmdLen := 16
  banner := []
  command cmd :=
    if strcmp cmd "ls".toList = 0 then .ls
    else if strcmp cmd "mkdir".toList = 0 then .named "Name: " .mkdir
    else if strcmp cmd "cd".toList = 0 then .named "To: " .cd
    else if strcmp cmd "pwd".toList = 0 then .pwd
    else if strcmp cmd "touch".toList = 0 then .named "File Name: " .touch
    else if strcmp cmd "rm".toList = 0 then .named "Remove: " .rm
    else if strcmp cmd "sync".toList = 0 then .prints "FS Synced to Disk.\n"
    else if strcmp cmd "q".toList = 0 then .leave
    else .prints "Unknown command.\n"

/-- `fsshell` -/
def fsshell : FsShell where
  cmdLen := 32
  banner := ["WhiteX:"]
  command cmd :=
    if strcmp cmd "ls".toList = 0 then .ls
    else if strcmp cmd "quit".toList = 0 then .quit
    else if strcmp cmd "mkdir".toList = 0 then .named "Name: " .mkdir
    else if strcmp cmd "cd".toList = 0 then .named "To: " .cd
    else if strcmp cmd "pwd".toList = 0 then .pwd
    else if strcmp cmd "touch".toList = 0 then .named "File: " .whitexTouch
    else if strcmp cmd "rm".toList = 0 then .named "RM: " .whitexRm
    else if strcmp cmd "sync".toList = 0 then .prints "Disk Synced.\n"
    else if strcmp cmd "help".toList = 0 then .prints "ls, mkdir, cd, pwd, touch, rm, sync\n"
    else if strcmp cmd "q".toList = 0 then .leave
    else .prints "Error: Cmd not found.\n"

/-- The prompt of a shell. -/
def prompt (shell : FsShell) (s : FileSystem) : List String :=
  shell.banner ++ [String.ofList (s.storage s.currentDir).name, "> "]

/-- The loop of a shell on the lines to come. -/
def run (shell : FsShell) : List (List Char) → FileSystem → Session
  | [], s => { files := s, printed := shell.prompt s, ending := .waiting }
  | line :: lines, s =>
      let continued (printed : List String) (rest : Session) : Session :=
        { rest with printed := shell.prompt s ++ printed ++ rest.printed }
      if line.length < shell.cmdLen then
        match shell.command line with
        | .ls => continued s.ls (shell.run lines s)
        | .pwd => continued s.pwd (shell.run lines s)
        | .prints text => continued [text] (shell.run lines s)
        | .quit => { files := s, printed := shell.prompt s, ending := .reset }
        | .leave => { files := s, printed := shell.prompt s, ending := .left }
        | .named prompt action =>
            match lines with
            | [] => { files := s, printed := shell.prompt s ++ [prompt], ending := .waiting }
            | name :: lines =>
                if h : name.length < nameLen then
                  let after := s.perform (action ⟨name, h⟩)
                  continued after.2 (shell.run lines after.1)
                else { files := s, printed := shell.prompt s ++ [prompt], ending := .overrun }
      else { files := s, printed := shell.prompt s, ending := .overrun }

variable {shell : FsShell} {s t : FileSystem} {line : List Char} {lines : List (List Char)}

/-! ## Lines -/

/-- A command that works on a name is done for the next line. -/
theorem run_named {prompt : String} {action : NodeName → VfsAction}
    (hroom : line.length < shell.cmdLen) (hcommand : shell.command line = .named prompt action)
    (name : NodeName) (s : FileSystem) :
    (shell.run (line :: name.text :: lines) s).files =
        (shell.run lines (s.perform (action name)).1).files ∧
      (shell.run (line :: name.text :: lines) s).ending =
        (shell.run lines (s.perform (action name)).1).ending := by
  have hname : name.text.length < nameLen := name.fits
  rw [run]
  simp [hroom, hcommand, hname]

/-- A command that leaves the table alone is followed by the next line. -/
theorem run_reads (hroom : line.length < shell.cmdLen)
    (hcommand : shell.command line = .ls ∨ shell.command line = .pwd ∨
      ∃ text, shell.command line = .prints text) (s : FileSystem) :
    (shell.run (line :: lines) s).files = (shell.run lines s).files ∧
      (shell.run (line :: lines) s).ending = (shell.run lines s).ending := by
  rcases hcommand with hls | hpwd | ⟨text, hprints⟩
  · rw [run]
    simp [hroom, hls]
  · rw [run]
    simp [hroom, hpwd]
  · rw [run]
    simp [hroom, hprints]

/-- A session, by what its first line does. -/
inductive First (shell : FsShell) (lines : List (List Char)) (s : FileSystem) : Prop
  | ends (hfiles : (shell.run lines s).files = s)
  | reads (line : List Char) (rest : List (List Char)) (hlines : lines = line :: rest)
      (hfiles : (shell.run lines s).files = (shell.run rest s).files)
  | named (line : List Char) (name : NodeName) (rest : List (List Char))
      (hlines : lines = line :: name.text :: rest) (prompt : String) (action : NodeName → VfsAction)
      (hcommand : shell.command line = .named prompt action)
      (hfiles : (shell.run lines s).files = (shell.run rest (s.perform (action name)).1).files)

theorem first (shell : FsShell) (lines : List (List Char)) (s : FileSystem) :
    First shell lines s := by
  cases lines with
  | nil => exact .ends rfl
  | cons line lines =>
      by_cases hroom : line.length < shell.cmdLen
      · cases hcommand : shell.command line with
        | ls => exact .reads line lines rfl (run_reads hroom (.inl hcommand) s).1
        | pwd => exact .reads line lines rfl (run_reads hroom (.inr (.inl hcommand)) s).1
        | prints text =>
            exact .reads line lines rfl (run_reads hroom (.inr (.inr ⟨text, hcommand⟩)) s).1
        | quit =>
            refine .ends ?_
            rw [run]
            simp [hroom, hcommand]
        | leave =>
            refine .ends ?_
            rw [run]
            simp [hroom, hcommand]
        | named prompt action =>
            cases lines with
            | nil =>
                refine .ends ?_
                rw [run]
                simp [hroom, hcommand]
            | cons name lines =>
                by_cases hname : name.length < nameLen
                · exact .named line ⟨name, hname⟩ lines rfl prompt action hcommand
                    (run_named hroom hcommand ⟨name, hname⟩ s).1
                · refine .ends ?_
                  rw [run]
                  simp [hroom, hcommand, hname]
      · refine .ends ?_
        rw [run]
        simp [hroom]

/-- A session does a run of commands. -/
theorem exists_exec (shell : FsShell) (lines : List (List Char)) (s : FileSystem) :
    ∃ as, exec FileSystem.step s as = some (shell.run lines s).files := by
  induction hlength : lines.length using Nat.strong_induction_on generalizing lines s with
  | _ n ih =>
      cases first shell lines s with
      | ends hfiles => exact ⟨[], by rw [hfiles]; rfl⟩
      | reads line rest hlines hfiles =>
          rw [hfiles]
          exact ih rest.length (by simp [← hlength, hlines]) rest s rfl
      | named line name rest hlines prompt action hcommand hfiles =>
          rcases ih rest.length (by simp only [← hlength, hlines, List.length_cons]; omega) rest
            (s.perform (action name)).1 rfl with ⟨as, has⟩
          refine ⟨action name :: as, ?_⟩
          rw [exec_cons, FileSystem.step_eq_perform, Option.bind_some, has, hfiles]

/-! ## The two shells -/

/-- Two commands that do the same to the table. -/
inductive Alike : FsCommand → FsCommand → Prop
  | ls : Alike .ls .ls
  | pwd : Alike .pwd .pwd
  | prints (text text' : String) : Alike (.prints text) (.prints text')
  | leave : Alike .leave .leave
  | named (prompt prompt' : String) (action action' : NodeName → VfsAction)
      (hsame : ∀ s name, (FileSystem.perform s (action name)).1 =
        (FileSystem.perform s (action' name)).1) :
      Alike (.named prompt action) (.named prompt' action')

theorem createNode_fst (s : FileSystem) (type : NodeType) (prompt prompt' : String)
    (created created' full full' : List String) (name : NodeName) :
    (s.createNode type prompt created full name).1 =
      (s.createNode type prompt' created' full' name).1 := by
  unfold FileSystem.createNode
  split
  · rfl
  · rfl

theorem removeNode_fst (s : FileSystem) (prompt prompt' : String)
    (deleted deleted' notFound notFound' : List String) (name : NodeName) :
    (s.removeNode prompt deleted notFound name).1 =
      (s.removeNode prompt' deleted' notFound' name).1 := by
  unfold FileSystem.removeNode
  split
  · rfl
  · split
    · rfl
    · rfl

/-- A string that compares equal to one that is not empty begins with its first character. -/
theorem head?_of_strcmp {d : Char} {text rest : List Char} (hd : d.toNat ≠ 0)
    (h : strcmp text (d :: rest) = 0) : text.head? = some d := by
  cases text with
  | nil =>
      simp only [strcmp] at h
      omega
  | cons c text =>
      simp only [strcmp] at h
      split at h
      case isTrue hcd => simp [hcd]
      case isFalse hcd =>
        have hsame : c.toNat = d.toNat := by omega
        exact absurd (Char.toNat_inj.1 hsame) hcd

theorem alike (cmd : List Char) :
    fsshell.command cmd = .quit ∨ Alike (shellfs.command cmd) (fsshell.command cmd) := by
  have hcreates : ∀ s name, (FileSystem.perform s (.touch name)).1 =
      (FileSystem.perform s (.whitexTouch name)).1 :=
    fun s name => createNode_fst s _ _ _ _ _ _ _ name
  have hremoves : ∀ s name, (FileSystem.perform s (.rm name)).1 =
      (FileSystem.perform s (.whitexRm name)).1 :=
    fun s name => removeNode_fst s _ _ _ _ _ _ name
  -- both tables are searched in the same order, but for `quit` and `help`
  unfold shellfs fsshell
  dsimp only
  by_cases hls : strcmp cmd "ls".toList = 0
  · rw [if_pos hls, if_pos hls]
    exact .inr .ls
  rw [if_neg hls, if_neg hls]
  by_cases hquit : strcmp cmd "quit".toList = 0
  · exact .inl (if_pos hquit)
  refine .inr ?_
  rw [if_neg hquit]
  by_cases hmkdir : strcmp cmd "mkdir".toList = 0
  · rw [if_pos hmkdir, if_pos hmkdir]
    exact .named _ _ _ _ fun _ _ => rfl
  rw [if_neg hmkdir, if_neg hmkdir]
  by_cases hcd : strcmp cmd "cd".toList = 0
  · rw [if_pos hcd, if_pos hcd]
    exact .named _ _ _ _ fun _ _ => rfl
  rw [if_neg hcd, if_neg hcd]
  by_cases hpwd : strcmp cmd "pwd".toList = 0
  · rw [if_pos hpwd, if_pos hpwd]
    exact .pwd
  rw [if_neg hpwd, if_neg hpwd]
  by_cases htouch : strcmp cmd "touch".toList = 0
  · rw [if_pos htouch, if_pos htouch]
    exact .named _ _ _ _ hcreates
  rw [if_neg htouch, if_neg htouch]
  by_cases hrm : strcmp cmd "rm".toList = 0
  · rw [if_pos hrm, if_pos hrm]
    exact .named _ _ _ _ hremoves
  rw [if_neg hrm, if_neg hrm]
  by_cases hsync : strcmp cmd "sync".toList = 0
  · rw [if_pos hsync, if_pos hsync]
    exact .prints _ _
  rw [if_neg hsync, if_neg hsync]
  by_cases hq : strcmp cmd "q".toList = 0
  · have hhelp : strcmp cmd "help".toList ≠ 0 := by
      intro hhelp
      have hhead := (head?_of_strcmp (by decide) hq).symm.trans (head?_of_strcmp (by decide) hhelp)
      exact absurd hhead (by decide)
    rw [if_pos hq, if_neg hhelp, if_pos hq]
    exact .leave
  rw [if_neg hq, if_neg hq]
  split
  · exact .prints _ _
  · exact .prints _ _

/-- On the same lines both shells leave the same, unless one of them ends early. -/
theorem run_alike (lines : List (List Char)) (s : FileSystem)
    (hshellfs : (shellfs.run lines s).ending ≠ .overrun)
    (hfsshell : (fsshell.run lines s).ending ≠ .reset) :
    (shellfs.run lines s).files = (fsshell.run lines s).files ∧
      (shellfs.run lines s).ending = (fsshell.run lines s).ending := by
  induction hlength : lines.length using Nat.strong_induction_on generalizing lines s with
  | _ n ih =>
      cases lines with
      | nil => exact ⟨rfl, rfl⟩
      | cons line lines =>
          have hshort : line.length < shellfs.cmdLen := by
            by_contra hlong
            refine hshellfs ?_
            rw [run]
            simp [hlong]
          have hroom : line.length < fsshell.cmdLen :=
            Nat.lt_trans hshort (by decide : (16 : Nat) < 32)
          rcases alike line with hquit | halike
          · refine absurd ?_ hfsshell
            rw [run]
            simp [hroom, hquit]
          · -- both go on with the same lines and the same table
            have hrest : ∀ rest t, rest.length < n →
                (shellfs.run (line :: lines) s).files = (shellfs.run rest t).files ∧
                  (shellfs.run (line :: lines) s).ending = (shellfs.run rest t).ending →
                (fsshell.run (line :: lines) s).files = (fsshell.run rest t).files ∧
                  (fsshell.run (line :: lines) s).ending = (fsshell.run rest t).ending →
                (shellfs.run (line :: lines) s).files = (fsshell.run (line :: lines) s).files ∧
                  (shellfs.run (line :: lines) s).ending =
                    (fsshell.run (line :: lines) s).ending := by
              rintro rest t hlt ⟨hfiles, hending⟩ ⟨hfiles', hending'⟩
              rw [hending] at hshellfs
              rw [hending'] at hfsshell
              rw [hfiles, hending, hfiles', hending']
              exact ih rest.length hlt rest t hshellfs hfsshell rfl
            have hshorter : lines.length < n := by simp [← hlength]
            generalize hcommand : shellfs.command line = c at halike
            generalize hcommand' : fsshell.command line = c' at halike
            cases halike with
            | ls =>
                exact hrest lines s hshorter (run_reads hshort (.inl hcommand) s)
                  (run_reads hroom (.inl hcommand') s)
            | pwd =>
                exact hrest lines s hshorter (run_reads hshort (.inr (.inl hcommand)) s)
                  (run_reads hroom (.inr (.inl hcommand')) s)
            | prints text text' =>
                exact hrest lines s hshorter (run_reads hshort (.inr (.inr ⟨text, hcommand⟩)) s)
                  (run_reads hroom (.inr (.inr ⟨text', hcommand'⟩)) s)
            | leave =>
                rw [run, run]
                simp [hshort, hroom, hcommand, hcommand']
            | named prompt prompt' action action' hsame =>
                cases lines with
                | nil =>
                    rw [run, run.eq_def fsshell]
                    simp [hshort, hroom, hcommand, hcommand']
                | cons name lines =>
                    by_cases hname : name.length < nameLen
                    · refine hrest lines (s.perform (action ⟨name, hname⟩)).1 ?_
                        (run_named hshort hcommand ⟨name, hname⟩ s) ?_
                      · simp only [← hlength, List.length_cons]
                        omega
                      · rw [hsame]
                        exact run_named hroom hcommand' ⟨name, hname⟩ s
                    · refine absurd ?_ hshellfs
                      rw [run]
                      simp [hshort, hcommand, hname]

/-! ## Sessions and runs -/

/-- The shell reaches the tables that the commands reach. -/
def ReachesAll (shell : FsShell) : Prop :=
  ∀ s t, (∃ lines, (shell.run lines s).files = t) ↔ Reachable FileSystem.step s t

/-- A shell that has a line for every command reaches what the commands reach. -/
theorem reachesAll (hline : ∀ a, ∃ line prompt action, line.length < shell.cmdLen ∧
    shell.command line = .named prompt action ∧ ∀ s : FileSystem,
      (s.perform (action a.name)).1 = (s.perform a).1) : ReachesAll shell := by
  intro s t
  constructor
  · rintro ⟨lines, rfl⟩
    exact exists_exec shell lines s
  · rintro ⟨as, has⟩
    induction as generalizing s with
    | nil =>
        cases has
        exact ⟨[], rfl⟩
    | cons a as ih =>
        rw [exec_cons, FileSystem.step_eq_perform, Option.bind_some] at has
        rcases ih _ has with ⟨lines, hlines⟩
        rcases hline a with ⟨line, prompt, action, hroom, hcommand, hsame⟩
        refine ⟨line :: a.name.text :: lines, ?_⟩
        rw [(run_named hroom hcommand a.name s).1, hsame, hlines]

/-- What the two shells are as programs on the table. -/
structure SameShells : Prop where
  shellfs : ReachesAll shellfs
  fsshell : ReachesAll fsshell
  /-- The same lines have the same effect in both, unless `shellfs` has no room for one of them or
  `fsshell` is told to reset the machine. -/
  same : ∀ lines s, (FsShell.shellfs.run lines s).ending ≠ .overrun →
    (FsShell.fsshell.run lines s).ending ≠ .reset →
    (FsShell.shellfs.run lines s).files = (FsShell.fsshell.run lines s).files ∧
      (FsShell.shellfs.run lines s).ending = (FsShell.fsshell.run lines s).ending

/-- Either shell takes the table exactly to where runs of the commands take it, and both do it in
the same way. -/
theorem sameShells : SameShells := by
  refine ⟨reachesAll fun a => ?_, reachesAll fun a => ?_, run_alike⟩
  · cases a with
    | mkdir name => exact ⟨"mkdir".toList, _, _, by decide, rfl, fun _ => rfl⟩
    | touch name => exact ⟨"touch".toList, _, _, by decide, rfl, fun _ => rfl⟩
    | whitexTouch name =>
        exact ⟨"touch".toList, _, _, by decide, rfl, fun s => createNode_fst s _ _ _ _ _ _ _ _⟩
    | cd name => exact ⟨"cd".toList, _, _, by decide, rfl, fun _ => rfl⟩
    | rm name => exact ⟨"rm".toList, _, _, by decide, rfl, fun _ => rfl⟩
    | whitexRm name =>
        exact ⟨"rm".toList, _, _, by decide, rfl, fun s => removeNode_fst s _ _ _ _ _ _ _⟩
  · cases a with
    | mkdir name => exact ⟨"mkdir".toList, _, _, by decide, rfl, fun _ => rfl⟩
    | touch name =>
        exact ⟨"touch".toList, _, _, by decide, rfl, fun s => createNode_fst s _ _ _ _ _ _ _ _⟩
    | whitexTouch name => exact ⟨"touch".toList, _, _, by decide, rfl, fun _ => rfl⟩
    | cd name => exact ⟨"cd".toList, _, _, by decide, rfl, fun _ => rfl⟩
    | rm name =>
        exact ⟨"rm".toList, _, _, by decide, rfl, fun s => removeNode_fst s _ _ _ _ _ _ _⟩
    | whitexRm name => exact ⟨"rm".toList, _, _, by decide, rfl, fun _ => rfl⟩

end FsShell

end Vfs
end WhitexKernel
