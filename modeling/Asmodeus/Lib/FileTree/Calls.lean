import Asmodeus.Lib.FileTree
import Asmodeus.Lib.Program
import Mathlib.Data.List.Infix

namespace FileTree

/-- What the kernel refuses a call with. -/
inductive Errno
  | NotFound
  | AlreadyExists
  | NotADirectory
  | IsADirectory
  | DirectoryNotEmpty
  | Other (message : String)
  deriving DecidableEq

inductive Metadata
  | file (len : Nat)
  | symlink
  | dir
  deriving DecidableEq

def Node.metadata : Node → Metadata
  | .file content => .file content.length
  | .symlink => .symlink
  | .dir => .dir

/-- A call that fails for a reason of its own, and what it has done until then: the
bytes it has written, the paths below the directory it has removed. -/
structure Fault (ν : Type) where
  message : String
  written : Nat
  removed : List (ν × List ν)

inductive Verb
  | symlink_metadata
  | metadata
  | create_dir
  | create
  | create_new
  | write_all (bytes : List UInt8)
  | sync_all
  | read
  | remove_file
  | remove_dir
  | remove_dir_all

def Verb.Reply : Verb → Type
  | .symlink_metadata | .metadata => Except Errno Metadata
  | .read => Except Errno (List UInt8)
  | _ => Except Errno Unit

/-- The call goes on where a symbolic link at the end of its path leads. -/
def Verb.follows : Verb → Bool
  | .metadata | .create | .write_all _ | .sync_all | .read => true
  | _ => false

section

variable {ν : Type} [DecidableEq ν]

/-- The subtree without the paths below it that were removed. -/
def prune (removed : List (ν × List ν)) (s : Option (FsTree ν)) : Option (FsTree ν) :=
  removed.foldl (fun s path => alter (fun _ => none) (path.1 :: path.2) s) s

/-- A new entry needs a directory to be made in. -/
def make (above : Option Node) (s : FsTree ν) : Except Errno Unit × Option (FsTree ν) :=
  match above with
  | some .dir => (.ok (), some s)
  | some _ => (.error .NotADirectory, none)
  | none => (.error .NotFound, none)

def stat : Option (Fault ν) → Option (FsTree ν) → Except Errno Metadata
  | some fault, _ => .error (.Other fault.message)
  | none, none => .error .NotFound
  | none, some s => .ok s.node.metadata

def create_dir (above : Option Node) : Option (Fault ν) → Option (FsTree ν) → Except Errno Unit × Option (FsTree ν)
  | some fault, s => (.error (.Other fault.message), s)
  | none, none => make above (.dir [])
  | none, some s => (.error .AlreadyExists, some s)

/-- Open a file for writing, empty. -/
def create (above : Option Node) : Option (Fault ν) → Option (FsTree ν) → Except Errno Unit × Option (FsTree ν)
  | some fault, s => (.error (.Other fault.message), s)
  | none, none => make above (.file [])
  | none, some (.file _) => (.ok (), some (.file []))
  | none, some (.dir entries) => (.error .IsADirectory, some (.dir entries))
  | none, some .symlink => (.error .NotFound, some .symlink)

/-- Open a file for writing that is not there yet. -/
def create_new (above : Option Node) : Option (Fault ν) → Option (FsTree ν) → Except Errno Unit × Option (FsTree ν)
  | some fault, s => (.error (.Other fault.message), s)
  | none, none => make above (.file [])
  | none, some s => (.error .AlreadyExists, some s)

/-- Write to the open file, which its path stands for. Nobody sees what goes to a removed one. -/
def write_all (bytes : List UInt8) : Option (Fault ν) → Option (FsTree ν) → Except Errno Unit × Option (FsTree ν)
  | some fault, some (.file content) =>
    (.error (.Other fault.message), some (.file (content ++ bytes.take fault.written)))
  | some fault, s => (.error (.Other fault.message), s)
  | none, some (.file content) => (.ok (), some (.file (content ++ bytes)))
  | none, s => (.ok (), s)

def sync_all : Option (Fault ν) → Except Errno Unit
  | some fault => .error (.Other fault.message)
  | none => .ok ()

def read : Option (Fault ν) → Option (FsTree ν) → Except Errno (List UInt8)
  | some fault, _ => .error (.Other fault.message)
  | none, some (.file content) => .ok content
  | none, some (.dir _) => .error .IsADirectory
  | none, _ => .error .NotFound

def remove_file : Option (Fault ν) → Option (FsTree ν) → Except Errno Unit × Option (FsTree ν)
  | _, none => (.error .NotFound, none)
  | some fault, s => (.error (.Other fault.message), s)
  | none, some (.dir entries) => (.error .IsADirectory, some (.dir entries))
  | none, some _ => (.ok (), none)

def remove_dir : Option (Fault ν) → Option (FsTree ν) → Except Errno Unit × Option (FsTree ν)
  | _, none => (.error .NotFound, none)
  | some fault, s => (.error (.Other fault.message), s)
  | none, some (.dir []) => (.ok (), none)
  | none, some (.dir entries) => (.error .DirectoryNotEmpty, some (.dir entries))
  | none, some s => (.error .NotADirectory, some s)

/-- Links are removed, not followed. -/
def remove_dir_all : Option (Fault ν) → Option (FsTree ν) → Except Errno Unit × Option (FsTree ν)
  | _, none => (.error .NotFound, none)
  | some fault, s => (.error (.Other fault.message), prune fault.removed s)
  | none, some (.file content) => (.error .NotADirectory, some (.file content))
  | none, some _ => (.ok (), none)

/-- The effect of a call on the subtree at its path, by what is above it. -/
def Verb.run (fault : Option (Fault ν)) (above : Option Node) (s : Option (FsTree ν)) :
    (verb : Verb) → verb.Reply × Option (FsTree ν)
  | .symlink_metadata => (stat fault s, s)
  | .metadata => (stat fault s, s)
  | .create_dir => FileTree.create_dir above fault s
  | .create => FileTree.create above fault s
  | .create_new => FileTree.create_new above fault s
  | .write_all bytes => FileTree.write_all bytes fault s
  | .sync_all => (FileTree.sync_all fault, s)
  | .read => (FileTree.read fault s, s)
  | .remove_file => FileTree.remove_file fault s
  | .remove_dir => FileTree.remove_dir fault s
  | .remove_dir_all => FileTree.remove_dir_all fault s

structure Call (ν : Type) where
  path : List ν
  verb : Verb

/-- The symbolic links on the way of a path. -/
def links (path : List ν) (t : Option (FsTree ν)) : Bool :=
  path.inits.any fun above => decide (node above t = some .symlink)

/-- What is above a path. The root stands in a directory. -/
def node_above (path : List ν) (t : Option (FsTree ν)) : Option Node :=
  if path = [] then some .dir else node path.dropLast t

namespace Call

/-- Where a call arrives. A path over a symbolic link leads anywhere. -/
def locate (follow : Option (FsTree ν) → List ν → List ν) (call : Call ν) (t : Option (FsTree ν)) : List ν :=
  if links (if call.verb.follows then call.path else call.path.dropLast) t then follow t call.path else call.path

/-- A call against the tree. -/
def exec (follow : Option (FsTree ν) → List ν → List ν) (fault : Option (Fault ν)) (call : Call ν)
    (t : Option (FsTree ν)) :
    call.verb.Reply × Option (FsTree ν) :=
  let path := call.locate follow t
  let done := call.verb.run fault (node_above path t) (get path t)
  (done.1, alter (fun _ => done.2) path t)

end Call

section

variable {follow follow' : Option (FsTree ν) → List ν → List ν} {fault : Option (Fault ν)} {call : Call ν} {verb : Verb}
  {s t : Option (FsTree ν)} {base path : List ν}

theorem linkless_prune (h : Linkless s) (removed : List (ν × List ν)) : Linkless (prune removed s) := by
  induction removed generalizing s with
  | nil => exact h
  | cons path removed ih => exact ih (h.alter (fun _ _ => linkless_none) _)

theorem node_prune (removed : List (ν × List ν)) (s : Option (FsTree ν)) : node [] (prune removed s) = node [] s := by
  induction removed generalizing s with
  | nil => rfl
  | cons path removed ih =>
    have hbelow : node [] (alter (fun _ => none) (path.1 :: path.2) s) = node [] s := node_alter_below nofun
    exact (ih _).trans hbelow

theorem linkless_file (content : List UInt8) : Linkless (some (.file content) : Option (FsTree ν)) := by
  intro path
  cases path <;> simp [node, get, FsTree.node]

theorem linkless_empty : Linkless (some (.dir []) : Option (FsTree ν)) := linkless_dir.mpr fun _ => linkless_none

theorem linkless_make (above : Option Node) {new : FsTree ν} (h : Linkless (some new)) :
    Linkless (make above new).2 := by
  unfold make
  split
  · exact h
  · exact linkless_none
  · exact linkless_none

/-- No call makes a symbolic link. -/
theorem Verb.linkless_run (above : Option Node) (h : Linkless s) : Linkless (verb.run fault above s).2 := by
  cases verb with
  | symlink_metadata | metadata | sync_all | read => exact h
  | create_dir =>
    unfold run FileTree.create_dir
    dsimp only
    split
    · exact h
    · exact linkless_make above linkless_empty
    · exact h
  | create =>
    unfold run FileTree.create
    dsimp only
    split
    · exact h
    · exact linkless_make above (linkless_file _)
    · exact linkless_file _
    · exact h
    · exact h
  | create_new =>
    unfold run FileTree.create_new
    dsimp only
    split
    · exact h
    · exact linkless_make above (linkless_file _)
    · exact h
  | write_all bytes =>
    unfold run FileTree.write_all
    dsimp only
    split
    · exact linkless_file _
    · exact h
    · exact linkless_file _
    · exact h
  | remove_file =>
    unfold run FileTree.remove_file
    dsimp only
    split
    · exact h
    · exact h
    · exact h
    · exact linkless_none
  | remove_dir =>
    unfold run FileTree.remove_dir
    dsimp only
    split
    · exact h
    · exact h
    · exact linkless_none
    · exact h
    · exact h
  | remove_dir_all =>
    unfold run FileTree.remove_dir_all
    dsimp only
    split
    · exact h
    · exact linkless_prune h _
    · exact h
    · exact linkless_none

/-- Nothing is changed but what is where the call arrives. -/
theorem Call.exec_node {q : List ν} (h : ¬ call.locate follow t <+: q) :
    node q (call.exec follow fault t).2 = node q t := node_alter h

theorem Call.exec_apart {q : List ν} (h : Apart (call.locate follow t) q) :
    get q (call.exec follow fault t).2 = get q t := get_alter_apart h

theorem links_eq_false : links path t = false ↔ ∀ above, above <+: path → node above t ≠ some .symlink := by
  simp [links]

/-- A path without links is where the call arrives. -/
theorem Call.locate_eq (h : ∀ above, above <+: call.path → node above t ≠ some .symlink) :
    call.locate follow t = call.path := by
  have hnone : links (if call.verb.follows then call.path else call.path.dropLast) t = false := by
    refine links_eq_false.mpr fun above habove => h above ?_
    split at habove
    · exact habove
    · exact habove.trans (List.dropLast_prefix call.path)
  rw [locate, hnone]
  rfl

theorem prefix_append_cases {above : List ν} (h : above <+: base ++ path) :
    (above <+: base ∧ above ≠ base) ∨ ∃ below, above = base ++ below ∧ below <+: path := by
  obtain habove | hbase := List.prefix_or_prefix_of_prefix h (List.prefix_append base path)
  · by_cases heq : above = base
    · exact Or.inr ⟨[], by simp [heq], List.nil_prefix⟩
    · exact Or.inl ⟨habove, heq⟩
  · obtain ⟨below, rfl⟩ := hbase
    exact Or.inr ⟨below, rfl, (List.prefix_append_right_inj base).mp h⟩

theorem locate_below (hbased : Based base t) (hlinkless : Linkless (get base t)) :
    (⟨base ++ path, verb⟩ : Call ν).locate follow t = base ++ path := by
  refine Call.locate_eq fun above habove => ?_
  obtain ⟨hproper, hne⟩ | ⟨below, rfl, -⟩ := prefix_append_cases habove
  · rw [hbased above hproper hne]
    exact fun hlink => nomatch hlink
  · rw [node_append]
    exact hlinkless below

theorem node_above_append (hbased : Based base t) : node_above (base ++ path) t = node_above path (get base t) := by
  unfold node_above
  by_cases hpath : path = []
  · subst hpath
    rw [List.append_nil, if_pos rfl]
    split
    · rfl
    · rename_i hne
      refine hbased _ (List.dropLast_prefix base) fun heq => hne ?_
      have hlength := congrArg List.length heq
      rw [List.length_dropLast] at hlength
      exact List.length_eq_zero_iff.mp (by omega)
  · rw [if_neg hpath, if_neg (by simp [hpath]), List.dropLast_append_of_ne_nil hpath, node_append]

/-- A call below a directory that is reached over no link works on the subtree alone. -/
theorem exec_below (hbased : Based base t) (hlinkless : Linkless (get base t)) :
    ((⟨base ++ path, verb⟩ : Call ν).exec follow fault t).1 =
      ((⟨path, verb⟩ : Call ν).exec follow' fault (get base t)).1 ∧
      get base ((⟨base ++ path, verb⟩ : Call ν).exec follow fault t).2 =
        ((⟨path, verb⟩ : Call ν).exec follow' fault (get base t)).2 := by
  have hlocate : (⟨path, verb⟩ : Call ν).locate follow' (get base t) = path :=
    Call.locate_eq fun above _ => hlinkless above
  unfold Call.exec
  dsimp only
  rw [locate_below hbased hlinkless, hlocate, node_above_append hbased, get_append]
  exact ⟨rfl, by rw [alter_append, get_alter (Or.inr hbased)]⟩

theorem Call.linkless_exec (h : Linkless t) : Linkless (call.exec follow fault t).2 :=
  h.alter (fun _ _ => Verb.linkless_run _ (h.get _)) _

end

end

end FileTree
