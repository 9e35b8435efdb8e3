import FsArchiver.Lib.Trace
import FsArchiver.Paths

/-!
# System calls of a restoration

The calls that create and change files below the destination, with their results, in the order
in which they were made. What they leave behind is read off this log, so that a statement about
a restored file is a statement about every call that was made, whatever failed.
-/
namespace FsArchiver

/-- A system call on a file below the destination. A call on a descriptor carries the path the
descriptor was opened with. -/
inductive SysCall where
  | mkdir (path : Path)
  /-- `open64` for writing, which creates or empties the file. -/
  | create (path : Path)
  | write (path : Path) (data : List UInt8)
  /-- `lseek64` from the current position. -/
  | lseek (path : Path) (len : Nat)
  /-- `ftruncate` to the current position. -/
  | ftruncate (path : Path)
  | close (path : Path)
  | unlink (path : Path)
  /-- `truncate` to length 0. -/
  | truncate (path : Path)
  | symlink (target path : Path)
  /-- `creat`. -/
  | creat (path : Path)
  | link (target path : Path)
  | mknod (path : Path) (mode : UInt32) (dev : UInt64)
  | lchown (path : Path) (uid gid : UInt32)
  | chmod (path : Path) (mode : UInt32)
  | utimes (path : Path) (atime mtime : UInt64)
  /-- `lutimes`, whose result is not looked at. -/
  | lutimes (path : Path) (atime mtime : UInt64)
  | lsetxattr (path : Path) (name value : List UInt8)
  deriving DecidableEq

/-- The calls made so far with their results. -/
abbrev Log := List (SysCall × Int)

/-- The operating system: its answers may depend on everything done before. -/
structure Os where
  /-- The result of a call. -/
  answer : Log → SysCall → Int
  /-- `stat64` fails with `ENOENT`. -/
  missing : Log → Path → Bool
  /-- Access and modification time that `get_parent_dir_time_attrib` leaves behind. -/
  dirTimes : Log → Path → UInt64 × UInt64

/-- A program that makes calls. -/
abbrev Sys := Lib.Traced (SysCall × Int)

/-- A call and its result. -/
def Os.call (os : Os) (call : SysCall) : Sys Int :=
  ⟨fun log => (os.answer log call, log ++ [(call, os.answer log call)])⟩

/-- `stat64` fails with `ENOENT`, which no call records. -/
def Os.isMissing (os : Os) (path : Path) : Sys Bool := ⟨fun log => (os.missing log path, log)⟩

/-- `get_parent_dir_time_attrib`, which no call records. -/
def Os.getDirTimes (os : Os) (path : Path) : Sys (UInt64 × UInt64) :=
  ⟨fun log => (os.dirTimes log path, log)⟩

@[simp] theorem Os.run_isMissing (os : Os) (path : Path) (log : Log) :
    (os.isMissing path).run log = (os.missing log path, log) := rfl

@[simp] theorem Os.run_getDirTimes (os : Os) (path : Path) (log : Log) :
    (os.getDirTimes path).run log = (os.dirTimes log path, log) := rfl

/-! ## Contents of files -/

/-- A regular file and the position of its descriptor. -/
structure FileState where
  /-- The bytes. -/
  content : List UInt8
  /-- The position. -/
  offset : Nat
  deriving DecidableEq

/-- Bytes written at the position; a gap in front of them reads as zeros. -/
def FileState.write (file : FileState) (data : List UInt8) : FileState :=
  { content := file.content.take file.offset ++
      List.replicate (file.offset - file.content.length) 0 ++ data ++
      file.content.drop (file.offset + data.length)
    offset := file.offset + data.length }

/-- The file cut or extended with zeros to the position. -/
def FileState.resize (file : FileState) : FileState :=
  { file with content := file.content.take file.offset ++
      List.replicate (file.offset - file.content.length) 0 }

/-- What a call does to the regular file at a path. -/
def replay (path : Path) (file : Option FileState) : SysCall × Int → Option FileState
  | (.create at', res) => if at' = path ∧ 0 ≤ res then some ⟨[], 0⟩ else file
  | (.creat at', res) => if at' = path ∧ 0 ≤ res then some ⟨[], 0⟩ else file
  | (.write at' data, res) =>
    if at' = path then file.map (·.write (data.take res.toNat)) else file
  | (.lseek at' len, res) =>
    if at' = path ∧ 0 ≤ res then file.map fun file => { file with offset := file.offset + len }
    else file
  | (.ftruncate at', res) => if at' = path ∧ 0 ≤ res then file.map FileState.resize else file
  | (.truncate at', res) =>
    if at' = path ∧ 0 ≤ res then file.map fun file => { file with content := [] } else file
  | (.unlink at', res) => if at' = path ∧ 0 ≤ res then none else file
  | _ => file

/-- The regular file at a path after these calls, if they made one. -/
def fileAt (log : Log) (path : Path) : Option FileState := log.foldl (replay path) none

/-- The contents of the regular file that these calls made at a path. -/
def contentAt (log : Log) (path : Path) : Option (List UInt8) :=
  (fileAt log path).map FileState.content

/-! ## What a call is about -/

/-- The path whose regular file a call may change. -/
def SysCall.filePath : SysCall → Option Path
  | .create path | .creat path | .write path _ | .lseek path _ | .ftruncate path | .close path
  | .truncate path | .unlink path => some path
  | _ => none

/-- The path of the object a call makes or changes; none for a directory around it. -/
def SysCall.object : SysCall → Option Path
  | .symlink _ path | .link _ path | .mknod path _ _ | .lchown path _ _ | .chmod path _
  | .lutimes path _ _ | .lsetxattr path _ _ => some path
  | .mkdir _ | .utimes _ _ _ => none
  | call => call.filePath

/-- The calls that may change the regular file at a path. -/
def history (log : Log) (path : Path) : Log := log.filter fun entry => entry.1.filePath = some path

/-- A call on another path does nothing to the file at a path. -/
theorem replay_of_other {path : Path} {entry : SysCall × Int}
    (other : entry.1.filePath ≠ some path) (file : Option FileState) :
    replay path file entry = file := by
  obtain ⟨call, res⟩ := entry
  cases call with
  | create at' | creat at' | write at' | lseek at' | ftruncate at' | truncate at' | unlink at' =>
    have apart : at' ≠ path := fun same => other (congrArg some same)
    simp [replay, apart]
  | _ => rfl

/-- Nothing else matters for the file at a path. -/
theorem fileAt_eq (log : Log) (path : Path) :
    fileAt log path = (history log path).foldl (replay path) none := by
  have skip : ∀ (log : Log) (file : Option FileState), log.foldl (replay path) file =
      (history log path).foldl (replay path) file := by
    intro log
    induction log with
    | nil => exact fun _ => rfl
    | cons entry log ih =>
      intro file
      simp only [history, List.filter_cons]
      by_cases own : entry.1.filePath = some path
      · simp only [own, decide_true, ↓reduceIte, List.foldl_cons]
        exact ih _
      · have still := replay_of_other own file
        simp only [own, decide_false, Bool.false_eq_true, ↓reduceIte, List.foldl_cons, still]
        exact ih _
  exact skip log none

@[simp] theorem history_append (log made : Log) (path : Path) :
    history (log ++ made) path = history log path ++ history made path :=
  List.filter_append ..

/-- A call on the file at a path is one on its object. -/
theorem object_of_filePath {call : SysCall} {path : Path} (own : call.filePath = some path) :
    call.object = some path := by
  cases call with
  | create | creat | write | lseek | ftruncate | close | truncate | unlink => exact own
  | symlink | link | mknod | lchown | chmod | lutimes | lsetxattr | mkdir | utimes => cases own

/-- Calls on another object leave no trace in the history of a file. -/
theorem history_of_object {made : Log} {path : Path}
    (apart : ∀ entry ∈ made, entry.1.object ≠ some path) : history made path = [] := by
  refine List.filter_eq_nil_iff.mpr fun entry member own => apart entry member ?_
  exact object_of_filePath (by simpa using own)

/-! ## Systems on which nothing fails -/

/-- The result of a call that does what it is asked to. -/
def SysCall.success : SysCall → Int
  | .write _ data => data.length
  | _ => 0

/-- A call that need not fail: `mkdir`, whose result is never looked at, and hard links, which
depend on their target, are left out. -/
def SysCall.sure : SysCall → Bool
  | .mkdir _ | .link _ _ => false
  | .create _ | .write _ _ | .lseek _ _ | .ftruncate _ | .close _ | .unlink _ | .truncate _
  | .symlink _ _ | .creat _ | .mknod _ _ _ | .lchown _ _ _ | .chmod _ _ | .utimes _ _ _
  | .lutimes _ _ _ | .lsetxattr _ _ _ => true

/-- No call fails but for hard links to files that do not exist, and maybe `mkdir`. -/
structure Os.Calm (os : Os) : Prop where
  /-- A hard link to a regular file that was made. -/
  link : ∀ log target path, (contentAt log target).isSome → os.answer log (.link target path) = 0
  /-- Any other call. -/
  answer : ∀ log call, call.sure = true → os.answer log call = call.success

/-- What a call does on such a system. -/
theorem Os.Calm.call_eq {os : Os} (calm : os.Calm) (log : Log) (call : SysCall) :
    (os.call call).run log =
      (if call.sure then call.success else os.answer log call,
        log ++ [(call, if call.sure then call.success else os.answer log call)]) := by
  cases sure : call.sure with
  | false => rfl
  | true => simp only [Os.call, calm.answer log call sure, ↓reduceIte]

end FsArchiver
