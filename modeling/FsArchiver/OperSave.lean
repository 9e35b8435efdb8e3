import FsArchiver.Datafile
import FsArchiver.Regmulti

/-!
# Saving objects

`oper_save.c` from the object up to the walk of a directory. What the system calls on an object
answer is part of the object, so that a directory tree with its answers is an arbitrary pattern
of failing calls. The walk is not interrupted, memory never runs out, and what is put on the
queue is collected in order.
-/
namespace FsArchiver

open Lib

/-! ## What the system answers -/

/-- The fields of `struct stat64` that are read, and the device. -/
structure Stat where
  /-- `st_dev`, which the source does not read. -/
  dev : UInt64
  /-- `st_mode`. -/
  mode : UInt32
  /-- `st_nlink`. -/
  nlink : UInt64
  /-- `st_uid`. -/
  uid : UInt32
  /-- `st_gid`. -/
  gid : UInt32
  /-- `st_rdev`. -/
  rdev : UInt64
  /-- `st_ino`. -/
  ino : UInt64
  /-- `st_size`, never negative. -/
  size : UInt64
  /-- `st_blocks`. -/
  blocks : UInt64
  /-- `st_atime`. -/
  atime : UInt64
  /-- `st_mtime`. -/
  mtime : UInt64
  deriving DecidableEq

/-- The file types of `S_IFMT`. -/
inductive FileType where
  | dir | lnk | reg | chr | blk | fifo | sock | other
  deriving DecidableEq, Repr

/-- `st_mode & S_IFMT`. -/
def Stat.fileType (st : Stat) : FileType :=
  let format := st.mode &&& 0o170000
  if format = 0o040000 then .dir
  else if format = 0o120000 then .lnk
  else if format = 0o100000 then .reg
  else if format = 0o020000 then .chr
  else if format = 0o060000 then .blk
  else if format = 0o010000 then .fifo
  else if format = 0o140000 then .sock
  else .other

/-- Why an attribute cannot be read: `ENOATTR`, or anything else. -/
inductive AttrError where
  | noattr | other
  deriving DecidableEq, Repr

/-- What two calls of `lgetxattr` for one attribute answer. -/
structure AttrCalls where
  /-- The size. -/
  size : Except AttrError Nat
  /-- The value. -/
  value : Except AttrError (List UInt8)

/-- What the calls on one object answer. -/
structure ObjectCalls where
  /-- The path is the one of the current volume. -/
  isCurvol : Bool
  /-- `readlink`. -/
  readlink : Option Path
  /-- `lstat64` of the target of a symbolic link. -/
  linkTarget : Option Stat
  /-- The names `llistxattr` lists, with the calls for each; nothing if it fails. -/
  xattrs : List (List UInt8 × AttrCalls)
  /-- The calls for the attributes of `winattr[]`. -/
  winattrs : List UInt8 → AttrCalls
  /-- `open64` of a regular file; `read` at a position of so many bytes. -/
  openFile : Option (Nat → Nat → Option (List UInt8))

/-- `read`: at most so many bytes. -/
def readFile (file : Nat → Nat → Option (List UInt8)) (pos count : Nat) : Option (List UInt8) :=
  (file pos count).map (·.take count)

/-! ## State -/

/-- `s_stats`. -/
structure Stats where
  cntRegfile : Nat := 0
  cntDir : Nat := 0
  cntSymlink : Nat := 0
  cntHardlink : Nat := 0
  cntSpecial : Nat := 0
  errRegfile : Nat := 0
  errDir : Nat := 0
  errSymlink : Nat := 0
  errHardlink : Nat := 0
  errSpecial : Nat := 0
  deriving DecidableEq

/-- `stats_errcount`. -/
def statsErrcount (stats : Stats) : Nat :=
  stats.errRegfile + stats.errDir + stats.errSymlink + stats.errHardlink + stats.errSpecial

/-- What is known of the type of a filesystem. -/
structure Filesys where
  /-- `support_for_xattr`. -/
  supportForXattr : Bool
  /-- `winattr`. -/
  winattr : Bool
  /-- `savesymtargettype`. -/
  savesymtargettype : Bool

/-- The options that matter here. -/
structure SaveOptions where
  /-- `datablocksize`. -/
  datablocksize : Nat
  /-- `smallfilethresh`. -/
  smallfilethresh : Nat
  /-- `exclude_check` for the list of patterns. -/
  exclude : Path → Bool
  /-- Option `-A`. -/
  allowsaverw : Bool

/-- `s_dichlitem`: device, inode and path of a file with several links. -/
structure DichlItem where
  key1 : UInt64
  key2 : UInt64
  str : Path
  deriving DecidableEq

/-- `s_savear`, with what was put on the queue and the cost of the evaluation. -/
structure Savear where
  /-- Filesystem id. -/
  fsid : UInt16
  /-- Type of the filesystem. -/
  fstype : Filesys
  /-- Number of the next object. -/
  objectid : UInt64
  /-- Files with several links seen so far. -/
  dichardlinks : List DichlItem
  /-- Small files not yet on the queue. -/
  regmulti : Regmulti
  /-- Statistics. -/
  stats : Stats
  /-- `*costeval`. -/
  cost : UInt64
  /-- What was put on the queue. -/
  pushed : List QueueData

/-- `queue_add_header` and `queue_add_block` while the queue is open. -/
def Savear.push (save : Savear) (items : List QueueData) : Savear :=
  { save with pushed := save.pushed ++ items }

/-! ## Attributes -/

/-- `dichl_get` for a buffer of `PATH_MAX` bytes. -/
def dichlGet (d : List DichlItem) (key1 key2 : UInt64) : Option Path :=
  match d.find? fun item => item.key1 = key1 ∧ item.key2 = key2 with
  | none => none
  | some item => if pathMax < item.str.length + 1 then none else some item.str

/-- `dichl_add`; keys that are there already are an error that the caller ignores. -/
def dichlAdd (d : List DichlItem) (key1 key2 : UInt64) (str : Path) : List DichlItem :=
  if d.any fun item => item.key1 = key1 ∧ item.key2 = key2 then d else d ++ [⟨key1, key2, str⟩]

/-- The loop of `createar_item_xattr` from the attribute with this number on. -/
def createarItemXattr (d : Dico) : Nat → List (List UInt8 × AttrCalls) → Bool × Dico
  | _, [] => (true, d)
  | attrcnt, (name, calls) :: rest =>
    if calls.size.toOption.getD 0 > 65535 then
      (false, (createarItemXattr d attrcnt rest).2)
    else
      match calls.value with
      | .ok value =>
        let d := dicoAddAll d [dicoAddString Section.xattr (UInt16.ofNat (2 * attrcnt)) name,
          dicoAddData Section.xattr (UInt16.ofNat (2 * attrcnt + 1)) value]
        createarItemXattr d (attrcnt + 1) rest
      | .error .noattr => createarItemXattr d attrcnt rest
      | .error .other => (false, (createarItemXattr d attrcnt rest).2)

/-- `winattr[]`: `system.ntfs_acl`, `_attrib`, `_reparse_data`, `_times`, `_dos_name`. -/
def winattrNames : List (List UInt8) :=
  ["system.ntfs_acl", "system.ntfs_attrib", "system.ntfs_reparse_data", "system.ntfs_times",
    "system.ntfs_dos_name"].map fun name => name.toList.map fun char => UInt8.ofNat char.toNat

/-- The loop of `createar_item_winattr` from the attribute with this number on. -/
def createarItemWinattr (calls : List UInt8 → AttrCalls) (d : Dico) :
    Nat → List (List UInt8) → Bool × Dico
  | _, [] => (true, d)
  | attrcnt, name :: rest =>
    match (calls name).size with
    | .error .noattr => createarItemWinattr calls d attrcnt rest
    | .error .other => (false, (createarItemWinattr calls d attrcnt rest).2)
    | .ok size =>
      if size > 65535 then (false, (createarItemWinattr calls d attrcnt rest).2)
      else
        match (calls name).value with
        | .ok value =>
          let d := dicoAddAll d
            [dicoAddString Section.winattr (UInt16.ofNat (2 * attrcnt)) name,
              dicoAddData Section.winattr (UInt16.ofNat (2 * attrcnt + 1)) value]
          createarItemWinattr calls d (attrcnt + 1) rest
        | .error .noattr => createarItemWinattr calls d attrcnt rest
        | .error .other => (false, (createarItemWinattr calls d attrcnt rest).2)

/-- What `createar_item_stdattr` leaves behind. -/
structure ItemStdattr where
  /-- It returns 0. -/
  ok : Bool
  /-- The header. -/
  d : Dico
  /-- `*objtype`. -/
  objtype : ObjType
  /-- `*filecost`. -/
  filecost : UInt64

/-- `FSA_COST_PER_FILE`. -/
def costPerFile : UInt64 := 16384

/-- The attributes every object has. -/
def stdattrCalls (objectid : UInt64) (relpath : Path) (st : Stat) : List DicoCall :=
  [dicoAddU64 Section.stdattr ItemKey.objectid objectid,
    dicoAddString Section.stdattr ItemKey.path relpath,
    dicoAddU64 Section.stdattr ItemKey.size st.size,
    dicoAddU32 Section.stdattr ItemKey.mode st.mode,
    dicoAddU32 Section.stdattr ItemKey.uid st.uid,
    dicoAddU32 Section.stdattr ItemKey.gid st.gid,
    dicoAddU64 Section.stdattr ItemKey.atime st.atime.toUInt32.toUInt64,
    dicoAddU64 Section.stdattr ItemKey.mtime st.mtime.toUInt32.toUInt64]

/-- The characters `/tmp/fsa/`. -/
def tmpFsa : Path := [0x2f, 0x74, 0x6d, 0x70, 0x2f, 0x66, 0x73, 0x61, 0x2f]

/-- One component less: a leading slash, if there is one, and what follows up to the next. -/
def dropComponent (path : Path) : Path :=
  (if path.head? = some slash then path.tail else path).dropWhile (· ≠ slash)

/-- The target of a symbolic link without the directory a filesystem was mounted on. -/
def fixLinkTarget (target : Path) : Path :=
  if target.take 9 = tmpFsa then dropComponent (dropComponent (dropComponent target)) else target

/-- The items of a symbolic link. -/
def symlinkCalls (fstype : Filesys) (target : Path) (linkTarget : Option Stat) : List DicoCall :=
  dicoAddString Section.stdattr ItemKey.symlink (fixLinkTarget target) ::
    if fstype.savesymtargettype then
      match linkTarget.map Stat.fileType with
      | some .dir => [dicoAddU64 Section.stdattr ItemKey.linktargettype
          ObjType.dir.code.toUInt64]
      | some .reg => [dicoAddU64 Section.stdattr ItemKey.linktargettype
          ObjType.regfileunique.code.toUInt64]
      | _ => []
    else []

/-- The type of a regular file that is not a hard link to an earlier one. -/
def regfileType (opts : SaveOptions) (st : Stat) : ObjType :=
  if 0 < st.size ∧ st.size.toNat < opts.smallfilethresh ∧ st.nlink = 1 then .regfilemulti
  else .regfileunique

/-- `FSA_FILEFLAGS_SPARSE` for a file with fewer blocks than its size needs. -/
def regfileFlags (st : Stat) : UInt64 := if st.blocks * 512 < st.size then fileFlagsSparse else 0

/-- The last items of `createar_item_stdattr`. -/
def objtypeCalls (objtype : ObjType) (flags : UInt64) : List DicoCall :=
  dicoAddU32 Section.stdattr ItemKey.objtype objtype.code ::
    if flags ≠ 0 then [dicoAddU64 Section.stdattr ItemKey.flags flags] else []

/-- `createar_item_stdattr`. -/
def createarItemStdattr (opts : SaveOptions) (save : Savear) (relpath : Path) (st : Stat)
    (calls : ObjectCalls) : ItemStdattr × Savear :=
  let filecost := costPerFile
  let objectid := save.objectid
  let save := { save with objectid := save.objectid + 1 }
  match dicoAddEach Dico.alloc (stdattrCalls objectid relpath st) with
  | none => (⟨false, Dico.alloc, .null, filecost⟩, save)
  | some d =>
    let other (objtype : ObjType) (calls : List DicoCall) : ItemStdattr × Savear :=
      (⟨true, dicoAddAll d (calls ++ objtypeCalls objtype 0), objtype, filecost⟩, save)
    let special (objtype : ObjType) :=
      other objtype [dicoAddU64 Section.stdattr ItemKey.rdev st.rdev]
    match st.fileType with
    | .dir => other .dir []
    | .lnk =>
      match calls.readlink with
      | none => (⟨false, d, .symlink, filecost⟩, save)
      | some target => other .symlink (symlinkCalls save.fstype target calls.linkTarget)
    | .reg =>
      match if st.nlink > 1 then dichlGet save.dichardlinks st.rdev st.ino else none with
      | some target => other .hardlink [dicoAddString Section.stdattr ItemKey.hardlink target]
      | none =>
        let save := if st.nlink > 1 then
          { save with dichardlinks := dichlAdd save.dichardlinks st.rdev st.ino relpath } else save
        let objtype := regfileType opts st
        (⟨true, dicoAddAll d (objtypeCalls objtype (regfileFlags st)), objtype,
          filecost + st.size⟩, save)
    | .chr => special .chardev
    | .blk => special .blockdev
    | .fifo => special .fifo
    | .sock => special .socket
    | .other => (⟨false, d, .null, filecost⟩, save)

/-! ## Contents of regular files -/

/-- `createar_obj_regfile_multi`: whether it returns 0. -/
def createarObjRegfileMulti (mem : Mem) (md5 : Md5) (save : Savear) (header : Dico)
    (openFile : Option (Nat → Nat → Option (List UInt8))) (filesize : Nat) : Bool × Savear :=
  match openFile with
  | none => (false, save)
  | some file =>
    match readFile file 0 filesize with
    | none => (false, save)
    | some read =>
      let databuf := read ++ List.replicate (filesize - read.length) 0
      let header := dicoAddAll header
        [dicoAddData Section.stdattr ItemKey.md5sum (md5.digest databuf)]
      let addfile (save : Savear) : Bool × Savear :=
        match regmultiSaveAddfile save.regmulti header databuf with
        | none => (false, save)
        | some regmulti => (decide (read.length = filesize), { save with regmulti })
      if regmultiSaveEnoughSpaceForNewFile save.regmulti filesize then addfile save
      else
        -- a full pack goes to the queue first
        match regmultiSaveEnqueue mem save.regmulti save.fsid with
        | (pushed, false) => (false, save.push pushed)
        | (pushed, true) =>
          addfile { save.push pushed with regmulti := regmultiEmpty save.regmulti }

/-- What the loop of `createar_obj_regfile_unique` does with a file. -/
structure RegfileBlocks where
  /-- The blocks that were put on the queue. -/
  blocks : List BlockInfo
  /-- Every read delivered all it was asked for. -/
  complete : Bool
  /-- A read failed, which leaves the function without a footer. -/
  failed : Bool

/-- A block of a file as it is put on the queue. -/
def regfileBlock (fsid : UInt16) (filepos : Nat) (data : List UInt8) : BlockInfo :=
  { BlockInfo.zero with
    blkdata := data
    blkrealsize := UInt32.ofNat data.length
    blkoffset := UInt64.ofNat filepos
    blkfsid := fsid }

/-- The loop of `createar_obj_regfile_unique`, for at most so many blocks. -/
def regfileBlocks (fsid : UInt16) (blksize filesize : Nat)
    (file : Nat → Nat → Option (List UInt8)) : Nat → Nat → Bool → RegfileBlocks
  | 0, _, _ => ⟨[], true, false⟩
  | fuel + 1, filepos, eof =>
    if filepos < filesize then
      let curblocksize := min (filesize - filepos) blksize
      let block (data : List UInt8) (complete eof : Bool) : RegfileBlocks :=
        let rest := regfileBlocks fsid blksize filesize file fuel (filepos + curblocksize) eof
        ⟨regfileBlock fsid filepos data :: rest.blocks, complete && rest.complete, rest.failed⟩
      if eof then block (List.replicate curblocksize 0) true true
      else
        match readFile file filepos curblocksize with
        | none => ⟨[], false, true⟩
        | some read =>
          if read.length = curblocksize then block read true false
          else block (read ++ List.replicate (curblocksize - read.length) 0) false true
    else ⟨[], true, false⟩

/-- The footer of a regular file. -/
def regfileFooter (md5 : Md5) (contents : List UInt8) : Dico :=
  dicoAddAll Dico.alloc [dicoAddData Section.stdattr footerMd5sum (md5.digest contents)]

/-- `createar_obj_regfile_unique`: whether it returns 0. -/
def createarObjRegfileUnique (opts : SaveOptions) (md5 : Md5) (save : Savear) (header : Dico)
    (openFile : Option (Nat → Nat → Option (List UInt8))) (filesize : Nat) : Bool × Savear :=
  match openFile with
  | none => (false, save)
  | some file =>
    let loop := regfileBlocks save.fsid opts.datablocksize filesize file filesize 0 false
    let save := save.push (.header ⟨.objt, save.fsid, header⟩ :: loop.blocks.map .block)
    if loop.failed then (false, save)
    else if filesize > 0 then
      let footerdico := regfileFooter md5 (loop.blocks.flatMap BlockInfo.blkdata)
      (loop.complete, save.push [.header ⟨.filf, save.fsid, footerdico⟩])
    else (loop.complete, save)

/-! ## Objects and directories -/

/-- The counter of an object's type goes up. -/
def Stats.count (stats : Stats) : ObjType → Stats
  | .dir => { stats with cntDir := stats.cntDir + 1 }
  | .symlink => { stats with cntSymlink := stats.cntSymlink + 1 }
  | .hardlink => { stats with cntHardlink := stats.cntHardlink + 1 }
  | .chardev | .blockdev | .fifo | .socket => { stats with cntSpecial := stats.cntSpecial + 1 }
  | .regfileunique | .regfilemulti => { stats with cntRegfile := stats.cntRegfile + 1 }
  | .null => stats

/-- The error counter of an object's type goes up. -/
def Stats.fail (stats : Stats) : ObjType → Stats
  | .dir => { stats with errDir := stats.errDir + 1 }
  | .symlink => { stats with errSymlink := stats.errSymlink + 1 }
  | .hardlink => { stats with errHardlink := stats.errHardlink + 1 }
  | .chardev | .blockdev | .fifo | .socket => { stats with errSpecial := stats.errSpecial + 1 }
  | .regfileunique | .regfilemulti => { stats with errRegfile := stats.errRegfile + 1 }
  | .null => stats

/-- `createar_save_file`: whether it returns 0. With `costeval` only the cost is added up. -/
def createarSaveFile (mem : Mem) (md5 : Md5) (opts : SaveOptions) (save : Savear)
    (relpath : Path) (st : Stat) (calls : ObjectCalls) (costeval : Bool) : Bool × Savear :=
  if calls.isCurvol then (true, { save with stats := save.stats.fail .regfileunique })
  else
    let (item, save) := createarItemStdattr opts save relpath st calls
    if costeval then (true, { save with cost := save.cost + item.filecost })
    else
      let (xattrOk, d) :=
        if save.fstype.supportForXattr then createarItemXattr item.d 0 calls.xattrs
        else (true, item.d)
      let names := winattrNames.take (if relpath = [slash] then 4 else 5)
      let (winattrOk, d) :=
        if save.fstype.winattr then createarItemWinattr calls.winattrs d 0 names else (true, d)
      if item.objtype = .null then (false, save)
      else if !(item.ok && xattrOk && winattrOk) then
        (true, { save with stats := save.stats.fail item.objtype })
      else
        let (saved, save) :=
          match item.objtype with
          | .regfileunique =>
            createarObjRegfileUnique opts md5 save d calls.openFile st.size.toNat
          | .regfilemulti =>
            createarObjRegfileMulti mem md5 save d calls.openFile st.size.toNat
          | _ => (true, save.push [.header ⟨.objt, save.fsid, d⟩])
        (true, { save with stats :=
          if saved then save.stats.count item.objtype else save.stats.fail item.objtype })

/-- What the calls on a directory answer when it is walked. -/
structure DirCalls where
  /-- `opendir`. -/
  opendir : Bool
  /-- `lstat64` of the directory itself. -/
  lstat : Option Stat
  /-- The calls for its attributes. -/
  calls : ObjectCalls

/-- The entries of a directory other than `.` and `..`, in the order of `readdir`, with
everything below them. -/
inductive DirStream where
  | eof
  /-- An entry: its name, `lstat64`, the calls on it, and the walk of it if it is a directory. -/
  | entry (name : Path) (lstat : Option Stat) (calls : ObjectCalls) (dir : DirCalls)
      (sub rest : DirStream)

/-- `createar_save_directory`, with the loop over the entries as an argument. -/
def createarSaveDirectory (mem : Mem) (md5 : Md5) (opts : SaveOptions) (costeval : Bool)
    (loop : Savear → Bool × Savear) (save : Savear) (path : Path) (dir : DirCalls) :
    Bool × Savear :=
  if !dir.opendir then (true, save)
  else
    match dir.lstat with
    | none => (false, save)
    | some statbuf =>
      match createarSaveFile mem md5 opts save path statbuf dir.calls costeval with
      | (false, save) => (false, save)
      | (true, save) => loop save

/-- The loop of `createar_save_directory` over the entries of the directory at a path. -/
def saveEntries (mem : Mem) (md5 : Md5) (opts : SaveOptions) (costeval : Bool) (path : Path) :
    DirStream → Savear → Bool × Savear
  | .eof, save => (true, save)
  | .entry name lstat calls dir sub rest, save =>
    let relpath := concatenatePaths path name
    let onward := saveEntries mem md5 opts costeval path rest
    match lstat with
    | none => if opts.allowsaverw then onward save else (false, save)
    | some statbuf =>
      if opts.exclude name || opts.exclude relpath then onward save
      else
        let saved :=
          if statbuf.fileType = .dir then
            createarSaveDirectory mem md5 opts costeval
              (saveEntries mem md5 opts costeval relpath sub) save relpath dir
          else createarSaveFile mem md5 opts save relpath statbuf calls costeval
        match saved with
        | (false, save) => (false, save)
        | (true, save) => onward save

/-- `createar_save_directory_wrapper`. -/
def createarSaveDirectoryWrapper (mem : Mem) (md5 : Md5) (opts : SaveOptions) (costeval : Bool)
    (save : Savear) (path : Path) (dir : DirCalls) (entries : DirStream) : Bool × Savear :=
  let save := { save with dichardlinks := [], regmulti := regmultiInit opts.datablocksize }
  let (ret, save) := createarSaveDirectory mem md5 opts costeval
    (saveEntries mem md5 opts costeval path entries) save path dir
  let (pushed, queued) := regmultiSaveEnqueue mem save.regmulti save.fsid
  (ret && queued, save.push pushed)

end FsArchiver
