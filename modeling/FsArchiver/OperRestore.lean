import FsArchiver.ArchReader
import FsArchiver.OperSave

/-!
# Restoring objects

`oper_restore.c` from the attributes of an object up to the loop over the objects of a
filesystem. Every system call may fail. The restoration is not interrupted, memory never runs
out, and the cost that the progress bar shows is left out.
-/
namespace FsArchiver

open Lib

/-! ## The queue as the consumer sees it -/

/-- `queue_dequeue_header` once nothing is to be waited for. -/
def dequeueHeader : List QueueData → Except FsaErr (HeadInfo × List QueueData)
  | [] => .error .endoffile
  | .header headinfo :: rest => .ok (headinfo, rest)
  | .block _ :: _ => .error .wrongtype

/-- `queue_dequeue_block` once nothing is to be waited for. -/
def dequeueBlock : List QueueData → Except FsaErr (BlockInfo × List QueueData)
  | [] => .error .endoffile
  | .block blkinfo :: rest => .ok (blkinfo, rest)
  | .header _ :: _ => .error .wrongtype

/-! ## Context and state -/

/-- What does not change during a restoration. -/
structure Context where
  /-- The operating system. -/
  os : Os
  /-- MD5. -/
  md5 : Md5
  /-- Memory that was not set. -/
  mem : Mem
  /-- `exclude_check` for the list of patterns. -/
  exclude : Path → Bool
  /-- Where the filesystem is mounted, or the directory to restore to. -/
  destdir : Path
  /-- Filesystem id. -/
  fsid : UInt16
  /-- The filesystem is an ntfs one. -/
  ntfs : Bool
  /-- `HAVE_LUTIMES`. -/
  haveLutimes : Bool

/-- `s_extractar`, with the queue, the system calls made so far and the items that were
skipped as garbage. -/
structure Extractar where
  /-- What is left on the queue. -/
  queue : List QueueData
  /-- System calls. -/
  log : Log
  /-- Statistics. -/
  stats : Stats
  /-- `*errors`. -/
  errors : Nat
  /-- Items skipped. -/
  skipped : List QueueData

/-! ## Directories and attributes -/

/-- The loop of `mkdir_recursive`. -/
def mkdirEach (os : Os) : List Path → Sys Unit
  | [] => return ()
  | buffer :: rest => do
    if ← os.isMissing buffer then
      let _ ← os.call (.mkdir buffer)
      mkdirEach os rest
    else mkdirEach os rest

/-- `mkdir_recursive`, which always succeeds. -/
def mkdirRecursive (os : Os) (path : Path) : Sys Unit :=
  mkdirEach os (((List.range (path.length + 1)).filter fun pos =>
    path[pos]? = some slash ∨ pos = path.length).map path.take)

/-- The standard attributes of an object. -/
structure StdAttr where
  mode : UInt32
  uid : UInt32
  gid : UInt32
  atime : UInt64
  mtime : UInt64

/-- The first half of `extractar_restore_attr_std`. -/
def readStdAttr (mem : Mem) (d : Dico) : Option StdAttr := do
  let mode ← dicoGetU32 mem d Section.stdattr ItemKey.mode
  let uid ← dicoGetU32 mem d Section.stdattr ItemKey.uid
  let gid ← dicoGetU32 mem d Section.stdattr ItemKey.gid
  let atime ← dicoGetU64 mem d Section.stdattr ItemKey.atime
  let mtime ← dicoGetU64 mem d Section.stdattr ItemKey.mtime
  some { mode, uid, gid, atime, mtime }

/-- `extractar_restore_attr_std`. -/
def extractarRestoreAttrStd (ctx : Context) (objtype : UInt32) (fullpath : Path) (d : Dico) :
    Sys Bool := do
  match readStdAttr ctx.mem d with
  | none => return false
  | some attr =>
    let res ← ctx.os.call (.lchown fullpath attr.uid attr.gid)
    if res ≠ 0 then return false
    else if objtype = ObjType.symlink.code then
      if ctx.haveLutimes then
        let _ ← ctx.os.call (.lutimes fullpath attr.atime attr.mtime)
        return true
      else return true
    else
      let res ← ctx.os.call (.chmod fullpath attr.mode)
      if res ≠ 0 then return false
      else
        let res ← ctx.os.call (.utimes fullpath attr.atime attr.mtime)
        return decide (res = 0)

/-- An attribute whose name has this key: its name and value, if both fit their buffers. -/
def readAttr (d : Dico) (sect : UInt8) (key : Nat) : Option (List UInt8 × List UInt8) := do
  let name ← dicoGetString d sect (UInt16.ofNat key) 2048
  let value ← dicoGetData d sect (UInt16.ofNat (key + 1)) 65535
  some (cString (stringBuffer 2048 name), value)

/-- The loop of the two functions below for the attributes whose names have these keys. -/
def restoreAttrs (ctx : Context) (sect : UInt8) (fullpath : Path) (d : Dico) :
    List Nat → Sys Bool
  | [] => return true
  | key :: rest => do
    match readAttr d sect key with
    | none =>
      let _ ← restoreAttrs ctx sect fullpath d rest
      return false
    | some (name, value) =>
      let res ← ctx.os.call (.lsetxattr fullpath name value)
      let others ← restoreAttrs ctx sect fullpath d rest
      return others && decide (res = 0)

/-- The keys `i` of a loop `for (i=0; i < size; i+=2)`. -/
def evenKeys (size : Nat) : List Nat := (List.range ((size + 1) / 2)).map (2 * ·)

/-- `extractar_restore_attr_xattr`. -/
def extractarRestoreAttrXattr (ctx : Context) (fullpath : Path) (d : Dico) : Sys Bool :=
  restoreAttrs ctx Section.xattr fullpath d (evenKeys (dicoCountOneSection d Section.xattr))

/-- `extractar_restore_attr_windows`. -/
def extractarRestoreAttrWindows (ctx : Context) (fullpath : Path) (d : Dico) : Sys Bool :=
  restoreAttrs ctx Section.winattr fullpath d (evenKeys (dicoCountOneSection d Section.winattr))

/-- `extractar_restore_attr_everything`. -/
def extractarRestoreAttrEverything (ctx : Context) (objtype : UInt32) (fullpath : Path)
    (d : Dico) : Sys Bool := do
  let std ← extractarRestoreAttrStd ctx objtype fullpath d
  let xattr ← extractarRestoreAttrXattr ctx fullpath d
  let windows ← extractarRestoreAttrWindows ctx fullpath d
  return std && xattr && windows

/-! ## Objects made of a header only -/

/-- The parent directory is made, and its times are kept. -/
def enterParent (ctx : Context) (fullpath : Path) : Sys (UInt64 × UInt64) := do
  let parentdir := extractDirpath fullpath
  mkdirRecursive ctx.os parentdir
  ctx.os.getDirTimes parentdir

/-- The parent directory gets its times back. -/
def leaveParent (ctx : Context) (fullpath : Path) (tv : UInt64 × UInt64) : Sys Bool := do
  let res ← ctx.os.call (.utimes (extractDirpath fullpath) tv.1 tv.2)
  return decide (res = 0)

/-- What the functions below have in common: whether an object counts as restored. -/
def restoreEntry (ctx : Context) (fullpath relpath : Path) (d : Dico) (objtype : UInt32)
    (make : Sys Bool) : Sys Bool := do
  if isFiledirExcluded ctx.exclude relpath then return false
  else
    let tv ← enterParent ctx fullpath
    let made ← make
    if !made then return false
    else
      let attrs ← extractarRestoreAttrEverything ctx objtype fullpath d
      if !attrs then return false
      else leaveParent ctx fullpath tv

/-- A path read by `dico_get_data` into a buffer of `PATH_MAX` bytes. -/
def readPath (mem : Mem) (d : Dico) (key : UInt16) : Option Path :=
  (dicoGetData d Section.stdattr key pathMax).map fun data => cString (localBuffer mem pathMax data)

/-- The target of a link, read by `dico_get_string` into a buffer of `PATH_MAX` bytes. -/
def readTarget (d : Dico) (key : UInt16) : Option Path :=
  (dicoGetString d Section.stdattr key pathMax).map fun data => cString (stringBuffer pathMax data)

/-- How a symbolic link is made. On ntfs it becomes a file or a directory. -/
def makeSymlink (ctx : Context) (fullpath : Path) (d : Dico) : Sys Bool := do
  match readTarget d ItemKey.symlink with
  | none => return false
  | some buffer =>
    match dicoGetU64 ctx.mem d Section.stdattr ItemKey.linktargettype, ctx.ntfs with
    | some targettype, true =>
      if targettype = ObjType.dir.code.toUInt64 then
        mkdirRecursive ctx.os fullpath
        return true
      else if targettype = ObjType.regfileunique.code.toUInt64 then
        let fdtemp ← ctx.os.call (.creat fullpath)
        if fdtemp < 0 then return false
        else
          let _ ← ctx.os.call (.close fullpath)
          return true
      else return false
    | _, _ =>
      let res ← ctx.os.call (.symlink buffer fullpath)
      return decide (0 ≤ res)

/-- How a hard link is made. -/
def makeHardlink (ctx : Context) (fullpath : Path) (d : Dico) : Sys Bool := do
  match readTarget d ItemKey.hardlink with
  | none => return false
  | some buffer =>
    let res ← ctx.os.call (.link (concatenatePaths ctx.destdir buffer) fullpath)
    return decide (res = 0)

/-- How a special file is made. -/
def makeDevfile (ctx : Context) (fullpath : Path) (d : Dico) : Sys Bool := do
  match dicoGetU64 ctx.mem d Section.stdattr ItemKey.rdev with
  | none => return false
  | some dev =>
    match dicoGetU32 ctx.mem d Section.stdattr ItemKey.mode with
    | none => return false
    | some mode =>
      let res ← ctx.os.call (.mknod fullpath mode dev)
      return decide (res = 0)

/-- `extractar_restore_obj_symlink`. -/
def extractarRestoreObjSymlink (ctx : Context) (fullpath relpath : Path) (d : Dico)
    (objtype : UInt32) : Sys Bool :=
  restoreEntry ctx fullpath relpath d objtype (makeSymlink ctx fullpath d)

/-- `extractar_restore_obj_hardlink`. -/
def extractarRestoreObjHardlink (ctx : Context) (fullpath relpath : Path) (d : Dico)
    (objtype : UInt32) : Sys Bool :=
  restoreEntry ctx fullpath relpath d objtype (makeHardlink ctx fullpath d)

/-- `extractar_restore_obj_devfile`. -/
def extractarRestoreObjDevfile (ctx : Context) (fullpath relpath : Path) (d : Dico)
    (objtype : UInt32) : Sys Bool :=
  restoreEntry ctx fullpath relpath d objtype (makeDevfile ctx fullpath d)

/-- `extractar_restore_obj_directory`. -/
def extractarRestoreObjDirectory (ctx : Context) (fullpath relpath : Path) (d : Dico)
    (objtype : UInt32) : Sys Bool :=
  restoreEntry ctx fullpath relpath d objtype do
    mkdirRecursive ctx.os fullpath
    return true

/-! ## Packs of small files -/

/-- The loop of `extractar_restore_obj_regfile_multi` over this many headers: whether it goes
on behind them, the pack and what is left on the queue. -/
def restoreHeaders : Nat → Regmulti → List QueueData → Bool × Regmulti × List QueueData
  | 0, regmulti, queue => (true, regmulti, queue)
  | count + 1, regmulti, queue =>
    match dequeueHeader queue with
    | .error _ => (false, regmulti, queue)
    | .ok (head, queue) =>
      if head.magic ≠ .objt then (false, regmulti, queue)
      else
        match regmultiRestAddheader regmulti head.dico with
        | none => (false, regmulti, queue)
        | some regmulti => restoreHeaders count regmulti queue

/-- How the restoration of one small file ends. -/
inductive SmallFile where
  /-- It counts as restored. -/
  | restored
  /-- It counts as an error. -/
  | failed
  /-- It is not to be restored. -/
  | excluded
  /-- It could not be written, which ends the restoration. -/
  | fatal
  deriving DecidableEq

/-- The data of a small file is written to a new file. -/
def writeSmallFile (ctx : Context) (fullpath : Path) (filehead : Dico) (databuf : List UInt8) :
    Sys SmallFile := do
  match dicoGetData filehead Section.stdattr ItemKey.md5sum 16 with
  | none => return .failed
  | some md5sumorig =>
    let (opened, datafile) ← datafileOpenWrite ctx.os datafileAlloc fullpath false false
    if !opened then return .failed
    else
      let (written, datafile) ← datafileWrite ctx.os datafile databuf
      let closed ← datafileClose ctx.os ctx.md5 datafile
      if !written then
        let _ ← ctx.os.call (.unlink fullpath)
        return .fatal
      else if closed.md5 ≠ some (localBuffer ctx.mem 16 md5sumorig) then
        let _ ← ctx.os.call (.truncate fullpath)
        return .failed
      else return .restored

/-- One round of the second loop of `extractar_restore_obj_regfile_multi`. The `cdatafile` is
closed at the end of each round, so that every round starts with a new one. -/
def restoreSmallFile (ctx : Context) (objtype : UInt32) (regmulti : Regmulti) (index : Nat) :
    Sys SmallFile := do
  match regmultiRestGetfile ctx.mem regmulti index with
  | none => return .failed
  | some (filehead, databuf) =>
    match dicoGetU32 ctx.mem filehead Section.stdattr ItemKey.objtype with
    | none => return .failed
    | some _ =>
      match readPath ctx.mem filehead ItemKey.path with
      | none => return .failed
      | some relpath =>
        let fullpath := concatenatePaths ctx.destdir relpath
        if isFiledirExcluded ctx.exclude relpath then return .excluded
        else
          let tv ← enterParent ctx fullpath
          let written ← writeSmallFile ctx fullpath filehead databuf
          if written ≠ .restored then return written
          else
            let attrs ← extractarRestoreAttrEverything ctx objtype fullpath filehead
            if !attrs then return .failed
            else
              let left ← leaveParent ctx fullpath tv
              if left then return .restored else return .failed

/-- The second loop of `extractar_restore_obj_regfile_multi`: whether it reaches the end. -/
def restoreSmallFiles (ctx : Context) (objtype : UInt32) (regmulti : Regmulti) :
    List Nat → Stats → Sys (Bool × Stats)
  | [], stats => return (true, stats)
  | index :: rest, stats => do
    let file ← restoreSmallFile ctx objtype regmulti index
    match file with
    | .restored => restoreSmallFiles ctx objtype regmulti rest (stats.count .regfilemulti)
    | .failed => restoreSmallFiles ctx objtype regmulti rest (stats.fail .regfilemulti)
    | .excluded => restoreSmallFiles ctx objtype regmulti rest stats
    | .fatal => return (false, stats)

/-- `extractar_restore_obj_regfile_multi`: whether it returns 0. -/
def extractarRestoreObjRegfileMulti (ctx : Context) (exar : Extractar) (dicofirstfile : Dico)
    (objtype : UInt32) : Bool × Extractar :=
  let regmulti := regmultiInit maxBlkSize
  match dicoGetU32 ctx.mem dicofirstfile Section.stdattr ItemKey.multifilescount,
    regmultiRestAddheader regmulti dicofirstfile with
  | some filescount, some regmulti =>
    match restoreHeaders (filescount.toNat - 1) regmulti exar.queue with
    | (false, _, queue) => (false, { exar with queue })
    | (true, regmulti, queue) =>
      match dequeueBlock queue with
      | .error _ => (false, { exar with queue })
      | .ok (blkinfo, queue) =>
        let datablock := heapBytes ctx.mem blkinfo.blkdata 0 blkinfo.blkrealsize.toNat
        match regmultiRestSetdatablock regmulti datablock with
        | none => (false, { exar with queue })
        | some regmulti =>
          let ((ok, stats), log) :=
            (restoreSmallFiles ctx objtype regmulti (List.range filescount.toNat) exar.stats).run exar.log
          (ok, { exar with queue, stats, log })
  | _, _ => (false, exar)

/-! ## Large and empty files -/

/-- How far the loop of `extractar_restore_obj_regfile_unique` gets. -/
inductive Contents where
  /-- All of the file was written. -/
  | whole
  /-- The file could not be opened. -/
  | unopened
  /-- A block is missing: the file will be deleted. -/
  | incomplete
  /-- A block could not be written: this ends the restoration. -/
  | unwritten
  deriving DecidableEq

/-- The loop of `extractar_restore_obj_regfile_unique` from this position in the file on, with
`queue_dequeue_block` on what is left on the queue. -/
def restoreBlocks (ctx : Context) (filesize : UInt64) :
    List QueueData → UInt64 → Datafile → Sys (Contents × List QueueData × Datafile)
  | .block blkinfo :: queue, filepos, datafile => do
    if ¬filepos < filesize then return (.whole, .block blkinfo :: queue, datafile)
    else if blkinfo.blkoffset ≠ filepos then return (.incomplete, queue, datafile)
    else
      let data := heapBytes ctx.mem blkinfo.blkdata 0 blkinfo.blkrealsize.toNat
      let (written, datafile) ← datafileWrite ctx.os datafile data
      if !written then return (.unwritten, queue, datafile)
      else restoreBlocks ctx filesize queue (filepos + blkinfo.blkrealsize.toUInt64) datafile
  | queue, filepos, datafile => do
    if ¬filepos < filesize then return (.whole, queue, datafile)
    else return (.incomplete, queue, datafile)

/-- What the footer of a file says. -/
inductive Footer where
  /-- The contents are right, or nobody asks. -/
  | fine
  /-- There is no footer, or nothing in it. -/
  | missing
  /-- The contents are wrong. -/
  | corrupt
  deriving DecidableEq

/-- The footer that ends a file that is not empty, and what is left on the queue. -/
def restoreFooter (ctx : Context) (excluded : Bool) (md5sumcalc : List UInt8)
    (queue : List QueueData) : Footer × List QueueData :=
  match dequeueHeader queue with
  | .error _ => (.missing, queue)
  | .ok (footer, queue) =>
    if excluded then (.fine, queue)
    else if footer.magic ≠ .filf then (.missing, queue)
    else
      match dicoGetData footer.dico Section.stdattr footerMd5sum 16 with
      | none => (.missing, queue)
      | some md5sumorig =>
        if md5sumcalc ≠ localBuffer ctx.mem 16 md5sumorig then (.corrupt, queue)
        else (.fine, queue)

/-- What `extractar_restore_obj_regfile_unique` leaves behind. -/
structure UniqueFile where
  /-- `fatalerr`. -/
  fatalerr : Bool
  /-- `minorerr`. -/
  minorerr : Bool
  /-- `excluded`. -/
  excluded : Bool
  /-- The queue. -/
  queue : List QueueData

/-- The attributes of a file whose contents are there: whether nothing failed. -/
def finishRegfile (ctx : Context) (fullpath : Path) (d : Dico) (objtype : UInt32)
    (tv : UInt64 × UInt64) : Sys Bool := do
  let attrs ← extractarRestoreAttrEverything ctx objtype fullpath d
  let left ← leaveParent ctx fullpath tv
  return attrs && left

/-- The header says that the file is sparse. -/
def isSparse (mem : Mem) (d : Dico) : Bool :=
  match dicoGetU64 mem d Section.stdattr ItemKey.flags with
  | some flags => decide (flags &&& fileFlagsSparse ≠ 0)
  | none => false

/-- What is known of a file once its blocks are written. -/
structure Written where
  /-- How far the loop came. -/
  contents : Contents
  /-- The queue. -/
  queue : List QueueData
  /-- What closing the file gave. -/
  closed : Closed

/-- The middle of `extractar_restore_obj_regfile_unique`: the file is written. -/
def writeRegfile (ctx : Context) (queue : List QueueData) (fullpath : Path)
    (excluded sparse : Bool) (filesize : UInt64) : Sys Written := do
  let opened ← datafileOpenWrite ctx.os datafileAlloc fullpath excluded sparse
  let loop ←
    (if opened.1 then restoreBlocks ctx filesize queue 0 opened.2
      else pure (.unopened, queue, opened.2))
  let closed ←
    (if loop.1 = .whole then datafileClose ctx.os ctx.md5 loop.2.2
      else pure ⟨false, none, loop.2.2⟩)
  return ⟨loop.1, loop.2.1, closed⟩

/-- `extractar_restore_obj_regfile_unique`, with the size of the file. -/
def restoreRegfileUnique (ctx : Context) (queue : List QueueData) (fullpath : Path) (d : Dico)
    (objtype : UInt32) (excluded : Bool) (filesize : UInt64) : Sys UniqueFile := do
  let tv ← (if excluded then pure (0, 0) else enterParent ctx fullpath)
  let file ← writeRegfile ctx queue fullpath excluded (isSparse ctx.mem d) filesize
  let finished ←
    (if file.closed.ok && !excluded then finishRegfile ctx fullpath d objtype tv
      else pure file.closed.ok)
  let md5sumcalc := file.closed.md5.getD (localBuffer ctx.mem 16 [])
  let footer :=
    if file.contents = .unwritten ∨ filesize = 0 then (Footer.fine, file.queue)
    else restoreFooter ctx excluded md5sumcalc file.queue
  if file.contents = .incomplete ∨ file.contents = .unwritten ∨ footer.1 = .corrupt then
    let _ ← ctx.os.call (.unlink fullpath)
    datafileDestroy ctx.os ctx.md5 file.closed.f
    return ⟨decide (file.contents = .unwritten), true, excluded, footer.2⟩
  else
    datafileDestroy ctx.os ctx.md5 file.closed.f
    return ⟨false, !(finished && decide (footer.1 = .fine)), excluded, footer.2⟩

/-- `extractar_restore_obj_regfile_unique`: whether it returns 0. -/
def extractarRestoreObjRegfileUnique (ctx : Context) (exar : Extractar) (fullpath relpath : Path)
    (d : Dico) (objtype : UInt32) : Bool × Extractar :=
  let excluded := isFiledirExcluded ctx.exclude relpath
  match dicoGetU64 ctx.mem d Section.stdattr ItemKey.size with
  | none =>
    let stats := if excluded then exar.stats else exar.stats.fail .regfileunique
    (true, { exar with stats })
  | some filesize =>
    let (file, log) :=
      (restoreRegfileUnique ctx exar.queue fullpath d objtype excluded filesize).run exar.log
    let stats :=
      if file.excluded then exar.stats
      else if file.minorerr then exar.stats.fail .regfileunique
      else exar.stats.count .regfileunique
    (!file.fatalerr, { exar with queue := file.queue, log, stats })

/-! ## All objects of a filesystem -/

/-- An object made of its header only. -/
def restoreHeaderOnly (exar : Extractar) (type : ObjType) (entry : Sys Bool) : Bool × Extractar :=
  let (ok, log) := entry.run exar.log
  (true, { exar with log, stats := if ok then exar.stats.count type else exar.stats.fail type })

/-- `extractar_restore_object`: whether it returns 0. -/
def extractarRestoreObject (ctx : Context) (exar : Extractar) (dicoattr : Dico) :
    Bool × Extractar :=
  match readPath ctx.mem dicoattr ItemKey.path,
    dicoGetU32 ctx.mem dicoattr Section.stdattr ItemKey.objtype,
    dicoGetU64 ctx.mem dicoattr Section.stdattr ItemKey.size with
  | some relpath, some objtype, some _ =>
    let fullpath := concatenatePaths ctx.destdir relpath
    match ObjType.ofCode objtype with
    | some .dir => restoreHeaderOnly exar .dir
        (extractarRestoreObjDirectory ctx fullpath relpath dicoattr objtype)
    | some .symlink => restoreHeaderOnly exar .symlink
        (extractarRestoreObjSymlink ctx fullpath relpath dicoattr objtype)
    | some .hardlink => restoreHeaderOnly exar .hardlink
        (extractarRestoreObjHardlink ctx fullpath relpath dicoattr objtype)
    | some .chardev => restoreHeaderOnly exar .chardev
        (extractarRestoreObjDevfile ctx fullpath relpath dicoattr objtype)
    | some .blockdev => restoreHeaderOnly exar .blockdev
        (extractarRestoreObjDevfile ctx fullpath relpath dicoattr objtype)
    | some .fifo => restoreHeaderOnly exar .fifo
        (extractarRestoreObjDevfile ctx fullpath relpath dicoattr objtype)
    | some .socket => restoreHeaderOnly exar .socket
        (extractarRestoreObjDevfile ctx fullpath relpath dicoattr objtype)
    | some .regfileunique =>
      extractarRestoreObjRegfileUnique ctx exar fullpath relpath dicoattr objtype
    | some .regfilemulti => extractarRestoreObjRegfileMulti ctx exar dicoattr objtype
    | some .null | none => (false, exar)
  | _, _, _ => (false, exar)

/-- One round of the loop of `extractar_extract_read_objects`: what it returns, if it does. -/
def extractStep (ctx : Context) (exar : Extractar) : Option Int × Extractar :=
  match exar.queue with
  | [] => (some (-1), exar)
  | .header ⟨.datf, _, _⟩ :: _ => (some 0, exar)
  | .header ⟨.objt, checkfsid, dicoattr⟩ :: queue =>
    let exar := { exar with queue }
    if checkfsid = ctx.fsid then
      match extractarRestoreObject ctx exar dicoattr with
      | (false, exar) => (some (-1), exar)
      | (true, exar) => (none, exar)
    else (none, { exar with errors := exar.errors + 1 })
  | item :: queue =>
    -- garbage
    (none, { exar with queue, skipped := exar.skipped ++ [item] })

/-- The loop of `extractar_extract_read_objects`, for at most so many rounds. -/
def extractLoop (ctx : Context) : Nat → Extractar → Option Int × Extractar
  | 0, exar => (none, exar)
  | fuel + 1, exar =>
    match extractStep ctx exar with
    | (some ret, exar) => (some ret, exar)
    | (none, exar) => extractLoop ctx fuel exar

/-- `extractar_extract_read_objects`. Every round takes an item from the queue. -/
def extractarExtractReadObjects (ctx : Context) (exar : Extractar) : Option Int × Extractar :=
  extractLoop ctx (exar.queue.length + 1) { exar with errors := 0 }

end FsArchiver
