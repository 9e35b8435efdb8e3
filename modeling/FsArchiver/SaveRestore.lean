import FsArchiver.RestoreChecked
import FsArchiver.SavedOrder

/-!
# Saved files restored

Regular files that are saved without a failure come back with their contents, whatever their sizes
and however they are packed, and an excluded one in between changes nothing for the others.
-/
namespace FsArchiver

open Lib

/-- What `createar_save_file` puts on an empty queue for some visits, together with the
`regmulti_save_enqueue` at the end of a walk. -/
def visitsQueue (mem : Mem) (md5 : Md5) (opts : SaveOptions) (visits : List Visit) (save : Savear) :
    List QueueData :=
  let walked := (saveVisits mem md5 opts false visits (walkStart opts { save with pushed := [] })).2
  (walked.push (regmultiSaveEnqueue mem walked.regmulti walked.fsid).1).pushed

/-- A walk of a tree puts the items of its visits on the queue. -/
theorem createarSaveDirectoryWrapper_queue (mem : Mem) (md5 : Md5) (opts : SaveOptions)
    (save : Savear) (path : Path) (dir : DirCalls) (entries : DirStream) :
    (createarSaveDirectoryWrapper mem md5 opts false { save with pushed := [] } path dir
      entries).2.pushed = visitsQueue mem md5 opts (treeVisits opts path dir entries) save := by
  rw [createarSaveDirectoryWrapper_eq]
  rfl

/-! ## Regular files -/

/-- A regular file with its contents. -/
structure RegularFile extends SavedObject where
  contents : List UInt8

namespace RegularFile

/-- The visit of the file. -/
def visit (file : RegularFile) : Visit := .object file.relpath file.st file.calls

/-- No call fails when the file is saved. -/
structure Saveable (file : RegularFile) (fstype : Filesys) : Prop where
  isReg : file.st.fileType = .reg
  size : file.contents.length = file.st.size.toNat
  reads : file.calls.Reads file.contents
  attrs : attrsOk fstype file.relpath file.st file.calls = true
  /-- It is not the archive. -/
  other : file.calls.isCurvol = false
  fromKernel : file.calls.FromKernel

end RegularFile

/-- The paths of files are visited. -/
theorem visitedPaths_files (files : List RegularFile) :
    visitedPaths (files.map RegularFile.visit) = files.map fun file => file.relpath := by
  unfold visitedPaths
  rw [List.filterMap_map]
  exact congrFun (@List.filterMap_eq_map _ _ fun file : RegularFile => file.relpath) files

/-- All files are saved. -/
theorem savedObjects_files {files : List RegularFile} (isReg : ∀ file ∈ files, file.st.fileType = .reg) :
    savedObjects false (files.map RegularFile.visit) = files.map RegularFile.toSavedObject := by
  induction files with
  | nil => rfl
  | cons file files ih =>
    have own := isReg file List.mem_cons_self
    have onward := ih fun file member => isReg file (List.mem_cons_of_mem _ member)
    rw [List.map_cons, List.map_cons, RegularFile.visit, savedObjects, own, onward]
    simp

section Object

variable {md5 : Md5} {opts : SaveOptions} {call : SaveCall} {contents : List UInt8}

/-- A file that is read becomes an object with its contents. -/
theorem SaveCall.object_reads (sizes : opts.FromCmdline) (isReg : call.st.fileType = .reg)
    (size : contents.length = call.st.size.toNat) (reads : call.calls.Reads contents)
    (attrs : attrsOk call.save.fstype call.relpath call.st call.calls = true)
    (other : call.calls.isCurvol = false) (alone : linkTarget call.save call.st = none) :
    ∃ obj, call.object md5 opts = some obj ∧ obj.contents = contents ∧
      obj.objtype.isRegfile = true := by
  have type : objectType opts call.save call.st = regfileType opts call.st := by
    unfold objectType
    rw [isReg, alone]
    rfl
  obtain ⟨file, opened, reads⟩ := reads
  have known : ¬(call.calls.isCurvol ∨ objectType opts call.save call.st = .null ∨
      attrsOk call.save.fstype call.relpath call.st call.calls = false) := by
    rw [objectType_eq_null, isReg, attrs, other]
    decide
  have made : call.produced md5 opts = producedContents md5 opts call.save.fsid
      (regfileType opts call.st) (objectDico opts call.save call.relpath call.st call.calls)
      call.st call.calls := by
    rw [← type]
    exact if_neg known
  unfold SaveCall.object SaveCall.piece
  rw [made, type]
  unfold regfileType
  split
  next small =>
    have read : readFile file 0 call.st.size.toNat = some contents := by
      rw [reads, List.drop_zero, ← size, List.take_length]
    have whole : padded contents call.st.size.toNat = contents := by
      rw [padded, ← size, Nat.sub_self, List.replicate_zero, List.append_nil]
    simp only [producedContents, opened, read, whole, Produced.piece]
    exact ⟨_, rfl, rfl, rfl⟩
  next large =>
    obtain ⟨unfailed, -, data⟩ := regfileBlocks_reads call.save.fsid reads sizes.blocksize.1
      contents.length 0 (by omega)
    rw [size, List.drop_zero] at *
    have unfailed' : (readBlocks opts call.save.fsid call.st file).failed = false := unfailed
    simp only [producedContents, opened, unfailed', Bool.false_eq_true, ↓reduceIte, Produced.piece]
    exact ⟨_, rfl, data, rfl⟩

end Object

section Files

variable {mem : Mem} {md5 : Md5} {opts : SaveOptions} {save : Savear} {files : List RegularFile}

/-- Different files are no links to each other. -/
theorem linkTarget_files (isReg : ∀ file ∈ files, file.st.fileType = .reg)
    (fit : PathsFit (files.map fun file => file.relpath))
    (different : (((files.map RegularFile.toSavedObject).filter SavedObject.several).map
      SavedObject.key).Nodup)
    {call : SaveCall} (notCurvol : call.calls.isCurvol = false)
    (member : call ∈ savedCalls mem md5 opts false (files.map RegularFile.visit)
      (walkStart opts save)) : linkTarget call.save call.st = none := by
  obtain ⟨before, after, split⟩ := List.append_of_mem member
  rw [← visitedPaths_files] at fit
  rw [linkTarget_savedCalls rfl fit split]
  have objects := savedObjects_split split
  rw [savedObjects_files isReg] at objects
  have own : call.st.fileType = .reg := by
    have among : call.toSavedObject ∈ files.map RegularFile.toSavedObject := by
      rw [objects]
      exact List.mem_append_right _ List.mem_cons_self
    obtain ⟨file, inFiles, same⟩ := List.mem_map.mp among
    rw [← same]
    exact isReg file inFiles
  by_cases links : call.st.nlink > 1
  · rw [if_pos links, Option.map_eq_none_iff, firstWith_none]
    intro first seen same
    have several : call.several = true := SavedObject.several_iff.mpr ⟨notCurvol, own, links⟩
    rw [objects, List.filter_append, List.filter_cons_of_pos several, List.map_append,
      List.map_cons] at different
    exact (List.nodup_append.mp different).2.2 _ (List.mem_map_of_mem seen) _ List.mem_cons_self same
  · exact if_neg links

/-- Every file of a walk becomes an object with its contents, and there are no other objects. -/
theorem objects_files (sizes : opts.FromCmdline)
    (saveable : ∀ file ∈ files, file.Saveable save.fstype)
    (fit : PathsFit (files.map fun file => file.relpath))
    (different : (((files.map RegularFile.toSavedObject).filter SavedObject.several).map
      SavedObject.key).Nodup) :
    (∀ file ∈ files, ∃ obj ∈ walkObjs mem md5 opts (files.map RegularFile.visit) save,
      obj.relpath = file.relpath ∧ obj.contents = file.contents) ∧
    ∀ obj ∈ walkObjs mem md5 opts (files.map RegularFile.visit) save,
      obj.objtype.isRegfile = true ∧ obj.contents.length = obj.st.size.toNat := by
  have isReg : ∀ file ∈ files, file.st.fileType = .reg := fun file member =>
    (saveable file member).isReg
  have objects := @savedCalls_objects mem md5 opts false (files.map RegularFile.visit)
    (walkStart opts save)
  rw [savedObjects_files isReg] at objects
  have each {call : SaveCall} {file : RegularFile} (member : call ∈ savedCalls mem md5 opts false
      (files.map RegularFile.visit) (walkStart opts save)) (inFiles : file ∈ files)
      (same : call.toSavedObject = file.toSavedObject) :
      ∃ obj, call.object md5 opts = some obj ∧ obj.contents = file.contents ∧
        obj.objtype.isRegfile = true := by
    have own := saveable file inFiles
    have isOther : call.calls.isCurvol = false := by rw [same]; exact own.other
    have fstype := fstype_savedCalls sizes (pends_walkStart opts save) member
    refine SaveCall.object_reads sizes (by rw [same]; exact own.isReg) (by rw [same]; exact own.size)
      (by rw [same]; exact own.reads) ?_ isOther
      (linkTarget_files isReg fit different isOther member)
    rw [fstype, same]
    exact own.attrs
  constructor
  · intro file inFiles
    obtain ⟨call, member, same⟩ := List.mem_map.mp
      (objects ▸ List.mem_map_of_mem (f := RegularFile.toSavedObject) inFiles)
    obtain ⟨obj, object, contents, -⟩ := each member inFiles same
    refine ⟨obj, List.mem_filterMap.mpr ⟨call, member, object⟩, ?_, contents⟩
    rw [(SaveCall.fields_of_object object).1, same]
  · intro obj among
    obtain ⟨call, member, object⟩ := List.mem_filterMap.mp among
    have listed : call.toSavedObject ∈ files.map RegularFile.toSavedObject := by
      rw [← objects]
      exact List.mem_map_of_mem member
    obtain ⟨file, inFiles, same⟩ := List.mem_map.mp listed
    obtain ⟨obj', object', contents, isRegfile⟩ := each member inFiles same.symm
    rw [object, Option.some.injEq] at object'
    subst object'
    refine ⟨isRegfile, ?_⟩
    rw [contents, (SaveCall.fields_of_object object).2.1, (saveable file inFiles).size, same]

end Files

/-! ## The round trip -/

/-- Regular files with paths of their own that are saved without a failure, then followed by the
end header, come back when they are restored without a failure: nothing is skipped, no regular
file counts as an error, an excluded file is not touched, and any other is created once and
written from the start to the end with its contents. -/
theorem restored_as_saved (mem : Mem) (opts : SaveOptions) (sizes : opts.FromCmdline)
    (save : Savear) (files : List RegularFile)
    (saveable : ∀ file ∈ files, file.Saveable save.fstype)
    (fit : PathsFit (files.map fun file => file.relpath))
    (apart : PathsApart (files.map fun file => file.relpath))
    (different : (((files.map RegularFile.toSavedObject).filter SavedObject.several).map
      SavedObject.key).Nodup)
    (ctx : Context) (calm : ctx.os.Calm) (fsid : ctx.fsid = save.fsid) (endFsid : UInt16)
    (endDico : Dico) (exar : Extractar)
    (queue : exar.queue = visitsQueue mem ctx.md5 opts (files.map RegularFile.visit) save ++
      [.header ⟨.datf, endFsid, endDico⟩]) :
    let ran := extractarExtractReadObjects ctx exar
    ran.1 = some 0 ∧ ran.2.skipped = exar.skipped ∧ ran.2.errors = 0 ∧
      ran.2.stats.errRegfile = exar.stats.errRegfile ∧
      ∃ made, ran.2.log = exar.log ++ made ∧ ∀ file ∈ files,
        let fullpath := concatenatePaths ctx.destdir file.relpath
        if isFiledirExcluded ctx.exclude file.relpath then Untouched made fullpath
        else WrittenOnce made fullpath file.contents ∧
          (made.filter fun entry => entry.1 = .create fullpath).length = 1 ∧
          contentAt ran.2.log fullpath = some file.contents := by
  let empty : Savear := { save with pushed := [] }
  have isReg : ∀ file ∈ files, file.st.fileType = .reg := fun file member =>
    (saveable file member).isReg
  have visited := visitedPaths_files files
  have fit' : PathsFit (visitedPaths (files.map RegularFile.visit)) := by rw [visited]; exact fit
  have apart' : PathsApart (visitedPaths (files.map RegularFile.visit)) := by
    rw [visited]
    exact apart
  have fromKernel : ∀ object ∈ savedObjects false (files.map RegularFile.visit),
      object.calls.FromKernel := by
    rw [savedObjects_files isReg]
    intro object member
    obtain ⟨file, inFiles, rfl⟩ := List.mem_map.mp member
    exact (saveable file inFiles).fromKernel
  obtain ⟨pushed, wellMade, order⟩ := @parts_visits ctx.md5 _ mem _ sizes empty fit' fromKernel
  generalize walkParts mem ctx.md5 opts (files.map RegularFile.visit) empty = parts at *
  obtain ⟨each, regular⟩ := @objects_files mem ctx.md5 _ empty _ sizes saveable fit different
  have orderly : Orderly ctx (partObjs parts) :=
    orderly_parts fit' apart' (sound_savedCalls rfl fit' fromKernel) order
  have whole : ∀ part ∈ parts, part.isWhole = true := by
    intro part member
    cases part with
    | single obj | file obj blocks | pack objs => rfl
    | cut obj blocks =>
      have among : obj ∈ partObjs parts := List.mem_flatMap.mpr ⟨_, member, List.mem_singleton_self obj⟩
      have length := (regular obj (order.perm.mem_iff.mp among)).2
      have short := (wellMade _ member).2.2.1
      omega
  have items : ({ exar with errors := 0 } : Extractar).queue = packetItems ctx.md5 ctx.fsid
      (parts.map Part.packet) ++ [.header ⟨.datf, endFsid, endDico⟩] := by
    rw [List.nil_append] at pushed
    rw [fsid]
    exact queue.trans (congrArg (· ++ _) pushed)
  obtain ⟨exar', made, reaches, rest, counts, -, -, settled⟩ := reaches_parts calm
    (fun part member => fsid ▸ wellMade part member) whole orderly items
  have errors : exar'.stats.errRegfile = exar.stats.errRegfile := by
    have summed := counts.sum_eq Stats.errRegfile (fun _ => 0)
      fun _ _ _ counts => counts.errRegfile
    simpa using summed
  have ends := reaches.ends rest
  intro ran
  have final : ran = (some 0, exar') := ends
  rw [final]
  refine ⟨rfl, ?_, reaches.errors, errors, made, reaches.log, fun file inFiles => ?_⟩
  · rw [reaches.skipped, List.append_nil]
  · obtain ⟨obj, among, path, contents⟩ := each file inFiles
    have own := settled obj (order.perm.mem_iff.mpr among)
    have isRegfile := (regular obj among).1
    have fullpath : obj.fullpath ctx = concatenatePaths ctx.destdir file.relpath := by
      unfold SavedObj.fullpath
      rw [path]
    cases excluded : isFiledirExcluded ctx.exclude file.relpath with
    | true =>
      rw [if_pos rfl, ← fullpath]
      exact own.excluded (by unfold SavedObj.excluded; rw [path]; exact excluded)
    | false =>
      rw [if_neg (by decide), ← fullpath, ← contents]
      have restored := own.kept (by unfold SavedObj.excluded; rw [path]; exact excluded)
        fun target links => by rw [links.1] at isRegfile; cases isRegfile
      have written := restored.file isRegfile
      exact ⟨written, written.create, by rw [reaches.log]; exact written.contentAt _⟩

/-! ## A small file and an empty one -/

/-- No call fails on this system. -/
theorem plainContext_calm : plainContext.os.Calm :=
  ⟨fun _ _ _ _ => rfl, fun _ _ _ => rfl⟩

/-- A regular file with one link. -/
def plainFile (name : UInt8) (contents : List UInt8) : RegularFile where
  relpath := [slash, name]
  st :=
    { dev := 1, mode := 0o100644, nlink := 1, uid := 0, gid := 0, rdev := 0, ino := 12,
      size := UInt64.ofNat contents.length, blocks := 8, atime := 0, mtime := 0 }
  calls :=
    { plainCalls with openFile := some fun pos count => some ((contents.drop pos).take count) }
  contents := contents

/-- It is saved without a failure. -/
theorem plainFile_saveable (name : UInt8) {contents : List UInt8} (fits : contents.length < 2 ^ 64) :
    (plainFile name contents).Saveable plainSavear.fstype where
  isReg := by
    have mode : (plainFile name contents).st.mode = 0o100644 := rfl
    unfold Stat.fileType
    rw [mode]
    decide
  size := (Nat.mod_eq_of_lt fits).symm
  reads := ⟨_, rfl, fun pos count => by simp [readFile, List.take_take, plainFile]⟩
  attrs := by
    have isReg : (plainFile name contents).st.fileType = .reg := by
      have mode : (plainFile name contents).st.mode = 0o100644 := rfl
      unfold Stat.fileType
      rw [mode]
      decide
    simp [attrsOk, stdattrOk, isReg, plainSavear]
  other := rfl
  fromKernel :=
    { readlink := nofun
      listed := Nat.zero_le _
      names := nofun
      xattrs := nofun
      winattrs := fun _ _ => nofun }

/-- What is left to restore once the two files are saved. -/
def twoFilesExar : Extractar where
  queue := visitsQueue plainMem plainContext.md5 plainOptions
    ([plainFile 0x61 [0x68], plainFile 0x62 []].map RegularFile.visit) plainSavear ++
    [.header ⟨.datf, 0, Dico.alloc⟩]
  log := []
  stats := {}
  errors := 0
  skipped := []

/-- Both files come back. -/
theorem restored_as_saved_two_files :
    let ran := extractarExtractReadObjects plainContext twoFilesExar
    ran.1 = some 0 ∧ contentAt ran.2.log [slash, 0x61] = some [0x68] ∧
      contentAt ran.2.log [slash, 0x62] = some [] := by
  have files (file : RegularFile) (member : file ∈ [plainFile 0x61 [0x68], plainFile 0x62 []]) :
      file.Saveable plainSavear.fstype := by
    simp only [List.mem_cons, List.not_mem_nil, or_false] at member
    rcases member with rfl | rfl
    · exact plainFile_saveable _ (by decide)
    · exact plainFile_saveable _ (by decide)
  have several : ([plainFile 0x61 [0x68], plainFile 0x62 []].map
      RegularFile.toSavedObject).filter SavedObject.several = [] := by
    simp [SavedObject.several, plainFile]
  obtain ⟨returns, -, -, -, made, -, each⟩ := restored_as_saved plainMem plainOptions
    plainOptions_fromCmdline plainSavear [plainFile 0x61 [0x68], plainFile 0x62 []] files
    (by unfold PathsFit; decide) (by unfold PathsApart; decide) (by rw [several]; decide)
    plainContext plainContext_calm rfl 0 Dico.alloc twoFilesExar rfl
  have first := each (plainFile 0x61 [0x68]) List.mem_cons_self
  have second := each (plainFile 0x62 []) (List.mem_cons_of_mem _ (List.mem_singleton_self _))
  have kept (name : UInt8) (contents : List UInt8) : isFiledirExcluded plainContext.exclude
      (plainFile name contents).relpath = false := by
    simp [isFiledirExcluded, plainContext]
  rw [kept] at first second
  exact ⟨returns, first.2.2, second.2.2⟩

end FsArchiver
