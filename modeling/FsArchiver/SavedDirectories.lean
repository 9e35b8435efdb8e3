import FsArchiver.SelectiveRestore
import FsArchiver.StoredItems

/-!
# Archives of directories

`savedir` puts the trees of all its directories behind each other, as if they were those of a
filesystem with number 0, and `restdir` restores them into one directory. The paths of the objects
are those of the command line, so that trees must not meet. A walk that ends early is not noticed:
what it has visited so far is saved.
-/
namespace FsArchiver

open Lib

/-! ## Trees behind each other -/

section Append

variable {md5 : Md5} {opts : SaveOptions} {fsid : UInt16} {objects objects' : List VisitedObject} {info : Dico}
  {parts parts' : List Part}

/-- Nothing is completely in an empty archive. -/
theorem SavedFs.Complete.nil (md5 : Md5) (opts : SaveOptions) (fsid : UInt16) (info : Dico) :
    SavedFs.Complete md5 opts fsid [] ⟨info, []⟩ where
  wellMade := List.forall_mem_nil _
  whole := List.forall_mem_nil _
  orderly _ := ⟨.nil, .nil, List.forall_mem_nil _⟩
  all := List.forall_mem_nil _
  only := List.forall_mem_nil _
  files := List.forall_mem_nil _
  blocks := List.forall_mem_nil _

/-- Objects that are apart are restored at different places. -/
theorem fullpath_ne {first second : SavedObj}
    (complete : SavedFs.Complete md5 opts fsid objects ⟨info, parts⟩)
    (complete' : SavedFs.Complete md5 opts fsid objects' ⟨info, parts'⟩)
    (apart : PathsApart ((objects ++ objects').map fun object => object.relpath))
    (inFirst : first ∈ partObjs parts) (inSecond : second ∈ partObjs parts') (ctx : Context) :
    first.fullpath ctx ≠ second.fullpath ctx := by
  obtain ⟨object, visited, becomes⟩ := complete.only first inFirst
  obtain ⟨object', visited', becomes'⟩ := complete'.only second inSecond
  unfold SavedObj.fullpath
  rw [Ne, concatenatePaths_eq_iff, becomes.relpath, becomes'.relpath]
  unfold PathsApart at apart
  rw [List.map_append, List.map_append] at apart
  apply (List.nodup_append.mp apart).2.2
  · exact List.mem_map_of_mem (List.mem_map_of_mem visited)
  · exact List.mem_map_of_mem (List.mem_map_of_mem visited')

/-- Trees that do not meet can be put behind each other. -/
theorem SavedFs.Complete.append (complete : SavedFs.Complete md5 opts fsid objects ⟨info, parts⟩)
    (complete' : SavedFs.Complete md5 opts fsid objects' ⟨info, parts'⟩)
    (apart : PathsApart ((objects ++ objects').map fun object => object.relpath)) :
    SavedFs.Complete md5 opts fsid (objects ++ objects') ⟨info, parts ++ parts'⟩ := by
  have both : partObjs (parts ++ parts') = partObjs parts ++ partObjs parts' := List.flatMap_append
  have differ {first second : SavedObj} (ctx : Context) (inFirst : first ∈ partObjs parts)
      (inSecond : second ∈ partObjs parts') : first.fullpath ctx ≠ second.fullpath ctx :=
    fullpath_ne complete complete' apart inFirst inSecond ctx
  constructor
  case wellMade => exact List.forall_mem_append.mpr ⟨complete.wellMade, complete'.wellMade⟩
  case whole => exact List.forall_mem_append.mpr ⟨complete.whole, complete'.whole⟩
  case blocks => exact List.forall_mem_append.mpr ⟨complete.blocks, complete'.blocks⟩
  case orderly =>
    intro ctx
    have orderly := complete.orderly ctx
    have orderly' := complete'.orderly ctx
    dsimp only at orderly orderly' ⊢
    rw [both]
    constructor
    case apart =>
      rw [List.map_append, List.nodup_append]
      refine ⟨orderly.apart, orderly'.apart, ?_⟩
      intro path inFirst path' inSecond
      obtain ⟨first, among, rfl⟩ := List.mem_map.mp inFirst
      obtain ⟨second, among', rfl⟩ := List.mem_map.mp inSecond
      exact differ ctx among among'
    case past =>
      refine List.pairwise_append.mpr ⟨orderly.past, orderly'.past, ?_⟩
      intro first among second among' target links
      -- the file of a link is in the same tree
      obtain ⟨file, inFirst, relpath, -⟩ := complete.files first among target links
      rw [← relpath]
      exact differ ctx inFirst among'
    case own => exact List.forall_mem_append.mpr ⟨orderly.own, orderly'.own⟩
  case all =>
    simp only [both, List.mem_append]
    rintro object (visited | visited)
    · obtain ⟨obj, among, becomes⟩ := complete.all object visited
      exact ⟨obj, .inl among, becomes⟩
    · obtain ⟨obj, among, becomes⟩ := complete'.all object visited
      exact ⟨obj, .inr among, becomes⟩
  case only =>
    simp only [both, List.mem_append]
    rintro obj (among | among)
    · obtain ⟨object, visited, becomes⟩ := complete.only obj among
      exact ⟨object, .inl visited, becomes⟩
    · obtain ⟨object, visited, becomes⟩ := complete'.only obj among
      exact ⟨object, .inr visited, becomes⟩
  case files =>
    simp only [both, List.mem_append]
    rintro obj (among | among) target links
    · obtain ⟨file, inFirst, known⟩ := complete.files obj among target links
      exact ⟨file, .inl inFirst, known⟩
    · obtain ⟨file, inSecond, known⟩ := complete'.files obj among target links
      exact ⟨file, .inr inSecond, known⟩

end Append

/-! ## Directories as they are saved -/

/-- The visits when a directory is copied. -/
def DirArg.visits (opts : SaveOptions) (arg : DirArg) : List Visit :=
  arg.copied.visits opts (savedirPath arg.rootdir)

/-- The objects that are visited when a directory is copied, up to where the walk ends, but for one of
an unknown type. -/
def DirArg.objects (opts : SaveOptions) (arg : DirArg) : List VisitedObject :=
  (visitedObjects ext2 (arg.visits opts)).filter VisitedObject.known

/-- What is known of an argument of `savedir`: its tree comes from the kernel, and its paths fit their
buffers. -/
structure DirArg.Sound (opts : SaveOptions) (arg : DirArg) : Prop where
  wellNamed : arg.copied.entries.WellNamed
  fit : PathsFit (visitedPaths (arg.visits opts))
  fromKernel : ∀ object ∈ savedObjects false (arg.visits opts), object.calls.FromKernel

/-- No object is visited in two of the directories. -/
def DirsApart (opts : SaveOptions) (args : List DirArg) : Prop :=
  PathsApart ((args.flatMap (DirArg.objects opts)).map fun object => object.relpath)

/-- The items of an archive of directories behind the main header. -/
def directoriesItems (md5 : Md5) (saved : SavedFs) : List QueueData :=
  .header ⟨.dirs, filesysidNull, saved.info⟩ ::
    (packetItems md5 0 (saved.parts.map Part.packet) ++
      [.header ⟨.datf, filesysidNull, Dico.alloc⟩])

section Saved

variable {mem : Mem} {md5 : Md5} {opts : SaveOptions}

/-- The evaluation of the directories puts nothing on the queue. -/
theorem analyseDirectories_pushed (args : List DirArg) (costGlobal : UInt64) (save : Savear) :
    (analyseDirectories mem md5 opts args costGlobal save).2.2.pushed = save.pushed := by
  induction args generalizing costGlobal save with
  | nil => rfl
  | cons arg rest ih =>
    have silent := @wrapTree_eval_pushed mem md5 opts { save with cost := 0 } [slash] arg.analysed
    simp only [analyseDirectories]
    cases ran : wrapTree mem md5 opts true { save with cost := 0 } [slash] arg.analysed with
    | mk ok save' =>
      rw [ran] at silent
      cases ok with
      | false => exact silent
      | true => exact (ih _ save').trans silent

/-- The loop over the directories puts their trees on the queue. -/
theorem copyDirectories_contents (sizes : opts.FromCmdline) (info : Dico) {args : List DirArg}
    (sound : ∀ arg ∈ args, arg.Sound opts) (apart : DirsApart opts args)
    (noErrors : ∀ arg ∈ args, NoErrors opts ext2 (savedObjects false (arg.visits opts)))
    {save : Savear} (fsid : save.fsid = 0) (fstype : save.fstype = ext2) :
    ∃ parts, SavedFs.Complete md5 opts 0 (args.flatMap (DirArg.objects opts)) ⟨info, parts⟩ ∧
      (copyDirectories mem md5 opts args save).2.pushed =
        save.pushed ++ packetItems md5 0 (parts.map Part.packet) := by
  induction args generalizing save with
  | nil => exact ⟨[], .nil md5 opts 0 info, (List.append_nil _).symm⟩
  | cons arg rest ih =>
    obtain ⟨soundHere, soundRest⟩ := List.forall_mem_cons.mp sound
    obtain ⟨calm, calmRest⟩ := List.forall_mem_cons.mp noErrors
    have later : DirsApart opts rest := by
      apply apart.sublist
      rw [List.flatMap_cons, List.map_append]
      exact List.sublist_append_right _ _
    obtain ⟨pushed, number⟩ := @wrapTree_parts mem md5 opts sizes save (savedirPath arg.rootdir)
      arg.copied soundHere.fit soundHere.fromKernel
    have type := @wrapTree_fstype mem md5 opts sizes save (savedirPath arg.rootdir) arg.copied
    obtain ⟨parts, complete, contents⟩ :=
      ih soundRest later calmRest (number.trans fsid) (type.trans fstype)
    have first := @walk_complete mem md5 opts (arg.visits opts) save sizes soundHere.fit
      (treeVisits_apart soundHere.wellNamed) soundHere.fromKernel (by rw [fstype]; exact calm) info
    rw [fsid, fstype] at first
    rw [fsid] at pushed
    refine ⟨walkParts mem md5 opts (arg.visits opts) save ++ parts, ?_, ?_⟩
    · rw [List.flatMap_cons]
      exact first.append complete apart
    · change (copyDirectories mem md5 opts rest
        (wrapTree mem md5 opts false save (savedirPath arg.rootdir) arg.copied).2).2.pushed = _
      rw [contents, pushed, List.map_append, packetItems_append, List.append_assoc]
      rfl

/-- When `oper_save` returns 0 for directories, what was visited in them is on the queue. -/
theorem operSave_directories (sizes : opts.FromCmdline) (setup : SaveSetup) {args : List DirArg}
    (sound : ∀ arg ∈ args, arg.Sound opts) (apart : DirsApart opts args)
    (ok : (operSave mem md5 opts setup (.directories args)).1 = true) :
    ∃ costGlobal parts,
      SavedFs.Complete md5 opts 0 (args.flatMap (DirArg.objects opts)) ⟨dirsinfo costGlobal, parts⟩ ∧
      (operSave mem md5 opts setup (.directories args)).2.pushed =
        .header ⟨.main, filesysidNull, setup.mainhead⟩ ::
          directoriesItems md5 ⟨dirsinfo costGlobal, parts⟩ := by
  simp only [operSave] at ok ⊢
  split at ok
  · cases ok
  next begun =>
    rw [if_neg begun]
    have passes := (saveDirectories_ok sizes setup fun arg member => (sound arg member).fit).mp ok
    have silent := @analyseDirectories_pushed mem md5 opts args 0 setup.start
    unfold saveDirectories at ok ⊢
    cases ran : analyseDirectories mem md5 opts args 0 setup.start with
    | mk ended found =>
      obtain ⟨costGlobal, save⟩ := found
      rw [ran] at ok silent
      cases ended with
      | false => cases ok
      | true =>
        obtain ⟨parts, complete, contents⟩ := @copyDirectories_contents mem md5 opts sizes
          (dirsinfo costGlobal) args sound apart (fun arg member => (passes arg member).noErrors)
          (directoriesStart costGlobal save) rfl rfl
        refine ⟨costGlobal, parts, complete, ?_⟩
        dsimp only at silent ⊢
        simp only [Savear.push, contents]
        simp [directoriesStart, silent, SaveSetup.start, Savear.push, Savear.zero, directoriesItems]

end Saved

end FsArchiver
