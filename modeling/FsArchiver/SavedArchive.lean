import FsArchiver.LostItems
import FsArchiver.RemadeObjects
import FsArchiver.SaveLosses

/-!
# The archive of filesystems that were saved

What `oper_save` has put on the queue when it returns 0 for filesystems. Behind the main header
stand the headers of all filesystems, in the order of the command line, and behind these their
contents in the same order. The contents of a filesystem lie between two headers of their own, and
all of them carry its number.
-/
namespace FsArchiver

open Lib

/-! ## Archives of filesystems -/

/-- A filesystem in an archive. -/
structure SavedFs where
  /-- The header in front of the contents of all filesystems. -/
  info : Dico
  /-- The parts of its contents. -/
  parts : List Part

/-- The header of a filesystem as an item. -/
def SavedFs.infoItem (saved : SavedFs) : QueueData := .header ⟨.fsin, filesysidNull, saved.info⟩

/-- The items of the contents of a filesystem. -/
def filesystemItems (md5 : Md5) (fsid : UInt16) (parts : List Part) : List QueueData :=
  .header ⟨.fsyb, fsid, Dico.alloc⟩ ::
    (packetItems md5 fsid (parts.map Part.packet) ++ [.header ⟨.datf, fsid, Dico.alloc⟩])

/-- The contents of the filesystems from number `i` on, without those that are not needed. -/
def contentsFrom (md5 : Md5) (needed : Nat → Bool) : Nat → List SavedFs → List QueueData
  | _, [] => []
  | i, saved :: rest =>
    (if needed i then filesystemItems md5 (UInt16.ofNat i) saved.parts else []) ++
      contentsFrom md5 needed (i + 1) rest

/-- The items behind the main header, without the contents that are not needed. -/
def archiveItems (md5 : Md5) (needed : Nat → Bool) (archive : List SavedFs) : List QueueData :=
  archive.map SavedFs.infoItem ++ contentsFrom md5 needed 0 archive

/-! ## Filesystems as they are saved -/

section Saved

variable (mem : Mem) (md5 : Md5) (opts : SaveOptions)

/-- The header of a filesystem is what is known of it, and its cost. -/
def MountedFs.HeaderIs (fs : MountedFs) (info : Dico) : Prop :=
  ∃ cost, dicoAddEach fs.dicofsinfo [dicoAddU64 0 fsysTotalcost cost] = some info

/-- The walk of filesystem number `i` starts in a state of its own. -/
structure MountedFs.WalkStarts (fs : MountedFs) (i : Nat) (save : Savear) : Prop where
  fsid : save.fsid = UInt16.ofNat i
  fstype : save.fstype = fs.fstype
  stats : save.stats = {}

/-- The parts are those of a walk of filesystem number `i`. -/
def MountedFs.PartsAre (fs : MountedFs) (i : Nat) (parts : List Part) : Prop :=
  ∃ save, fs.WalkStarts i save ∧
    parts = walkParts mem md5 opts (fs.copied.visits opts [slash]) save

/-- How filesystem number `i` is saved. -/
structure MountedFs.SavedAs (fs : MountedFs) (i : Nat) (saved : SavedFs) : Prop where
  info : fs.HeaderIs saved.info
  parts : fs.PartsAre mem md5 opts i saved.parts

/-- How the filesystems from number `i` on are saved. -/
inductive SavedFrom : Nat → List MountedFs → List SavedFs → Prop
  | nil (i : Nat) : SavedFrom i [] []
  | cons {i : Nat} {fs : MountedFs} {rest : List MountedFs} {saved : SavedFs}
      {others : List SavedFs} (first : fs.SavedAs mem md5 opts i saved)
      (later : SavedFrom (i + 1) rest others) : SavedFrom i (fs :: rest) (saved :: others)

variable {mem md5 opts}

/-- Every filesystem is saved once. -/
theorem SavedFrom.length_eq {i : Nat} {filesystems : List MountedFs} {archive : List SavedFs}
    (savedFrom : SavedFrom mem md5 opts i filesystems archive) :
    archive.length = filesystems.length := by
  induction savedFrom with
  | nil i => rfl
  | cons first later ih => simp [ih]

/-- The filesystem that is saved at a place. -/
theorem SavedFrom.get {i : Nat} {filesystems : List MountedFs} {archive : List SavedFs}
    (savedFrom : SavedFrom mem md5 opts i filesystems archive) {j : Nat} {saved : SavedFs}
    (found : archive[j]? = some saved) :
    ∃ fs, filesystems[j]? = some fs ∧ fs.SavedAs mem md5 opts (i + j) saved := by
  induction savedFrom generalizing j with
  | nil i => cases found
  | @cons i fs rest own others first later ih =>
    cases j with
    | zero =>
      obtain rfl : own = saved := by simpa using found
      exact ⟨fs, rfl, first⟩
    | succ j =>
      obtain ⟨fs', found', savedAs⟩ := ih (by simpa using found)
      refine ⟨fs', by simpa using found', ?_⟩
      rwa [show i + (j + 1) = i + 1 + j by omega]

/-! ## Evaluations -/

/-- An evaluation puts nothing on the queue. -/
theorem saveVisits_eval_pushed (visits : List Visit) (save : Savear) :
    (saveVisits mem md5 opts true visits save).2.pushed = save.pushed := by
  induction visits generalizing save with
  | nil => rfl
  | cons visit rest ih =>
    cases visit with
    | stop => rfl
    | object relpath st calls =>
      have same : (createarSaveFile mem md5 opts save relpath st calls true).2.pushed =
          save.pushed := by
        unfold createarSaveFile
        rw [createarItemStdattr_eq]
        cases calls.isCurvol <;> rfl
      simp only [saveVisits]
      cases ran : createarSaveFile mem md5 opts save relpath st calls true with
      | mk returned save' =>
        rw [ran] at same
        cases returned with
        | false => exact same
        | true => exact (ih save').trans same

/-- The walk that evaluates the cost of a tree puts nothing on the queue. -/
theorem wrapTree_eval_pushed (save : Savear) (path : Path) (tree : TreeCalls) :
    (wrapTree mem md5 opts true save path tree).2.pushed = save.pushed := by
  have same := @saveVisits_eval_regmulti mem md5 opts (tree.visits opts path) (walkStart opts save)
  have pushed := @saveVisits_eval_pushed mem md5 opts (tree.visits opts path) (walkStart opts save)
  unfold TreeCalls.visits at same pushed
  unfold wrapTree
  rw [createarSaveDirectoryWrapper_eq]
  simp only [same, Savear.push, pushed]
  exact List.append_nil save.pushed

/-- The evaluation of the filesystems puts their headers on the queue. -/
theorem analyseFilesystems_pushed {filesystems : List MountedFs} {save : Savear}
    (ended : (analyseFilesystems mem md5 opts filesystems save).1 = true) :
    ∃ infos, List.Forall₂ MountedFs.HeaderIs filesystems infos ∧
      (analyseFilesystems mem md5 opts filesystems save).2.pushed =
        save.pushed ++ infos.map fun info => .header ⟨.fsin, filesysidNull, info⟩ := by
  induction filesystems generalizing save with
  | nil => exact ⟨[], .nil, (List.append_nil _).symm⟩
  | cons fs rest ih =>
    have silent := @wrapTree_eval_pushed mem md5 opts { save with cost := 0 } [slash] fs.analysed
    simp only [analyseFilesystems] at ended ⊢
    cases ran : wrapTree mem md5 opts true { save with cost := 0 } [slash] fs.analysed with
    | mk ok save' =>
      rw [ran] at ended silent
      cases ok with
      | false => cases ended
      | true =>
        dsimp only at ended silent ⊢
        cases added : dicoAddEach fs.dicofsinfo [dicoAddU64 0 fsysTotalcost save'.cost] with
        | none =>
          rw [added] at ended
          cases ended
        | some info =>
          rw [added] at ended
          obtain ⟨infos, headers, pushed⟩ := ih ended
          refine ⟨info :: infos, .cons ⟨save'.cost, added⟩ headers, ?_⟩
          dsimp only
          rw [pushed, Savear.push, silent, List.map_cons, List.append_assoc]
          rfl

/-! ## Copies -/

/-- What a walk adds to the queue. -/
theorem wrapTree_parts (sizes : opts.FromCmdline) (save : Savear) (path : Path) (tree : TreeCalls)
    (fit : PathsFit (visitedPaths (tree.visits opts path)))
    (fromKernel : ∀ object ∈ savedObjects false (tree.visits opts path),
      object.calls.FromKernel) :
    (wrapTree mem md5 opts false save path tree).2.pushed = save.pushed ++
        packetItems md5 save.fsid
          ((walkParts mem md5 opts (tree.visits opts path) save).map Part.packet) ∧
      (wrapTree mem md5 opts false save path tree).2.fsid = save.fsid := by
  obtain ⟨pushed, -⟩ := @parts_visits md5 opts mem _ sizes save fit fromKernel
  have stays := (@saveVisits_adds mem md5 opts sizes (tree.visits opts path) _ _
    (pends_walkStart opts save)).2.2
  unfold wrapTree
  rw [createarSaveDirectoryWrapper_eq]
  exact ⟨pushed, stays⟩

/-- The loop over the filesystems puts their contents on the queue. -/
theorem copyFilesystems_contents (sizes : opts.FromCmdline) {filesystems : List MountedFs}
    (fit : ∀ fs ∈ filesystems, PathsFit (visitedPaths (fs.copied.visits opts [slash])))
    (fromKernel : ∀ fs ∈ filesystems,
      ∀ object ∈ savedObjects false (fs.copied.visits opts [slash]), object.calls.FromKernel)
    {infos : List Dico} (headers : List.Forall₂ MountedFs.HeaderIs filesystems infos)
    {i totalerr : Nat} {save : Savear}
    (ended : (copyFilesystems mem md5 opts i totalerr filesystems save).1 = true) :
    ∃ archive, SavedFrom mem md5 opts i filesystems archive ∧ archive.map SavedFs.info = infos ∧
      (copyFilesystems mem md5 opts i totalerr filesystems save).2.2.pushed =
        save.pushed ++ contentsFrom md5 (fun _ => true) i archive := by
  induction headers generalizing i totalerr save with
  | nil => exact ⟨[], .nil i, rfl, (List.append_nil _).symm⟩
  | @cons fs info rest infos header headers ih =>
    obtain ⟨fitHere, fitRest⟩ := List.forall_mem_cons.mp fit
    obtain ⟨kernelHere, kernelRest⟩ := List.forall_mem_cons.mp fromKernel
    let start := savefsBegin (filesystemStart i save) fs
    have starts : fs.WalkStarts i start := ⟨rfl, rfl, rfl⟩
    obtain ⟨pushed, fsid⟩ := @wrapTree_parts mem md5 opts sizes start [slash] fs.copied fitHere
      kernelHere
    rw [starts.fsid] at pushed fsid
    have whole : (createarOperSavefs mem md5 opts (filesystemStart i save) fs).2.pushed =
        save.pushed ++ filesystemItems md5 (UInt16.ofNat i)
          (walkParts mem md5 opts (fs.copied.visits opts [slash]) start) := by
      change (wrapTree mem md5 opts false start [slash] fs.copied).2.pushed ++
        [.header ⟨.datf, (wrapTree mem md5 opts false start [slash] fs.copied).2.fsid,
          Dico.alloc⟩] = _
      rw [pushed, fsid, filesystemItems]
      simp [start, savefsBegin, filesystemStart, Savear.push]
    simp only [copyFilesystems] at ended ⊢
    cases ran : createarOperSavefs mem md5 opts (filesystemStart i save) fs with
    | mk ok save' =>
      rw [ran] at whole ended
      cases ok with
      | false => cases ended
      | true =>
        obtain ⟨archive, savedFrom, same, contents⟩ := ih fitRest kernelRest ended
        let parts := walkParts mem md5 opts (fs.copied.visits opts [slash]) start
        refine ⟨⟨info, parts⟩ :: archive, .cons ⟨header, start, starts, rfl⟩ savedFrom, ?_, ?_⟩
        · rw [List.map_cons, same]
        · dsimp only at whole ⊢
          rw [contents, whole, contentsFrom, if_pos rfl, List.append_assoc]

/-- When `oper_save` returns 0 the whole archive is on the queue. -/
theorem saveFilesystems_archive (sizes : opts.FromCmdline) (setup : SaveSetup)
    {filesystems : List MountedFs}
    (fit : ∀ fs ∈ filesystems, PathsFit (visitedPaths (fs.copied.visits opts [slash])))
    (fromKernel : ∀ fs ∈ filesystems,
      ∀ object ∈ savedObjects false (fs.copied.visits opts [slash]), object.calls.FromKernel)
    (ok : (saveFilesystems mem md5 opts setup filesystems).1 = true) :
    ∃ archive, SavedFrom mem md5 opts 0 filesystems archive ∧
      (saveFilesystems mem md5 opts setup filesystems).2.pushed =
        .header ⟨.main, filesysidNull, setup.mainhead⟩ ::
          archiveItems md5 (fun _ => true) archive := by
  have analysed := @analyseFilesystems_pushed mem md5 opts filesystems setup.start
  unfold saveFilesystems at ok ⊢
  cases ran : analyseFilesystems mem md5 opts filesystems setup.start with
  | mk returned save =>
    rw [ran] at ok analysed
    cases returned with
    | false => cases ok
    | true =>
      obtain ⟨infos, headers, front⟩ := analysed rfl
      simp only [Bool.and_eq_true] at ok
      obtain ⟨archive, savedFrom, same, contents⟩ :=
        copyFilesystems_contents sizes fit fromKernel headers ok.1
      refine ⟨archive, savedFrom, ?_⟩
      dsimp only at front contents ⊢
      rw [contents, front, ← same, archiveItems, List.map_map]
      simp [SaveSetup.start, Savear.push, Savear.zero, SavedFs.infoItem, Function.comp_def]

/-! ## The size of blocks -/

/-- The blocks of a large file. -/
def Part.blocks : Part → List BlockInfo
  | .single _ | .pack _ => []
  | .file _ blocks | .cut _ blocks => blocks

/-- No block of a file is larger than the blocks of an archive. -/
theorem length_regfileBlocks (fsid : UInt16) {blksize filesize : Nat}
    (file : Nat → Nat → Option (List UInt8)) (fuel pos : Nat) (eof : Bool) :
    ∀ blkinfo ∈ (regfileBlocks fsid blksize filesize file fuel pos eof).blocks,
      blkinfo.blkdata.length ≤ blksize := by
  induction fuel generalizing pos eof with
  | zero => simp [regfileBlocks]
  | succ fuel ih =>
    by_cases more : pos < filesize
    · have first (data : List UInt8) (eof : Bool) (length : data.length ≤ blksize) :
          ∀ blkinfo ∈ regfileBlock fsid pos data ::
            (regfileBlocks fsid blksize filesize file fuel (pos + min (filesize - pos) blksize)
              eof).blocks, blkinfo.blkdata.length ≤ blksize :=
        List.forall_mem_cons.mpr ⟨length, ih _ _⟩
      simp only [regfileBlocks, more, ↓reduceIte]
      cases eof with
      | true => exact first _ true (by rw [List.length_replicate]; omega)
      | false =>
        cases found : readFile file pos (min (filesize - pos) blksize) with
        | none => simp
        | some read =>
          have short : read.length ≤ min (filesize - pos) blksize := by
            obtain ⟨bytes, -, rfl⟩ := Option.map_eq_some_iff.mp found
            exact List.length_take_le _ bytes
          by_cases whole : read.length = min (filesize - pos) blksize
          · simp only [Bool.false_eq_true, ↓reduceIte, whole]
            exact first read false (by omega)
          · simp only [Bool.false_eq_true, ↓reduceIte, whole]
            refine first _ true ?_
            rw [List.length_append, List.length_replicate]
            omega
    · simp [regfileBlocks, more]

/-- What a call adds has no larger block. -/
theorem SaveCall.length_blocks {call : SaveCall} {part : Part}
    (added : call.piece md5 opts = .now part) :
    ∀ blkinfo ∈ part.blocks, blkinfo.blkdata.length ≤ opts.datablocksize := by
  unfold SaveCall.piece SaveCall.produced FsArchiver.produced at added
  split at added
  · cases added
  · unfold producedContents at added
    split at added
    · cases added
    · cases added
    · dsimp only at added
      split at added
      · cases added
        exact length_regfileBlocks _ _ _ _ _
      · cases added
        exact length_regfileBlocks _ _ _ _ _
    · split at added
      · cases added
      · cases added
    · cases added
      exact fun blkinfo none => absurd none List.not_mem_nil

/-- Parts come from calls, or are packs. -/
theorem mem_partsFrom {maxblksize : Nat} {waiting : List SavedObj} {pieces : List Piece}
    {part : Part} (member : part ∈ (partsFrom maxblksize waiting pieces).1) :
    .now part ∈ pieces ∨ part.blocks = [] := by
  induction pieces generalizing waiting with
  | nil => simp [partsFrom] at member
  | cons piece rest ih =>
    simp only [partsFrom] at member
    rcases List.mem_append.mp member with here | later
    · cases piece with
      | nothing => simp [addPiece] at here
      | now own =>
        rw [addPiece, List.mem_singleton] at here
        rw [here]
        exact .inl List.mem_cons_self
      | later obj =>
        simp only [addPiece] at here
        split at here
        · cases here
        · rw [List.mem_singleton.mp here]
          exact .inr rfl
    · exact (ih later).imp_left (List.mem_cons_of_mem piece)

/-- No part of a walk has a larger block than may be read. -/
theorem length_blocks_walkParts (sizes : opts.FromCmdline)
    {visits : List Visit} {save : Savear} :
    ∀ part ∈ walkParts mem md5 opts visits save, ∀ blkinfo ∈ part.blocks,
      blkinfo.blkdata.length ≤ maxBlkSize := by
  intro part member blkinfo among
  have added : .now part ∈ (savedCalls mem md5 opts false visits (walkStart opts save)).map
      (SaveCall.piece md5 opts) := by
    unfold walkParts allParts at member
    rcases List.mem_append.mp member with made | last
    · refine (mem_partsFrom made).resolve_right fun none => ?_
      rw [none] at among
      cases among
    · split at last
      · cases last
      · rw [List.mem_singleton.mp last] at among
        cases among
  obtain ⟨call, -, piece⟩ := List.mem_map.mp added
  have small := SaveCall.length_blocks piece blkinfo among
  have size := sizes.datablocksize
  simp only [List.mem_cons, List.not_mem_nil, or_false] at size
  have bound : opts.datablocksize ≤ maxBlkSize := by
    simp only [maxBlkSize] at size ⊢
    omega
  exact small.trans bound

/-! ## What is in the archive -/

/-- The contents of a filesystem are whole and in order: they are what was visited, and the file that
a hard link leads to is among them. -/
structure SavedFs.Complete (md5 : Md5) (opts : SaveOptions) (fsid : UInt16)
    (objects : List VisitedObject) (saved : SavedFs) : Prop where
  wellMade : ∀ part ∈ saved.parts, part.WellMade md5 fsid
  whole : ∀ part ∈ saved.parts, part.isWhole = true
  orderly : ∀ ctx, Orderly ctx (partObjs saved.parts)
  all : ∀ object ∈ objects, ∃ obj ∈ partObjs saved.parts, object.Becomes md5 opts obj
  only : ∀ obj ∈ partObjs saved.parts, ∃ object ∈ objects, object.Becomes md5 opts obj
  files : ∀ obj ∈ partObjs saved.parts, ∀ target, obj.LinksTo target →
    ∃ file ∈ partObjs saved.parts, file.relpath = target ∧ file.objtype = .regfileunique
  blocks : ∀ part ∈ saved.parts, ∀ blkinfo ∈ part.blocks, blkinfo.blkdata.length ≤ maxBlkSize

section Walk

variable {visits : List Visit} {save : Savear}

/-- In a walk without errors every call for an object of a known type counts it. -/
theorem counted_of_noErrors (sizes : opts.FromCmdline) (fit : PathsFit (visitedPaths visits))
    (noErrors : NoErrors opts save.fstype (savedObjects false visits)) {call : SaveCall}
    (member : call ∈ savedCalls mem md5 opts false visits (walkStart opts save))
    (known : call.st.fileType ≠ .other) :
    ∃ obj, call.object md5 opts = some obj ∧ obj.saved = true := by
  obtain ⟨other, saved⟩ := saved_of_noErrors sizes fit noErrors member known
  obtain ⟨obj, object⟩ := SaveCall.object_of_produced saved
  exact ⟨obj, object, (SaveCall.fields_of_object object).2.2.2.trans saved⟩

/-- An object in the archive is of a known type. -/
theorem SaveCall.known_of_object {call : SaveCall} {obj : SavedObj}
    (object : call.object md5 opts = some obj) : call.st.fileType ≠ .other := by
  intro unknown
  have null : objectType opts call.save call.st = .null := objectType_eq_null.mpr unknown
  have nothing : call.produced md5 opts = (.nothing, false) := if_pos (.inr (.inl null))
  unfold SaveCall.object SaveCall.piece at object
  rw [nothing] at object
  cases object

/-- The first link to a file is in the archive of a walk without errors. -/
theorem file_in_walk (sizes : opts.FromCmdline) (fit : PathsFit (visitedPaths visits))
    (apart : PathsApart (visitedPaths visits))
    (sound : ∀ call ∈ savedCalls mem md5 opts false visits (walkStart opts save), call.Sound)
    (noErrors : NoErrors opts save.fstype (savedObjects false visits)) {obj : SavedObj}
    (among : obj ∈ walkObjs mem md5 opts visits save) {target : Path} (links : obj.LinksTo target) :
    ∃ file ∈ walkObjs mem md5 opts visits save, file.relpath = target ∧
      file.objtype = .regfileunique := by
  obtain ⟨call, member, object⟩ := List.mem_filterMap.mp among
  obtain ⟨before, after, split⟩ := List.append_of_mem member
  have seen := SaveCall.linkTarget_of_object (sound call member) object links
  obtain ⟨first, inFront, path, several, -⟩ := first_of_linkTarget fit split seen
  have listed : first ∈ savedCalls mem md5 opts false visits (walkStart opts save) := by
    rw [split]
    exact List.mem_append_left _ inFront
  have isReg : first.st.fileType = .reg := (SavedObject.several_iff.mp several).2.1
  obtain ⟨file, object', -⟩ := counted_of_noErrors sizes fit noErrors listed (by rw [isReg]; decide)
  have inWalk : file ∈ walkObjs mem md5 opts visits save :=
    List.mem_filterMap.mpr ⟨first, listed, object'⟩
  have relpath := (SaveCall.fields_of_object object').1.trans path
  have place : concatenatePaths plainContext.destdir target = file.fullpath plainContext := by
    unfold SavedObj.fullpath
    rw [relpath]
  exact ⟨file, inWalk, relpath, (file_of_link fit apart sound among inWalk links place).2⟩

/-- What a walk without errors has visited is completely in its parts, but for an object of an unknown
type, which ends it. -/
theorem walk_complete (sizes : opts.FromCmdline) (fit : PathsFit (visitedPaths visits))
    (apart : PathsApart (visitedPaths visits))
    (fromKernel : ∀ object ∈ savedObjects false visits, object.calls.FromKernel)
    (noErrors : NoErrors opts save.fstype (savedObjects false visits)) (info : Dico) :
    SavedFs.Complete md5 opts save.fsid ((visitedObjects save.fstype visits).filter
      VisitedObject.known) ⟨info, walkParts mem md5 opts visits save⟩ := by
  have sound := @sound_savedCalls md5 opts mem _ (walkStart opts save) rfl fit fromKernel
  obtain ⟨-, wellMade, order⟩ := @parts_visits md5 opts mem _ sizes save fit fromKernel
  have listed {obj : SavedObj} : obj ∈ partObjs (walkParts mem md5 opts visits save) ↔
      obj ∈ walkObjs mem md5 opts visits save := order.perm.mem_iff
  -- the object of a call is there, and counts as saved
  have counted {call : SaveCall} (member : call ∈ savedCalls mem md5 opts false visits
      (walkStart opts save)) (known : call.st.fileType ≠ .other) :
      ∃ obj ∈ partObjs (walkParts mem md5 opts visits save), call.object md5 opts = some obj ∧
        call.visited.Becomes md5 opts obj := by
    obtain ⟨obj, object, saved⟩ := counted_of_noErrors sizes fit noErrors member known
    exact ⟨obj, listed.mpr (List.mem_filterMap.mpr ⟨call, member, object⟩), object, call,
      sound call member, rfl, object, saved⟩
  -- and every object there is that of a call
  have from' {obj : SavedObj} (among : obj ∈ partObjs (walkParts mem md5 opts visits save)) :
      ∃ call ∈ savedCalls mem md5 opts false visits (walkStart opts save),
        call.st.fileType ≠ .other ∧ call.visited.Becomes md5 opts obj := by
    obtain ⟨call, member, object⟩ := List.mem_filterMap.mp (listed.mp among)
    have known := SaveCall.known_of_object object
    obtain ⟨obj', -, object', becomes⟩ := counted member known
    rw [object, Option.some.injEq] at object'
    exact ⟨call, member, known, object' ▸ becomes⟩
  constructor
  case wellMade => exact wellMade
  case orderly => exact fun ctx => orderly_parts fit apart sound order
  case blocks => exact length_blocks_walkParts sizes
  case whole =>
    intro part member
    cases part with
    | single obj | file obj blocks | pack objs => rfl
    | cut obj blocks =>
      have among : obj ∈ partObjs (walkParts mem md5 opts visits save) :=
        List.mem_flatMap.mpr ⟨_, member, List.mem_singleton_self obj⟩
      obtain ⟨call, -, -, -, -, -, -, saved⟩ := from' among
      rw [(wellMade _ member).2.2.2.2] at saved
      cases saved
  case all =>
    intro object visited
    obtain ⟨visited, known⟩ := List.mem_filter.mp visited
    rw [← @savedCalls_visited mem md5 opts _ save sizes fit] at visited
    obtain ⟨call, member, rfl⟩ := List.mem_map.mp visited
    obtain ⟨obj, among, -, becomes⟩ := counted member (of_decide_eq_true known)
    exact ⟨obj, among, becomes⟩
  case only =>
    intro obj among
    obtain ⟨call, member, known, becomes⟩ := from' among
    refine ⟨call.visited, List.mem_filter.mpr ⟨?_, decide_eq_true known⟩, becomes⟩
    rw [← @savedCalls_visited mem md5 opts _ save sizes fit]
    exact List.mem_map_of_mem member
  case files =>
    intro obj among target links
    obtain ⟨file, inWalk, found⟩ :=
      file_in_walk sizes fit apart sound noErrors (listed.mp among) links
    exact ⟨file, listed.mpr inWalk, found⟩

end Walk

/-- The objects that are visited when a filesystem is copied. -/
def MountedFs.objects (opts : SaveOptions) (fs : MountedFs) : List VisitedObject :=
  visitedObjects fs.fstype (fs.copied.visits opts [slash])

/-- On a filesystem that is saved without an error all objects are of known types. -/
theorem known_of_passes {fs : MountedFs} (passes : fs.Passes opts) :
    (fs.objects opts).filter VisitedObject.known = fs.objects opts := by
  refine List.filter_eq_self.mpr fun object visited => ?_
  have among : object.toSavedObject ∈ savedObjects false (fs.copied.visits opts [slash]) := by
    rw [← map_visitedObjects fs.fstype]
    exact List.mem_map_of_mem visited
  obtain ⟨before, after, split⟩ := List.append_of_mem among
  have calm := passes.noErrors before object.toSavedObject after split
  rcases passes.copied _ (visit_of_savedObjects among) with curvol | known
  · exact absurd (.inl curvol) calm
  · simpa [VisitedObject.known] using known

/-- A filesystem that is saved without an error is completely in the archive. -/
theorem MountedFs.SavedAs.complete (sizes : opts.FromCmdline) {fs : MountedFs} {i : Nat}
    {saved : SavedFs} (savedAs : fs.SavedAs mem md5 opts i saved) (passes : fs.Passes opts)
    (wellNamed : fs.copied.entries.WellNamed)
    (fit : PathsFit (visitedPaths (fs.copied.visits opts [slash])))
    (fromKernel : ∀ object ∈ savedObjects false (fs.copied.visits opts [slash]),
      object.calls.FromKernel) :
    saved.Complete md5 opts (UInt16.ofNat i) (fs.objects opts) := by
  obtain ⟨save, starts, parts⟩ := savedAs.parts
  have noErrors := passes.noErrors
  rw [← starts.fstype] at noErrors
  have complete := @walk_complete mem md5 opts _ save sizes fit (treeVisits_apart wellNamed)
    fromKernel noErrors saved.info
  rw [starts.fstype, starts.fsid, ← parts] at complete
  rw [← known_of_passes passes]
  exact complete

/-- The filesystem of an argument. -/
theorem copied_mount {arg : FsArg} {fs : MountedFs} (mounts : arg.mount = some fs) :
    fs.copied = arg.copied := by
  obtain ⟨pair, -, rfl⟩ := Option.map_eq_some_iff.mp mounts
  rfl

/-- The filesystems are those of the arguments, in their order. -/
theorem mountPartitions_get {args : List FsArg} {filesystems : List MountedFs}
    (mounted : mountPartitions args = some filesystems) {i : Nat} {arg : FsArg}
    (found : args[i]? = some arg) : ∃ fs, filesystems[i]? = some fs ∧ arg.mount = some fs := by
  have same := congrArg (fun list => list[i]?) (mountPartitions_eq_some.mp mounted)
  simp only [List.getElem?_map, found, Option.map_some] at same
  obtain ⟨fs, inList, mounts⟩ := Option.map_eq_some_iff.mp same.symm
  exact ⟨fs, inList, mounts.symm⟩

/-- When `oper_save` returns 0 for filesystems, all of them could be mounted. -/
theorem operSave_mounted {setup : SaveSetup} {args : List FsArg}
    (ok : (operSave mem md5 opts setup (.filesystems args)).1 = true) :
    ∃ filesystems, mountPartitions args = some filesystems ∧
      operSave mem md5 opts setup (.filesystems args) =
        saveFilesystems mem md5 opts setup filesystems := by
  simp only [operSave] at ok ⊢
  split at ok
  · cases ok
  next begun =>
    rw [if_neg begun]
    cases mounted : mountPartitions args with
    | none =>
      rw [mounted] at ok
      cases ok
    | some filesystems => exact ⟨filesystems, rfl, rfl⟩

/-- What is known of the arguments of `savefs`: their trees come from the kernel, and their paths
fit their buffers. -/
structure FsArg.Sound (opts : SaveOptions) (arg : FsArg) : Prop where
  wellNamed : arg.copied.entries.WellNamed
  fit : PathsFit (visitedPaths (arg.copied.visits opts [slash]))
  fromKernel : ∀ object ∈ savedObjects false (arg.copied.visits opts [slash]),
    object.calls.FromKernel

/-- The archive of some arguments. -/
structure ArchiveOf (md5 : Md5) (opts : SaveOptions) (args : List FsArg)
    (archive : List SavedFs) : Prop where
  length_eq : archive.length = args.length
  complete : ∀ (i : Nat) arg saved, args[i]? = some arg → archive[i]? = some saved →
    ∃ fs, arg.mount = some fs ∧ fs.HeaderIs saved.info ∧
      saved.Complete md5 opts (UInt16.ofNat i) (fs.objects opts)

/-- When `oper_save` returns 0 for filesystems, their archive is on the queue. -/
theorem operSave_archive (sizes : opts.FromCmdline) (setup : SaveSetup) {args : List FsArg}
    (sound : ∀ arg ∈ args, arg.Sound opts)
    (ok : (operSave mem md5 opts setup (.filesystems args)).1 = true) :
    ∃ archive, ArchiveOf md5 opts args archive ∧
      (operSave mem md5 opts setup (.filesystems args)).2.pushed =
        .header ⟨.main, filesysidNull, setup.mainhead⟩ ::
          archiveItems md5 (fun _ => true) archive := by
  obtain ⟨filesystems, mounted, same⟩ := operSave_mounted ok
  rw [same] at ok ⊢
  -- what is known of an argument is known of its filesystem
  have soundFs : ∀ fs ∈ filesystems, ∃ arg : FsArg, arg.Sound opts ∧ fs.copied = arg.copied := by
    intro fs member
    obtain ⟨arg, among, mounts⟩ := (mounted_mem mounted).mp member
    exact ⟨arg, sound arg among, copied_mount mounts⟩
  have fit : ∀ fs ∈ filesystems, PathsFit (visitedPaths (fs.copied.visits opts [slash])) := by
    intro fs member
    obtain ⟨arg, own, copied⟩ := soundFs fs member
    rw [copied]
    exact own.fit
  have fromKernel : ∀ fs ∈ filesystems,
      ∀ object ∈ savedObjects false (fs.copied.visits opts [slash]), object.calls.FromKernel := by
    intro fs member
    obtain ⟨arg, own, copied⟩ := soundFs fs member
    rw [copied]
    exact own.fromKernel
  have passes := (saveFilesystems_ok sizes setup fit).mp ok
  obtain ⟨archive, savedFrom, pushed⟩ := saveFilesystems_archive sizes setup fit fromKernel ok
  have count : filesystems.length = args.length := by
    simpa using (congrArg List.length (mountPartitions_eq_some.mp mounted)).symm
  have place {i : Nat} {arg : FsArg} {saved : SavedFs} (given : args[i]? = some arg)
      (found : archive[i]? = some saved) :
      ∃ fs ∈ filesystems, arg.mount = some fs ∧ fs.SavedAs mem md5 opts i saved := by
    obtain ⟨fs, inList, mounts⟩ := mountPartitions_get mounted given
    obtain ⟨fs', inList', savedAs⟩ := savedFrom.get found
    rw [inList, Option.some.injEq] at inList'
    subst inList'
    exact ⟨fs, List.mem_of_getElem? inList, mounts, by simpa using savedAs⟩
  refine ⟨archive, ⟨savedFrom.length_eq.trans count, ?_⟩, pushed⟩
  intro i arg saved given found
  obtain ⟨fs, member, mounts, savedAs⟩ := place given found
  have own := sound arg (List.mem_of_getElem? given)
  refine ⟨fs, mounts, savedAs.info, ?_⟩
  exact savedAs.complete sizes (passes fs member) (by rw [copied_mount mounts]; exact own.wellNamed)
    (fit fs member) (fromKernel fs member)

end Saved

end FsArchiver
