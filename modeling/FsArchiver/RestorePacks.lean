import FsArchiver.RestorePackets

/-!
# Packs being restored

The headers of a pack are collected, their block is taken from the queue, and every file finds
its bytes at the offset in its header: the offsets are the lengths of all files before it.
-/
namespace FsArchiver

open Lib

variable {ctx : Context} {exar : Extractar} {rest : List QueueData}

/-! ## Places -/

/-- The files of a pack in two parts. -/
theorem packHeaders_append (count offset : UInt32) (files files' : List PackEntry) :
    packHeaders count offset (files ++ files') = packHeaders count offset files ++
      packHeaders count (offset + UInt32.ofNat (files.flatMap Prod.snd).length) files' := by
  induction files generalizing offset with
  | nil => simp [packHeaders]
  | cons entry files ih =>
    rw [List.cons_append, packHeaders, ih, packHeaders, List.cons_append, List.flatMap_cons,
      List.length_append]
    congr 3
    apply UInt32.toNat_inj.mp
    simp only [UInt32.toNat_add, UInt32.toNat_ofNat', Nat.add_mod_mod, Nat.mod_add_mod]
    congr 1
    omega

@[simp] theorem length_packHeaders (count offset : UInt32) (files : List PackEntry) :
    (packHeaders count offset files).length = files.length := by
  induction files generalizing offset with
  | nil => rfl
  | cons entry files ih => rw [packHeaders, List.length_cons, List.length_cons, ih]

/-- The number of files is read from the header of each of them. -/
theorem Packable.readCount {entry : PackEntry} (packable : Packable entry) (mem : Mem)
    (count offset : UInt32) : dicoGetU32 mem (placedHeader count offset entry.1) Section.stdattr
      ItemKey.multifilescount = some count := by
  have found : (placedHeader count offset entry.1).find Section.stdattr ItemKey.multifilescount =
      some (dicoAddU32 Section.stdattr ItemKey.multifilescount count).item := by
    unfold placedHeader
    rw [find_dicoAddAll, packable.count]
    rfl
  exact dicoGetU32_of_find found
    (show sizedData (leBytes 4 count.toNat) = _ from sizedData_of_lt (by simp))

/-- So is its offset. -/
theorem Packable.readOffset {entry : PackEntry} (packable : Packable entry) (mem : Mem)
    (count offset : UInt32) : dicoGetU32 mem (placedHeader count offset entry.1) Section.stdattr
      ItemKey.multifilesoffset = some offset := by
  have found : (placedHeader count offset entry.1).find Section.stdattr ItemKey.multifilesoffset =
      some (dicoAddU32 Section.stdattr ItemKey.multifilesoffset offset).item := by
    unfold placedHeader
    rw [find_dicoAddAll, packable.offset]
    rfl
  exact dicoGetU32_of_find found
    (show sizedData (leBytes 4 offset.toNat) = _ from sizedData_of_lt (by simp))

/-- A file of a pack gets its own header and bytes. -/
theorem regmultiRestGetfile_pack (mem : Mem) (count : UInt32) {maxblksize : Nat}
    (before after : List PackEntry) {entry : PackEntry} (packable : Packable entry)
    (small : ((before ++ entry :: after).flatMap Prod.snd).length < 2 ^ 32) :
    regmultiRestGetfile mem
        { maxblksize
          objhead := packHeaders count 0 (before ++ entry :: after)
          data := (before ++ entry :: after).flatMap Prod.snd } before.length =
      some (placedHeader count (UInt32.ofNat (before.flatMap Prod.snd).length) entry.1,
        entry.2) := by
  have header : (packHeaders count 0 (before ++ entry :: after))[before.length]? =
      some (placedHeader count (UInt32.ofNat (before.flatMap Prod.snd).length) entry.1) := by
    rw [packHeaders_append, List.getElem?_append_right (by simp)]
    simp [packHeaders]
  have place : SameButPlace
      (placedHeader count (UInt32.ofNat (before.flatMap Prod.snd).length) entry.1) entry.1 :=
    .inr ⟨_, _, rfl⟩
  have size : dicoGetU64 mem
      (placedHeader count (UInt32.ofNat (before.flatMap Prod.snd).length) entry.1) Section.stdattr
      ItemKey.size = some (UInt64.ofNat entry.2.length) := by
    have own := packable.size_eq mem
    unfold dicoGetU64 dicoGetWord dicoGetData dicoGetGeneric at own ⊢
    rw [place.find_eq (by decide) Section.stdattr, own]
  have offset := packable.readOffset mem count (UInt32.ofNat (before.flatMap Prod.snd).length)
  rw [List.flatMap_append, List.length_append, List.flatMap_cons, List.length_append] at small
  have start : (UInt32.ofNat (before.flatMap Prod.snd).length).toNat =
      (before.flatMap Prod.snd).length := Nat.mod_eq_of_lt (by omega)
  have length : (UInt64.ofNat entry.2.length).toNat = entry.2.length :=
    Nat.mod_eq_of_lt (by omega)
  unfold regmultiRestGetfile
  simp only [header, size, offset, Option.bind_eq_bind, Option.bind_some, start, length,
    Option.some.injEq, Prod.mk.injEq, true_and]
  refine List.ext_getElem (by simp) fun i inside inside' => ?_
  simp only [List.length_map, List.length_range] at inside
  simp only [List.getElem_map, List.getElem_range, List.flatMap_append, List.flatMap_cons]
  rw [List.getElem?_append_right (by omega), Nat.add_sub_cancel_left,
    List.getElem?_append_left inside, List.getElem?_eq_getElem inside]
  rfl

/-! ## Small files -/

/-- A saved object as a file of a pack. -/
def SavedObj.packEntry (obj : SavedObj) : PackEntry := (obj.d, obj.contents)

/-- What is known of every small file that was saved. -/
structure SavedObj.Packed (obj : SavedObj) (md5 : Md5) : Prop where
  wellMade : obj.WellMade
  multi : obj.objtype = .regfilemulti
  nonempty : obj.contents ≠ []
  packable : Packable obj.packEntry
  /-- The digest is in the header. -/
  md5sum : dicoGetData obj.d Section.stdattr ItemKey.md5sum 16 = some (md5.digest obj.contents)

/-- The data of an intact small file is written. -/
theorem writeSmallFile_calm (calm : ctx.os.Calm) {path : Path} {filehead : Dico}
    {databuf : List UInt8}
    (md5sum : dicoGetData filehead Section.stdattr ItemKey.md5sum 16 =
      some (ctx.md5.digest databuf)) (fsid : UInt16) (log : Log) :
    Traced.Gives (writeSmallFile ctx path filehead databuf) log .restored
      (fileCalls false path [regfileBlock fsid 0 databuf]) := by
  let f : Datafile := { simul := false, isOpen := true, sparse := false, path, hashed := [] }
  have opened : Traced.Gives (datafileOpenWrite ctx.os datafileAlloc path false false) log (true, f)
      [(.create path, 0)] := by
    simp [Traced.Gives, datafileOpenWrite, datafileAlloc, calm.call_eq, SysCall.sure,
      SysCall.success, f]
  have written := datafileWrite_calm calm (show f.isOpen = true from rfl) databuf
    (log ++ [(.create path, 0)])
  have closed := datafileClose_calm calm ctx.md5
    (show Datafile.isOpen { f with hashed := f.hashed ++ databuf } = true from rfl)
    (log ++ [(.create path, 0)] ++ [(blockCall false path databuf,
      (blockCall false path databuf).success)])
  unfold Traced.Gives at opened written closed ⊢
  simp only [f, Bool.false_eq_true, ↓reduceIte, List.nil_append] at written closed
  unfold writeSmallFile
  simp only [md5sum, Traced.run_bind, opened, Bool.not_true, Bool.false_eq_true, ↓reduceIte, f,
    written, closed, localBuffer_digest, ne_eq, not_true_eq_false, Traced.run_pure]
  simp [fileCalls, blockEntry, regfileBlock]

/-- Attributes depend on what is found. -/
theorem Attributed.place {log : Log} {path : Path} {d : Dico} {objtype : UInt32}
    {count offset : UInt32}
    (attributed : Attributed ctx log path (placedHeader count offset d) objtype) :
    Attributed ctx log path d objtype := by
  have place : SameButPlace (placedHeader count offset d) d := .inr ⟨count, offset, rfl⟩
  have calls : ∀ call ∈ [dicoAddU32 Section.stdattr ItemKey.multifilescount count,
      dicoAddU32 Section.stdattr ItemKey.multifilesoffset offset], call.sect = Section.stdattr := by
    intro call member
    simp only [List.mem_cons, List.not_mem_nil, or_false] at member
    rcases member with rfl | rfl <;> rfl
  have std : readStdAttr ctx.mem (placedHeader count offset d) = readStdAttr ctx.mem d := by
    unfold readStdAttr dicoGetU32 dicoGetU64 dicoGetWord dicoGetData dicoGetGeneric
    rw [place.find_eq (by decide) Section.stdattr, place.find_eq (by decide) Section.stdattr,
      place.find_eq (by decide) Section.stdattr, place.find_eq (by decide) Section.stdattr,
      place.find_eq (by decide) Section.stdattr]
  refine ⟨fun attr read => attributed.owner attr (std.trans read),
    fun attr read => attributed.mode attr (std.trans read), ?_⟩
  intro sect member key inside attr read
  have other : ∀ call ∈ [dicoAddU32 Section.stdattr ItemKey.multifilescount count,
      dicoAddU32 Section.stdattr ItemKey.multifilesoffset offset], call.sect ≠ sect := by
    intro call among
    rw [calls call among]
    simp only [List.mem_cons, List.not_mem_nil, or_false] at member
    rcases member with rfl | rfl
    · decide
    · decide
  have counted : dicoCountOneSection (placedHeader count offset d) sect = dicoCountOneSection d sect :=
    count_dicoAddAll_other other
  have found (key : UInt16) : (placedHeader count offset d).find sect key = d.find sect key :=
    find_dicoAddAll_other fun call among same => other call among same.2
  refine attributed.xattrs sect member key (by rw [counted]; exact inside) attr ?_
  unfold readAttr dicoGetString dicoGetData dicoGetGeneric at read ⊢
  rw [found, found]
  exact read

/-- One small file: it is left alone if it is excluded, and restored otherwise. -/
theorem restoreSmallFile_calm (calm : ctx.os.Calm) {obj : SavedObj} (packed : obj.Packed ctx.md5)
    {regmulti : Regmulti} {index : Nat} {count offset : UInt32}
    (getfile : regmultiRestGetfile ctx.mem regmulti index =
      some (placedHeader count offset obj.d, obj.contents)) (log : Log) :
    ∃ file made, Traced.Gives
        (restoreSmallFile ctx ObjType.regfilemulti.code regmulti index) log file made ∧
      Concerns made [obj.fullpath ctx] ∧
      (obj.excluded ctx = true → made = [] ∧ file = .excluded) ∧
      (obj.excluded ctx = false → obj.Restored ctx log made ∧ file = .restored) := by
  have header := packed.wellMade.header.place count offset
  have type : dicoGetU32 ctx.mem (placedHeader count offset obj.d) Section.stdattr
      ItemKey.objtype = some obj.objtype.code := header.headerType ctx.mem
  have path := header.readPath packed.wellMade.short packed.wellMade.clean ctx.mem
  have unfolded : restoreSmallFile ctx ObjType.regfilemulti.code regmulti index =
      if isFiledirExcluded ctx.exclude obj.relpath then return .excluded
      else do
        let tv ← enterParent ctx (obj.fullpath ctx)
        let written ← writeSmallFile ctx (obj.fullpath ctx) (placedHeader count offset obj.d)
          obj.contents
        if written ≠ .restored then return written
        else
          let attrs ← extractarRestoreAttrEverything ctx ObjType.regfilemulti.code (obj.fullpath ctx)
            (placedHeader count offset obj.d)
          if !attrs then return .failed
          else
            let left ← leaveParent ctx (obj.fullpath ctx) tv
            if left then return .restored else return .failed := by
    unfold restoreSmallFile
    simp only [getfile, type, path]
    rfl
  rw [unfolded]
  cases excluded : obj.excluded ctx with
  | true =>
    have out : isFiledirExcluded ctx.exclude obj.relpath = true := excluded
    rw [if_pos out]
    exact ⟨.excluded, [], Traced.Gives.pure _ log, Concerns.nil _, fun _ => ⟨rfl, rfl⟩,
      fun kept => by cases kept⟩
  | false =>
    have kept : ¬isFiledirExcluded ctx.exclude obj.relpath = true := by
      rw [show isFiledirExcluded ctx.exclude obj.relpath = false from excluded]
      decide
    rw [if_neg kept]
    have md5sum : dicoGetData (placedHeader count offset obj.d) Section.stdattr ItemKey.md5sum 16 =
        some (ctx.md5.digest obj.contents) := by
      have place : SameButPlace (placedHeader count offset obj.d) obj.d := .inr ⟨count, offset, rfl⟩
      have own := packed.md5sum
      unfold dicoGetData dicoGetGeneric at own ⊢
      rw [place.find_eq (by decide) Section.stdattr, own]
    have quietEnter : Sys.Quiet (obj.fullpath ctx) (enterParent ctx (obj.fullpath ctx)) :=
      enterParent_quiet _
    obtain ⟨tv, entered, enter, quiet, -⟩ := quietEnter.gives log
    let calls := fileCalls false (obj.fullpath ctx) [regfileBlock ctx.fsid 0 obj.contents]
    have write : Traced.Gives (writeSmallFile ctx (obj.fullpath ctx)
        (placedHeader count offset obj.d) obj.contents) (log ++ entered) .restored calls :=
      writeSmallFile_calm calm md5sum ctx.fsid (log ++ entered)
    obtain ⟨attrs, restore, attributed⟩ : ∃ attrs, Traced.Gives
        (extractarRestoreAttrEverything ctx ObjType.regfilemulti.code (obj.fullpath ctx)
          (placedHeader count offset obj.d)) (log ++ entered ++ calls) true attrs ∧
        Attributed ctx attrs (obj.fullpath ctx) (placedHeader count offset obj.d)
          ObjType.regfilemulti.code :=
      extractarRestoreAttrEverything_calm calm (header.readable ctx) _
    have quietAttrs : ∀ entry ∈ attrs, Quiet (obj.fullpath ctx) entry :=
      ((extractarRestoreAttrEverything_quiet ObjType.regfilemulti.code _).of_gives restore).1
    let last : Log := [(.utimes (extractDirpath (obj.fullpath ctx)) tv.1 tv.2, 0)]
    have left : Traced.Gives (leaveParent ctx (obj.fullpath ctx) tv)
        (log ++ entered ++ calls ++ attrs) true last := by
      simp [Traced.Gives, leaveParent, calm.call_eq, SysCall.sure, SysCall.success, last]
    have small : obj.contents.length < 2 ^ 32 := by
      have bound := packed.packable.small
      simp only [maxSmallFileSize, SavedObj.packEntry] at bound
      omega
    have chunked : Chunked ctx.fsid 0 obj.contents [regfileBlock ctx.fsid 0 obj.contents] := by
      have one := @Chunked.cons ctx.fsid 0 _ _ _ packed.nonempty small (Chunked.nil _)
      rwa [List.append_nil] at one
    have quietLast : ∀ entry ∈ last, Quiet (obj.fullpath ctx) entry := by
      intro entry member
      rw [List.mem_singleton.mp member]
      exact quiet_of_object rfl 0
    have aboutCalls : Concerns calls [obj.fullpath ctx] := (writeSmallFile_about _ _).concerns write
    have concern (made : Log) (quiet : ∀ entry ∈ made, Quiet (obj.fullpath ctx) entry) :
        Concerns made [obj.fullpath ctx] := fun entry member other own =>
      List.mem_singleton.mpr ((quiet entry member).1 other own)
    refine ⟨.restored, entered ++ (calls ++ (attrs ++ last)), ?_, ?_, ?_, ?_⟩
    · unfold Traced.Gives at enter write restore left ⊢
      simp only [Traced.run_bind, enter, write, ne_eq, not_true_eq_false, ↓reduceIte, restore,
        Bool.not_true, Bool.false_eq_true, left, Traced.run_pure]
      simp only [List.append_assoc]
    · exact (concern entered quiet).append (aboutCalls.append
        ((concern attrs quietAttrs).append (concern last quietLast)))
    · exact fun out => absurd out (by decide)
    · refine fun _ => ⟨⟨?_, fun isEntry => ?_, fun _ =>
        ⟨ctx.fsid, false, [regfileBlock ctx.fsid 0 obj.contents], chunked, ?_⟩⟩, rfl⟩
      · rw [packed.multi]
        refine attributed.place.mono fun entry member => ?_
        exact List.mem_append_right _ (List.mem_append_right _ (List.mem_append_left _ member))
      · rw [packed.multi] at isEntry
        cases isEntry
      · rw [history_append, history_append, history_append, history_quiet quiet,
          history_quiet quietAttrs, history_quiet quietLast, history_fileCalls, List.nil_append,
          List.append_nil, List.append_nil]

/-- The path of a small file is read from the header in its pack. -/
theorem smallPath_placed {obj : SavedObj} (wellMade : obj.WellMade) {regmulti : Regmulti}
    {index : Nat} {count offset : UInt32}
    (getfile : regmultiRestGetfile ctx.mem regmulti index =
      some (placedHeader count offset obj.d, obj.contents)) :
    smallPath ctx regmulti index = some obj.relpath := by
  unfold smallPath
  rw [getfile]
  exact (wellMade.header.place count offset).readPath wellMade.short wellMade.clean ctx.mem

/-- The small files of a pack, from one of them on. -/
theorem restoreSmallFiles_calm (calm : ctx.os.Calm) (before : List SavedObj) {objs : List SavedObj}
    (packed : ∀ obj ∈ objs, obj.Packed ctx.md5)
    (apart : (objs.map fun obj => obj.fullpath ctx).Nodup) {maxblksize : Nat} {count : UInt32}
    (small : (((before ++ objs).map SavedObj.packEntry).flatMap Prod.snd).length < 2 ^ 32)
    (stats : Stats) (log : Log) :
    ∃ stats' made, Traced.Gives (restoreSmallFiles ctx ObjType.regfilemulti.code
        { maxblksize
          objhead := packHeaders count 0 ((before ++ objs).map SavedObj.packEntry)
          data := ((before ++ objs).map SavedObj.packEntry).flatMap Prod.snd }
        (List.range' before.length objs.length) stats) log (true, stats') made ∧
      Steps (Counts ctx fun _ => False) stats objs stats' ∧
      Steps (RestoresBy ctx fun _ => False) log objs (log ++ made) ∧
      Concerns made (objs.map fun obj => obj.fullpath ctx) ∧
      ∀ obj ∈ objs, (obj.excluded ctx = true → Untouched made (obj.fullpath ctx)) ∧
        (obj.excluded ctx = false → obj.Restored ctx log made) := by
  induction objs generalizing before stats log with
  | nil =>
    refine ⟨stats, [], Traced.Gives.pure _ log, .nil stats, ?_, Concerns.nil _, by simp⟩
    rw [List.append_nil]
    exact .nil log
  | cons obj objs ih =>
    have own := packed obj List.mem_cons_self
    have getfile : regmultiRestGetfile ctx.mem
        { maxblksize
          objhead := packHeaders count 0 ((before ++ obj :: objs).map SavedObj.packEntry)
          data := ((before ++ obj :: objs).map SavedObj.packEntry).flatMap Prod.snd }
        before.length = some (placedHeader count (UInt32.ofNat
          ((before.map SavedObj.packEntry).flatMap Prod.snd).length) obj.d, obj.contents) := by
      have found := @regmultiRestGetfile_pack ctx.mem count maxblksize
        (before.map SavedObj.packEntry) (objs.map SavedObj.packEntry) obj.packEntry own.packable
        (by rw [List.map_append, List.map_cons] at small; exact small)
      rw [List.length_map] at found
      rw [List.map_append, List.map_cons]
      exact found
    obtain ⟨file, made, gives, concerns, untouched, restored⟩ :=
      restoreSmallFile_calm calm own getfile log
    obtain ⟨apartFirst, apartRest⟩ := List.nodup_cons.mp apart
    have shifted : before ++ obj :: objs = (before ++ [obj]) ++ objs := by simp
    have onward (stats : Stats) := ih (before ++ [obj])
      (fun obj member => packed obj (List.mem_cons_of_mem _ member)) apartRest
      (by rw [← shifted]; exact small) stats (log ++ made)
    rw [← shifted, List.length_append, List.length_singleton] at onward
    have next : obj.fullpath ctx ∉ objs.map fun obj => obj.fullpath ctx := apartFirst
    have others : ∀ other ∈ objs, Untouched made (other.fullpath ctx) := by
      intro other member
      refine concerns.untouched fun same => next ?_
      rw [← List.mem_singleton.mp same]
      exact List.mem_map_of_mem member
    have ran : (restoreSmallFile ctx ObjType.regfilemulti.code
        { maxblksize
          objhead := packHeaders count 0 ((before ++ obj :: objs).map SavedObj.packEntry)
          data := ((before ++ obj :: objs).map SavedObj.packEntry).flatMap Prod.snd }
        before.length).run log = (file, log ++ made) := gives
    obtain ⟨stats₁, counts, next'⟩ : ∃ stats₁ : Stats, Counts ctx (fun _ => False) stats obj stats₁ ∧
        (restoreSmallFiles ctx ObjType.regfilemulti.code
          { maxblksize
            objhead := packHeaders count 0 ((before ++ obj :: objs).map SavedObj.packEntry)
            data := ((before ++ obj :: objs).map SavedObj.packEntry).flatMap Prod.snd }
          (List.range' before.length (obj :: objs).length) stats).run log =
        (restoreSmallFiles ctx ObjType.regfilemulti.code
          { maxblksize
            objhead := packHeaders count 0 ((before ++ obj :: objs).map SavedObj.packEntry)
            data := ((before ++ obj :: objs).map SavedObj.packEntry).flatMap Prod.snd }
          (List.range' (before.length + 1) objs.length) stats₁).run (log ++ made) := by
      rw [List.length_cons, List.range'_succ, restoreSmallFiles, Traced.run_bind, ran]
      cases excluded : obj.excluded ctx with
      | true =>
        obtain ⟨-, rfl⟩ := untouched excluded
        exact ⟨stats, .skipped excluded (by rw [own.multi]; rfl), rfl⟩
      | false =>
        obtain ⟨-, rfl⟩ := restored excluded
        exact ⟨stats.count .regfilemulti, own.multi ▸ .restored excluded, rfl⟩
    obtain ⟨stats', made', gives', counts', restores', concerns', each⟩ := onward stats₁
    refine ⟨stats', made ++ made', ?_, .cons counts counts', ?_, ?_, ?_⟩
    · unfold Traced.Gives at gives' ⊢
      rw [next', gives', List.append_assoc]
    · rw [← List.append_assoc]
      refine .cons (fun kept _ => ?_) restores'
      rw [(restored kept).2] at ran
      exact .small own.multi (smallPath_placed own.wellMade getfile) ran
    · exact (concerns.mono (by simp)).append (concerns'.mono (List.subset_cons_self _ _))
    · intro other member
      rcases List.mem_cons.mp member with rfl | member
      · have later : Untouched made' (other.fullpath ctx) := concerns'.untouched apartFirst
        refine ⟨fun out => ?_, fun kept => (restored kept).1.append later⟩
        rw [(untouched out).1]
        exact later
      · obtain ⟨out, kept⟩ := each other member
        exact ⟨fun excluded => (others other member).append (out excluded),
          fun notExcluded => (kept notExcluded).prepend (others other member)⟩

/-! ## Packs -/

/-- The headers of a pack are taken from the queue. -/
theorem restoreHeaders_pack (fsid : UInt16) (headers : List Dico) (rest : List QueueData)
    {regmulti : Regmulti} (room : regmulti.objhead.length + headers.length ≤ maxSmallFileCount) :
    restoreHeaders headers.length regmulti (headers.map (objectItem fsid) ++ rest) =
      (true, { regmulti with objhead := regmulti.objhead ++ headers }, rest) := by
  induction headers generalizing regmulti with
  | nil => simp [restoreHeaders]
  | cons header headers ih =>
    rw [List.length_cons] at room
    have add : regmultiRestAddheader regmulti header =
        some { regmulti with objhead := regmulti.objhead ++ [header] } := by
      unfold regmultiRestAddheader
      rw [if_neg (by omega)]
    have onward := @ih { regmulti with objhead := regmulti.objhead ++ [header] }
      (by rw [List.length_append, List.length_singleton]; omega)
    rw [List.length_cons, List.map_cons, List.cons_append, restoreHeaders]
    simp only [objectItem, dequeueHeader, ne_eq, not_true_eq_false, ↓reduceIte, add]
    rw [onward]
    simp

/-- What `extractar_restore_object` does with the header of a small file. -/
theorem extractarRestoreObject_multi {obj : SavedObj} (wellMade : obj.WellMade)
    (multi : obj.objtype = .regfilemulti) (count offset : UInt32) (exar : Extractar) :
    extractarRestoreObject ctx exar (placedHeader count offset obj.d) =
      extractarRestoreObjRegfileMulti ctx exar (placedHeader count offset obj.d)
        ObjType.regfilemulti.code := by
  have header := wellMade.header.place count offset
  have path := header.readPath wellMade.short wellMade.clean ctx.mem
  have type : dicoGetU32 ctx.mem (placedHeader count offset obj.d) Section.stdattr
      ItemKey.objtype = some obj.objtype.code := header.headerType ctx.mem
  have size := header.size ctx.mem
  unfold extractarRestoreObject
  simp only [path, type, size]
  rw [multi, ObjType.ofCode_code (by decide)]

/-- The whole pack is taken from the queue before any of its files is restored. -/
theorem extractarRestoreObject_pack {first : SavedObj} {others : List SavedObj}
    (wellMade : first.WellMade) (multi : first.objtype = .regfilemulti)
    (packable : Packable first.packEntry)
    (few : (first :: others).length ≤ maxSmallFileCount)
    (room : (((first :: others).map SavedObj.packEntry).flatMap Prod.snd).length ≤ maxBlkSize)
    (exar : Extractar) (rest : List QueueData) :
    let files := (first :: others).map SavedObj.packEntry
    let count := UInt32.ofNat files.length
    extractarRestoreObject ctx
        { exar with
          queue := ((packHeaders count (0 + UInt32.ofNat first.contents.length)
              (others.map SavedObj.packEntry)).map (objectItem ctx.fsid) ++
            [.block (packBlock ctx.fsid (files.flatMap Prod.snd))]) ++ rest }
        (placedHeader count 0 first.d) =
      let ran := (restoreSmallFiles ctx ObjType.regfilemulti.code
        { maxblksize := maxBlkSize
          objhead := packHeaders count 0 files
          data := files.flatMap Prod.snd } (List.range files.length) exar.stats).run exar.log
      (ran.1.1, { exar with queue := rest, stats := ran.1.2, log := ran.2 }) := by
  intro files count
  have counted : dicoGetU32 ctx.mem (placedHeader count 0 first.d) Section.stdattr
      ItemKey.multifilescount = some count := packable.readCount ctx.mem count 0
  have length : files.length = others.length + 1 := by simp [files]
  rw [List.length_cons, maxSmallFileCount] at few
  have number : count.toNat = files.length := Nat.mod_eq_of_lt (by omega)
  have add : regmultiRestAddheader (regmultiInit maxBlkSize) (placedHeader count 0 first.d) =
      some ⟨maxBlkSize, [placedHeader count 0 first.d], []⟩ := rfl
  let headers := packHeaders count (0 + UInt32.ofNat first.contents.length)
    (others.map SavedObj.packEntry)
  have headersLength : headers.length = others.length := by simp [headers]
  have taken := @restoreHeaders_pack ctx.fsid headers
      ([.block (packBlock ctx.fsid (files.flatMap Prod.snd))] ++ rest)
      ⟨maxBlkSize, [placedHeader count 0 first.d], []⟩
      (by rw [headersLength, List.length_singleton, maxSmallFileCount]; omega)
  rw [headersLength] at taken
  have data : heapBytes ctx.mem (packBlock ctx.fsid (files.flatMap Prod.snd)).blkdata 0
      (packBlock ctx.fsid (files.flatMap Prod.snd)).blkrealsize.toNat =
      files.flatMap Prod.snd := by
    have bound : (files.flatMap Prod.snd).length ≤ maxBlkSize := room
    rw [maxBlkSize] at bound
    have stored : (packBlock ctx.fsid (files.flatMap Prod.snd)).blkrealsize.toNat =
      (files.flatMap Prod.snd).length := Nat.mod_eq_of_lt (by omega)
    rw [stored]
    exact heapBytes_all ctx.mem _
  have set : regmultiRestSetdatablock
      ⟨maxBlkSize, [placedHeader count 0 first.d] ++ headers, []⟩ (files.flatMap Prod.snd) =
      some ⟨maxBlkSize, [placedHeader count 0 first.d] ++ headers, files.flatMap Prod.snd⟩ := by
    unfold regmultiRestSetdatablock
    have bound : (files.flatMap Prod.snd).length ≤ maxBlkSize := room
    rw [if_neg]
    simpa using bound
  rw [extractarRestoreObject_multi wellMade multi]
  simp only [extractarRestoreObjRegfileMulti, counted, add, number, length, Nat.add_sub_cancel]
  rw [List.append_assoc, taken]
  simp only [List.singleton_append, dequeueBlock, data]
  rw [← List.singleton_append, set]
  rfl

/-- The round for a pack. -/
theorem round_pack (calm : ctx.os.Calm) {objs : List SavedObj} (nonempty : objs ≠ [])
    (packed : ∀ obj ∈ objs, obj.Packed ctx.md5)
    (apart : (objs.map fun obj => obj.fullpath ctx).Nodup)
    (few : objs.length ≤ maxSmallFileCount)
    (room : ((objs.map SavedObj.packEntry).flatMap Prod.snd).length ≤ maxBlkSize)
    (queue : exar.queue =
      (Packet.pack (objs.map SavedObj.packEntry)).items ctx.md5 ctx.fsid ++ rest) :
    ∃ exar' made, Round ctx exar exar' rest made ∧
      Steps (Counts ctx fun _ => False) exar.stats objs exar'.stats ∧
      Steps (RestoresBy ctx fun _ => False) exar.log objs exar'.log ∧
      Concerns made (objs.map fun obj => obj.fullpath ctx) ∧
      ∀ obj ∈ objs, (obj.excluded ctx = true → Untouched made (obj.fullpath ctx)) ∧
        (obj.excluded ctx = false → obj.Restored ctx exar.log made) := by
  cases objs with
  | nil => exact absurd rfl nonempty
  | cons first others =>
    have own := packed first List.mem_cons_self
    have whole := @extractarRestoreObject_pack ctx _ _ own.wellMade own.multi own.packable few room
        exar rest
    obtain ⟨stats, made, gives, counts, restores, concerns, each⟩ := @restoreSmallFiles_calm _ calm [] _ packed
        apart maxBlkSize (UInt32.ofNat ((first :: others).map SavedObj.packEntry).length)
        (by rw [List.nil_append]; rw [maxBlkSize] at room; omega) exar.stats exar.log
    unfold Traced.Gives at gives
    rw [List.nil_append, List.length_nil, ← List.range_eq_range'] at gives
    simp only [List.length_map] at whole gives
    simp only [gives] at whole
    refine ⟨_, made, ⟨extractStep_object ?_ whole, rfl, rfl, rfl, rfl⟩, counts, restores, concerns,
      each⟩
    rw [queue]
    simp only [Packet.items, List.map_cons, packHeaders, List.cons_append, SavedObj.packEntry,
      List.length_cons, List.length_map]

end FsArchiver
