import FsArchiver.Hardlinks

/-!
# Targets of hard links

The headers of hard links and of files with several links go to the queue at once, while small
files wait and have one link only. So what matters on the queue is a list of marks, one for each
such header, and the marks come in the order of the calls. A link has its target before it unless
the first link of its file was entered in the table and then could not be saved.
-/
namespace FsArchiver

open Lib

/-! ## Marks on the queue -/

/-- The type in the header of an object. -/
def headerType (mem : Mem) (d : Dico) : Option UInt32 :=
  dicoGetU32 mem d Section.stdattr ItemKey.objtype

/-- Every hard link on the queue names a path whose `OBJTYPE_REGFILEUNIQUE` header comes before
it, for the same filesystem. -/
def LinksHaveTargets (mem : Mem) (items : List QueueData) : Prop :=
  ∀ before fsid d after, items = before ++ objectItem fsid d :: after →
    headerType mem d = some ObjType.hardlink.code →
    ∃ target d', readTarget d ItemKey.hardlink = some target ∧ objectItem fsid d' ∈ before ∧
      headerType mem d' = some ObjType.regfileunique.code ∧
      readPath mem d' ItemKey.path = some target

/-- What a header says about links. -/
inductive LinkMark where
  /-- The contents of a file are at a path. -/
  | file (fsid : UInt16) (path : Option Path)
  /-- A hard link to a path. -/
  | link (fsid : UInt16) (target : Option Path)

/-- The mark of a header. -/
def headerMark (mem : Mem) (fsid : UInt16) (d : Dico) : Option LinkMark :=
  if headerType mem d = some ObjType.hardlink.code then
    some (.link fsid (readTarget d ItemKey.hardlink))
  else if headerType mem d = some ObjType.regfileunique.code then
    some (.file fsid (readPath mem d ItemKey.path))
  else none

/-- The mark of an item. -/
def itemMark (mem : Mem) : QueueData → Option LinkMark
  | .header ⟨.objt, fsid, d⟩ => headerMark mem fsid d
  | _ => none

/-- Every link comes behind its file. -/
def MarksMatch (marks : List LinkMark) : Prop :=
  ∀ before fsid target after, marks = before ++ .link fsid target :: after →
    ∃ path, target = some path ∧ .file fsid (some path) ∈ before

/-- A mark of a link comes from its header. -/
theorem itemMark_link {mem : Mem} {item : QueueData} {fsid : UInt16} {target : Option Path} :
    itemMark mem item = some (.link fsid target) ↔ ∃ d, item = objectItem fsid d ∧
      headerType mem d = some ObjType.hardlink.code ∧
      readTarget d ItemKey.hardlink = target := by
  constructor
  · intro marked
    unfold itemMark at marked
    split at marked
    next fsid' d =>
      unfold headerMark at marked
      split at marked
      next linked =>
        cases marked
        exact ⟨d, rfl, linked, rfl⟩
      next =>
        split at marked
        · cases marked
        · cases marked
    next => cases marked
  · rintro ⟨d, rfl, linked, rfl⟩
    change headerMark mem fsid d = _
    rw [headerMark, if_pos linked]

/-- A mark of a file comes from its header. -/
theorem itemMark_file {mem : Mem} {item : QueueData} {fsid : UInt16} {path : Option Path} :
    itemMark mem item = some (.file fsid path) ↔ ∃ d, item = objectItem fsid d ∧
      headerType mem d = some ObjType.regfileunique.code ∧
      readPath mem d ItemKey.path = path := by
  constructor
  · intro marked
    unfold itemMark at marked
    split at marked
    next fsid' d =>
      unfold headerMark at marked
      split at marked
      next => cases marked
      next =>
        split at marked
        next unique =>
          cases marked
          exact ⟨d, rfl, unique, rfl⟩
        next => cases marked
    next => cases marked
  · rintro ⟨d, rfl, unique, rfl⟩
    change headerMark mem fsid d = _
    have other : headerType mem d ≠ some ObjType.hardlink.code := by
      rw [unique]
      decide
    rw [headerMark, if_neg other, if_pos unique]

/-- Links have their targets before them when their marks do. -/
theorem linksHaveTargets_iff (mem : Mem) (items : List QueueData) :
    LinksHaveTargets mem items ↔ MarksMatch (items.filterMap (itemMark mem)) := by
  constructor
  · intro targets before fsid target after split
    obtain ⟨front, back, rfl, rfl, rest⟩ := List.filterMap_eq_append_iff.mp split
    obtain ⟨skipped, item, behind, rfl, none, marked, -⟩ := List.filterMap_eq_cons_iff.mp rest
    obtain ⟨d, rfl, linked, read⟩ := itemMark_link.mp marked
    obtain ⟨path, d', found, among, unique, own⟩ := targets (front ++ skipped) fsid d behind
      (by simp) linked
    refine ⟨path, read.symm.trans found, ?_⟩
    have mark : itemMark mem (objectItem fsid d') = some (.file fsid (some path)) :=
      itemMark_file.mpr ⟨d', rfl, unique, own⟩
    rcases List.mem_append.mp among with among | among
    · exact List.mem_filterMap.mpr ⟨_, among, mark⟩
    · rw [none _ among] at mark
      cases mark
  · intro matched before fsid d after split linked
    have mark : itemMark mem (objectItem fsid d) =
        some (.link fsid (readTarget d ItemKey.hardlink)) :=
      itemMark_link.mpr ⟨d, rfl, linked, rfl⟩
    obtain ⟨path, read, among⟩ := matched (before.filterMap (itemMark mem)) fsid
      (readTarget d ItemKey.hardlink) (after.filterMap (itemMark mem))
      (by rw [split, List.filterMap_append, List.filterMap_cons_some mark])
    obtain ⟨item, inside, marked⟩ := List.mem_filterMap.mp among
    obtain ⟨d', rfl, unique, own⟩ := itemMark_file.mp marked
    exact ⟨path, d', read, inside, unique, own⟩

/-! ## Marks of packets -/

/-- The mark of what an object adds to the queue. -/
def Produced.mark (mem : Mem) (fsid : UInt16) : Produced → Option LinkMark
  | .now (.single d) | .now (.file d _) | .now (.cut d _) => headerMark mem fsid d
  | _ => none

/-- What waits has the header of a small file, and packs are put on the queue only for those. -/
def Produced.Waits (mem : Mem) : Produced → Prop
  | .later entry => headerType mem entry.1 = some ObjType.regfilemulti.code
  | .now (.pack _) => False
  | _ => True

/-- Blocks have no marks. -/
theorem marks_blocks (mem : Mem) (blocks : List BlockInfo) :
    (blocks.map QueueData.block).filterMap (itemMark mem) = [] := by
  rw [List.filterMap_eq_nil_iff]
  intro item member
  obtain ⟨block, -, rfl⟩ := List.mem_map.mp member
  rfl

/-- Headers depend on what is found. -/
theorem headerType_congr {mem : Mem} {d d' : Dico}
    (same : d.find Section.stdattr ItemKey.objtype = d'.find Section.stdattr ItemKey.objtype) :
    headerType mem d = headerType mem d' := by
  unfold headerType dicoGetU32 dicoGetWord dicoGetData dicoGetGeneric
  rw [same]

/-- A pack of small files has no marks. -/
theorem marks_pack {mem : Mem} (md5 : Md5) (fsid : UInt16) {files : List PackEntry}
    (small : ∀ entry ∈ files, headerType mem entry.1 = some ObjType.regfilemulti.code) :
    ((Packet.pack files).items md5 fsid).filterMap (itemMark mem) = [] := by
  rw [List.filterMap_eq_nil_iff]
  intro item member
  rcases List.mem_append.mp member with member | member
  · obtain ⟨d, placed, rfl⟩ := List.mem_map.mp member
    obtain ⟨entry, among, offset, rfl⟩ := mem_packHeaders placed
    have same : SameButPlace (placedHeader (UInt32.ofNat files.length) offset entry.1) entry.1 :=
      .inr ⟨_, offset, rfl⟩
    have type : headerType mem (placedHeader (UInt32.ofNat files.length) offset entry.1) =
        some ObjType.regfilemulti.code := by
      rw [headerType_congr (same.find_eq (by decide) Section.stdattr), small entry among]
    change headerMark mem fsid _ = none
    unfold headerMark
    rw [type, if_neg (by decide), if_neg (by decide)]
  · rw [List.mem_singleton.mp member]
    rfl

/-- The marks behind a header. -/
theorem marks_object_cons (mem : Mem) (fsid : UInt16) (d : Dico) (rest : List QueueData) :
    (objectItem fsid d :: rest).filterMap (itemMark mem) =
      (headerMark mem fsid d).toList ++ rest.filterMap (itemMark mem) := by
  have own : itemMark mem (objectItem fsid d) = headerMark mem fsid d := rfl
  cases mark : headerMark mem fsid d with
  | none => rw [List.filterMap_cons_none (own.trans mark)]; rfl
  | some found => rw [List.filterMap_cons_some (own.trans mark)]; rfl

/-- What is put on the queue at once has one mark at most. -/
theorem marks_now {mem : Mem} (md5 : Md5) (fsid : UInt16) {packet : Packet}
    (waits : (Produced.now packet).Waits mem) :
    (packet.items md5 fsid).filterMap (itemMark mem) =
      ((Produced.now packet).mark mem fsid).toList := by
  cases packet with
  | single d => exact (marks_object_cons mem fsid d []).trans (List.append_nil _)
  | file d blocks =>
    have footer : (if blocks = [] then [] else
        [QueueData.header ⟨.filf, fsid, regfileFooter md5 (blocksData blocks)⟩]).filterMap
        (itemMark mem) = [] := by
      split
      · rfl
      · rfl
    simp only [Packet.items, List.cons_append]
    rw [marks_object_cons, List.filterMap_append, marks_blocks, footer, List.append_nil,
      List.append_nil]
    rfl
  | cut d blocks =>
    simp only [Packet.items]
    rw [marks_object_cons, marks_blocks, List.append_nil]
    rfl
  | pack files => exact absurd waits not_false

/-- The marks on the queue are those of the objects, whatever waits. -/
theorem marks_packetsFrom {mem : Mem} (md5 : Md5) (fsid : UInt16) (maxblksize : Nat)
    {files : List PackEntry} {made : List Produced}
    (small : ∀ entry ∈ files, headerType mem entry.1 = some ObjType.regfilemulti.code)
    (waits : ∀ produced ∈ made, produced.Waits mem) :
    (packetItems md5 fsid (packetsFrom maxblksize files made).1).filterMap (itemMark mem) =
        made.filterMap (Produced.mark mem fsid) ∧
      ∀ entry ∈ (packetsFrom maxblksize files made).2,
        headerType mem entry.1 = some ObjType.regfilemulti.code := by
  induction made generalizing files with
  | nil => exact ⟨rfl, small⟩
  | cons first rest ih =>
    have waits' : ∀ produced ∈ rest, produced.Waits mem := fun produced member =>
      waits produced (List.mem_cons_of_mem _ member)
    have own := waits first List.mem_cons_self
    cases first with
    | nothing => exact ih small waits'
    | now packet =>
      obtain ⟨marks, small'⟩ := ih small waits'
      refine ⟨?_, small'⟩
      have items : packetItems md5 fsid (packetsFrom maxblksize files (.now packet :: rest)).1 =
          packet.items md5 fsid ++ packetItems md5 fsid (packetsFrom maxblksize files rest).1 := rfl
      rw [items, List.filterMap_append, marks_now md5 fsid own, marks]
      cases mark : (Produced.now packet).mark mem fsid with
      | none => rw [List.filterMap_cons_none mark]; rfl
      | some found => rw [List.filterMap_cons_some mark]; rfl
    | later entry =>
      have mark : (Produced.later entry).mark mem fsid = none := rfl
      rw [List.filterMap_cons_none mark]
      by_cases room : files.length < maxSmallFileCount ∧
          (files.flatMap Prod.snd).length + entry.2.length ≤ maxblksize
      · have added : addProduced maxblksize files (.later entry) = ([], files ++ [entry]) := by
          simp only [addProduced, addEntry, room, and_self, ↓reduceIte]
        have small' : ∀ other ∈ files ++ [entry],
            headerType mem other.1 = some ObjType.regfilemulti.code := by
          intro other member
          rcases List.mem_append.mp member with member | member
          · exact small other member
          · rw [List.mem_singleton.mp member]
            exact own
        simp only [packetsFrom, added, List.nil_append]
        exact ih small' waits'
      · have added : addProduced maxblksize files (.later entry) = ([.pack files], [entry]) := by
          simp only [addProduced, addEntry, room, ↓reduceIte]
        have small' : ∀ other ∈ [entry],
            headerType mem other.1 = some ObjType.regfilemulti.code := by
          intro other member
          rw [List.mem_singleton.mp member]
          exact own
        obtain ⟨marks, rest'⟩ := ih small' waits'
        simp only [packetsFrom, added, packetItems_append, List.filterMap_append]
        refine ⟨?_, rest'⟩
        rw [marks]
        have pack : (packetItems md5 fsid [.pack files]).filterMap (itemMark mem) = [] := by
          rw [packetItems, List.flatMap_singleton]
          exact marks_pack md5 fsid small
        rw [pack, List.nil_append]

/-- All marks of a walk. -/
theorem marks_allPackets {mem : Mem} (md5 : Md5) (fsid : UInt16) (maxblksize : Nat)
    {made : List Produced} (waits : ∀ produced ∈ made, produced.Waits mem) :
    (packetItems md5 fsid (allPackets maxblksize made)).filterMap (itemMark mem) =
      made.filterMap (Produced.mark mem fsid) := by
  obtain ⟨marks, small⟩ := marks_packetsFrom md5 fsid maxblksize (List.forall_mem_nil _) waits
  unfold allPackets
  rw [packetItems_append, List.filterMap_append, marks]
  have last : (packetItems md5 fsid (if (packetsFrom maxblksize [] made).2 = [] then []
      else [.pack (packetsFrom maxblksize [] made).2])).filterMap (itemMark mem) = [] := by
    split
    · rfl
    · rw [packetItems, List.flatMap_singleton]
      exact marks_pack md5 fsid small
  rw [last, List.append_nil]

/-! ## Marks of calls -/

/-- The mark of a call. -/
def SaveCall.mark (opts : SaveOptions) (fsid : UInt16) (call : SaveCall) : Option LinkMark :=
  if call.calls.isCurvol || !attrsOk call.save.fstype call.relpath call.st call.calls then none
  else
    match objectType opts call.save call.st with
    | .hardlink => some (.link fsid (linkTarget call.save call.st))
    | .regfileunique =>
      if call.calls.openFile.isSome then some (.file fsid (some call.relpath)) else none
    | _ => none

section Calls

variable {mem : Mem} {md5 : Md5} {opts : SaveOptions}

/-- The header of an object has its type. -/
theorem headerType_objectDico {save : Savear} {relpath : Path} {st : Stat} {calls : ObjectCalls}
    (attrs : attrsOk save.fstype relpath st calls = true) :
    headerType mem (objectDico opts save relpath st calls) =
      some (objectType opts save st).code := by
  have ok : stdattrOk st calls = true := by
    simp only [attrsOk, Bool.and_eq_true] at attrs
    exact attrs.1.1
  exact dicoGetU32_of_find (find_objectDico_objtype opts save relpath st calls ok)
    (show sizedData (leBytes 4 (objectType opts save st).code.toNat) = _ from
      sizedData_of_lt (by simp))

/-- The mark of a header by the type of its object. -/
theorem headerMark_objectDico {call : SaveCall} (fsid : UInt16)
    (attrs : attrsOk call.save.fstype call.relpath call.st call.calls = true)
    (fit : call.relpath.length < pathMax ∧ 0 ∉ call.relpath)
    (fitTarget : ∀ target, linkTarget call.save call.st = some target →
      target.length < pathMax ∧ 0 ∉ target) :
    headerMark mem fsid (objectDico opts call.save call.relpath call.st call.calls) =
      match objectType opts call.save call.st with
      | .hardlink => some (.link fsid (linkTarget call.save call.st))
      | .regfileunique => some (.file fsid (some call.relpath))
      | _ => none := by
  unfold headerMark
  rw [headerType_objectDico attrs]
  cases type : objectType opts call.save call.st with
  | hardlink =>
    obtain ⟨isReg, seen⟩ := objectType_hardlink.mp type
    obtain ⟨target, seen⟩ := Option.isSome_iff_exists.mp seen
    obtain ⟨short, clean⟩ := fitTarget target seen
    have stored := find_stdattrDico_hardlink opts call.save call.relpath call.st call.calls isReg seen
    rw [← find_objectDico] at stored
    rw [if_pos rfl, readTarget_of_find stored short clean, seen]
  | regfileunique =>
    have stored := find_objectDico_std opts call.save call.relpath call.st call.calls
      (dicoAddString Section.stdattr ItemKey.path call.relpath) (by simp [stdattrCalls])
    have own : readPath mem (objectDico opts call.save call.relpath call.st call.calls)
        ItemKey.path = some call.relpath := readPath_of_find stored fit.1 fit.2
    rw [if_neg (by decide), if_pos rfl, own]
  | null | dir | symlink | chardev | blockdev | fifo | socket | regfilemulti =>
    rw [if_neg (by decide), if_neg (by decide)]

/-- What a call adds to the queue has the mark of the call. -/
theorem mark_produced {call : SaveCall} (fsid : UInt16)
    (fit : call.relpath.length < pathMax ∧ 0 ∉ call.relpath)
    (fitTarget : ∀ target, linkTarget call.save call.st = some target →
      target.length < pathMax ∧ 0 ∉ target) :
    (produced md5 opts call.save call.relpath call.st call.calls).1.mark mem fsid =
      call.mark opts fsid := by
  unfold produced SaveCall.mark
  cases curvol : call.calls.isCurvol with
  | true => rfl
  | false =>
    cases attrs : attrsOk call.save.fstype call.relpath call.st call.calls with
    | false => simp [Produced.mark]
    | true =>
      have header := @headerMark_objectDico mem opts _ fsid attrs fit fitTarget
      cases type : objectType opts call.save call.st with
      | null => simp [Produced.mark]
      | regfileunique =>
        rw [type] at header
        simp only [producedContents]
        cases opened : call.calls.openFile with
        | none => simp [Produced.mark]
        | some file =>
          simp only [Bool.false_eq_true, reduceCtorEq, or_self, ↓reduceIte, Bool.not_true,
            Option.isSome_some]
          split
          · exact header
          · exact header
      | regfilemulti =>
        simp only [producedContents]
        cases opened : call.calls.openFile with
        | none => simp [Produced.mark]
        | some file => cases found : readFile file 0 call.st.size.toNat <;> simp [Produced.mark, found]
      | hardlink | dir | symlink | chardev | blockdev | fifo | socket =>
        rw [type] at header
        cases opened : call.calls.openFile <;>
          simpa [producedContents, opened, Produced.mark] using header

/-- What a call adds waits if it is a small file. -/
theorem waits_produced (save : Savear) (relpath : Path) (st : Stat) (calls : ObjectCalls) :
    (produced md5 opts save relpath st calls).1.Waits mem := by
  unfold produced
  split
  next => trivial
  next saved =>
    simp only [not_or, Bool.not_eq_false] at saved
    cases type : objectType opts save st with
    | regfileunique =>
      simp only [producedContents]
      cases opened : calls.openFile with
      | none => trivial
      | some file =>
        dsimp only
        split <;> trivial
    | regfilemulti =>
      simp only [producedContents]
      cases opened : calls.openFile with
      | none => trivial
      | some file =>
        dsimp only
        cases readFile file 0 st.size.toNat with
        | none => trivial
        | some read =>
          have header := @headerType_objectDico mem opts _ _ _ _ saved.2.2
          rw [type] at header
          refine Eq.trans (headerType_congr ?_) header
          exact find_dicoAddAll_other (by simp [dicoAddData, ItemKey.md5sum, ItemKey.objtype])
    | null | hardlink | dir | symlink | chardev | blockdev | fifo | socket =>
      cases opened : calls.openFile <;> trivial

/-- What the visits of a walk produce is what its calls do. -/
theorem visitsProduced_eq (visits : List Visit) (save : Savear) :
    visitsProduced mem md5 opts visits save = (savedCalls mem md5 opts false visits save).map
      fun call => produced md5 opts call.save call.relpath call.st call.calls := by
  induction visits generalizing save with
  | nil => rfl
  | cons visit rest ih =>
    cases visit with
    | stop => rfl
    | object relpath st calls =>
      simp only [visitsProduced, savedCalls, List.map_cons]
      cases createarSaveFile mem md5 opts save relpath st calls false with
      | mk ok save' =>
        cases ok with
        | false => rfl
        | true => exact congrArg _ (ih save')

/-- The filesystem stays the same during a walk. -/
theorem fstype_savedCalls (sizes : opts.FromCmdline) {visits : List Visit} {save : Savear}
    {files : List PackEntry} (pends : Pends opts save files) {call : SaveCall}
    (member : call ∈ savedCalls mem md5 opts false visits save) :
    call.save.fstype = save.fstype := by
  induction visits generalizing save files with
  | nil => cases member
  | cons visit rest ih =>
    cases visit with
    | stop => cases member
    | object relpath st calls =>
      have adds := (@createarSaveFile_adds mem md5 opts save files pends sizes relpath st calls).2
      unfold savedCalls at member
      rcases List.mem_cons.mp member with rfl | member
      · rfl
      · cases ran : createarSaveFile mem md5 opts save relpath st calls false with
        | mk ok save' =>
          rw [ran] at member adds
          cases ok with
          | false => cases member
          | true => exact (ih adds.pends member).trans adds.fstype

end Calls

/-! ## Links and their targets -/

/-- Whenever a link can be saved, so could the first link of its file. -/
def FirstLinksSaved (fstype : Filesys) (objects : List SavedObject) : Prop :=
  ∀ before object after, objects = before ++ object :: after → object.several = true →
    attrsOk fstype object.relpath object.st object.calls = true →
    ∀ first, firstWith SavedObject.key (before.filter SavedObject.several) object.key = some first →
      attrsOk fstype first.relpath first.st first.calls = true ∧
        first.calls.openFile.isSome = true

section Targets

variable {mem : Mem} {md5 : Md5} {opts : SaveOptions} {visits : List Visit} {save : Savear}

/-- A call with several links is one for a hard link if the table has its file. -/
theorem SaveCall.mark_link {call : SaveCall} {fsid fsid' : UInt16} {target : Option Path}
    (marked : call.mark opts fsid = some (.link fsid' target)) :
    fsid' = fsid ∧ call.several = true ∧ attrsOk call.save.fstype call.relpath call.st call.calls = true ∧
      target = linkTarget call.save call.st ∧ target.isSome := by
  unfold SaveCall.mark at marked
  split at marked
  · cases marked
  next kept =>
    simp only [Bool.or_eq_true, Bool.not_eq_true', not_or, Bool.not_eq_true, Bool.not_eq_false]
      at kept
    split at marked
    next type =>
      cases marked
      obtain ⟨isReg, seen⟩ := objectType_hardlink.mp type
      refine ⟨rfl, SavedObject.several_iff.mpr ⟨kept.1, isReg, ?_⟩, kept.2, rfl, seen⟩
      by_contra single
      rw [linkTarget, if_neg single] at seen
      cases seen
    next =>
      split at marked <;> cases marked
    next => cases marked

/-- The mark of a further link of a file. -/
theorem SaveCall.mark_further {call : SaveCall} (fsid : UInt16) (several : call.several = true)
    (attrs : attrsOk call.save.fstype call.relpath call.st call.calls = true) {target : Path}
    (seen : linkTarget call.save call.st = some target) :
    call.mark opts fsid = some (.link fsid (some target)) := by
  obtain ⟨notCurvol, isReg, -⟩ := SavedObject.several_iff.mp several
  have type : objectType opts call.save call.st = .hardlink :=
    objectType_hardlink.mpr ⟨isReg, by rw [seen]; rfl⟩
  unfold SaveCall.mark
  rw [type, notCurvol, attrs, seen]
  rfl

/-- The mark of the first link of a file. -/
theorem SaveCall.mark_first {call : SaveCall} (fsid : UInt16) (several : call.several = true)
    (first : linkTarget call.save call.st = none) :
    call.mark opts fsid = some (.file fsid (some call.relpath)) ↔
      attrsOk call.save.fstype call.relpath call.st call.calls = true ∧
        call.calls.openFile.isSome = true := by
  obtain ⟨notCurvol, isReg, more⟩ := SavedObject.several_iff.mp several
  have type : objectType opts call.save call.st = .regfileunique := by
    have alone : ¬call.st.nlink = 1 := by
      intro one
      rw [one] at more
      exact absurd more (by decide)
    simp [objectType, isReg, first, regfileType, alone]
  unfold SaveCall.mark
  rw [type, notCurvol]
  cases attrsOk call.save.fstype call.relpath call.st call.calls <;>
    cases call.calls.openFile <;> simp

/-- A mark of a file is that of a call for its path. -/
theorem SaveCall.mark_file {call : SaveCall} {fsid : UInt16} {path : Path}
    (marked : call.mark opts fsid = some (.file fsid (some path))) : call.relpath = path ∧
      attrsOk call.save.fstype call.relpath call.st call.calls = true ∧
        call.calls.openFile.isSome = true := by
  unfold SaveCall.mark at marked
  split at marked
  · cases marked
  next kept =>
    simp only [Bool.or_eq_true, Bool.not_eq_true', not_or, Bool.not_eq_true, Bool.not_eq_false]
      at kept
    split at marked
    next => cases marked
    next =>
      split at marked
      next opened =>
        cases marked
        exact ⟨rfl, kept.2, opened⟩
      next => cases marked
    next => cases marked

/-- The marks of a walk match when its first links are saved. -/
theorem marksMatch_iff (sizes : opts.FromCmdline) {files : List PackEntry}
    (pends : Pends opts save files) (empty : save.dichardlinks = [])
    (fit : PathsFit (visitedPaths visits)) (once : (visitedPaths visits).Nodup) (fsid : UInt16) :
    MarksMatch ((savedCalls mem md5 opts false visits save).filterMap (SaveCall.mark opts fsid)) ↔
      FirstLinksSaved save.fstype (savedObjects false visits) := by
  have objects := @savedCalls_objects mem md5 opts false visits save
  have distinct : ((savedCalls mem md5 opts false visits save).map
      (SavedObject.relpath ∘ SaveCall.toSavedObject)).Nodup := by
    rw [← List.map_map, objects]
    exact once.sublist (savedObjects_paths false visits)
  have fstype : ∀ call ∈ savedCalls mem md5 opts false visits save,
      call.save.fstype = save.fstype := fun call member => fstype_savedCalls sizes pends member
  constructor
  · intro matched before object after split several attrs first found
    rw [← objects] at split
    obtain ⟨calls, rest, splitCalls, rfl, tail⟩ := List.map_eq_append_iff.mp split
    obtain ⟨call, later, rfl, rfl, -⟩ := List.map_eq_cons_iff.mp tail
    obtain ⟨-, -, more⟩ := SavedObject.several_iff.mp several
    have table := linkTarget_savedCalls empty fit splitCalls
    rw [if_pos more, found, Option.map_some] at table
    have inCalls : call ∈ savedCalls mem md5 opts false visits save := by
      rw [splitCalls]
      exact List.mem_append_right _ List.mem_cons_self
    have mark := @SaveCall.mark_further opts call fsid several
      (by rw [fstype call inCalls]; exact attrs) _ table
    obtain ⟨path, same, among⟩ := matched (calls.filterMap (SaveCall.mark opts fsid)) fsid
      (some first.relpath) (later.filterMap (SaveCall.mark opts fsid))
      (by rw [splitCalls, List.filterMap_append, List.filterMap_cons_some mark])
    cases same
    obtain ⟨call', before', marked⟩ := List.mem_filterMap.mp among
    obtain ⟨own, attrs', opened⟩ := SaveCall.mark_file marked
    obtain ⟨call'', before'', same⟩ :=
      List.mem_map.mp (List.mem_filter.mp (firstWith_some found).1).1
    have one : call' = call'' := by
      refine List.inj_on_of_nodup_map distinct ?_ ?_ (own.trans (congrArg _ same).symm)
      · rw [splitCalls]
        exact List.mem_append_left _ before'
      · rw [splitCalls]
        exact List.mem_append_left _ before''
    subst one
    rw [fstype call' (by rw [splitCalls]; exact List.mem_append_left _ before')] at attrs'
    rw [← same]
    exact ⟨attrs', opened⟩
  · intro saved before fsid' target after split
    obtain ⟨front, back, splitCalls, rfl, rest⟩ := List.filterMap_eq_append_iff.mp split
    obtain ⟨skipped, call, behind, rfl, unmarked, marked, -⟩ := List.filterMap_eq_cons_iff.mp rest
    rw [← List.append_assoc] at splitCalls
    obtain ⟨rfl, several, attrs, rfl, seen⟩ := SaveCall.mark_link marked
    obtain ⟨-, -, more⟩ := SavedObject.several_iff.mp several
    have inCalls : call ∈ savedCalls mem md5 opts false visits save := by
      rw [splitCalls]
      exact List.mem_append_right _ List.mem_cons_self
    have table := linkTarget_savedCalls empty fit splitCalls
    rw [if_pos more] at table
    rw [table, Option.isSome_map] at seen
    obtain ⟨first, found⟩ := Option.isSome_iff_exists.mp seen
    rw [fstype call inCalls] at attrs
    obtain ⟨attrs', opened⟩ := saved _ _ _ (savedObjects_split splitCalls) several attrs first found
    obtain ⟨among, severalFirst⟩ := List.mem_filter.mp (firstWith_some found).1
    obtain ⟨call', before', rfl⟩ := List.mem_map.mp among
    -- nothing of this file comes before its first link
    have firstLink : linkTarget call'.save call'.st = none := by
      obtain ⟨earlier, later, split'⟩ := List.append_of_mem before'
      have whole : savedCalls mem md5 opts false visits save =
          earlier ++ call' :: (later ++ call :: behind) := by
        rw [splitCalls, split']
        simp
      have table' := linkTarget_savedCalls empty fit whole
      rw [if_pos (SavedObject.several_iff.mp severalFirst).2.2] at table'
      rw [table', Option.map_eq_none_iff]
      cases found' : firstWith SavedObject.key
          ((earlier.map SaveCall.toSavedObject).filter SavedObject.several) call'.key with
      | none => rfl
      | some first' =>
        have again := firstWith_append found'
          (((call' :: later).map SaveCall.toSavedObject).filter SavedObject.several)
        rw [← List.filter_append, ← List.map_append, ← split', (firstWith_some found).2, found]
          at again
        cases again
        obtain ⟨call'', member, same⟩ :=
          List.mem_map.mp (List.mem_filter.mp (firstWith_some found').1).1
        rw [whole, List.map_append, List.nodup_append] at distinct
        exact absurd (congrArg SavedObject.relpath same) (distinct.2.2 _
          (List.mem_map_of_mem member) _ (List.mem_map_of_mem List.mem_cons_self))
    have inCalls' : call' ∈ savedCalls mem md5 opts false visits save := by
      rw [splitCalls]
      exact List.mem_append_left _ before'
    rw [← fstype call' inCalls'] at attrs'
    have mark := (@SaveCall.mark_first opts call' fsid' severalFirst firstLink).mpr ⟨attrs', opened⟩
    refine ⟨call'.relpath, by rw [table, found]; rfl, ?_⟩
    rcases List.mem_append.mp before' with member | member
    · exact List.mem_filterMap.mpr ⟨call', member, mark⟩
    · rw [unmarked call' member] at mark
      cases mark

/-- The links that visits put on the queue have their targets when first links are saved. -/
theorem linksHaveTargets_allPackets (sizes : opts.FromCmdline) {files : List PackEntry}
    (pends : Pends opts save files) (empty : save.dichardlinks = [])
    (fit : PathsFit (visitedPaths visits)) (once : (visitedPaths visits).Nodup) (fsid : UInt16) :
    LinksHaveTargets mem (packetItems md5 fsid (allPackets (min opts.datablocksize maxBlkSize)
        ((visitsProduced mem md5 opts visits save).map Prod.fst))) ↔
      FirstLinksSaved save.fstype (savedObjects false visits) := by
  have waits : ∀ made ∈ (visitsProduced mem md5 opts visits save).map Prod.fst, made.Waits mem := by
    rw [visitsProduced_eq, List.map_map]
    intro made member
    obtain ⟨call, -, rfl⟩ := List.mem_map.mp member
    exact waits_produced _ _ _ _
  have marks : ((visitsProduced mem md5 opts visits save).map Prod.fst).filterMap
      (Produced.mark mem fsid) =
      (savedCalls mem md5 opts false visits save).filterMap (SaveCall.mark opts fsid) := by
    rw [visitsProduced_eq, List.map_map, List.filterMap_map]
    refine List.filterMap_congr fun call member => ?_
    obtain ⟨before, after, split⟩ := List.append_of_mem member
    have inObjects : call.toSavedObject ∈ savedObjects false visits := by
      rw [savedObjects_split split]
      exact List.mem_append_right _ List.mem_cons_self
    have paths := (savedObjects_paths false visits).subset
    exact mark_produced fsid (fit _ (paths (List.mem_map_of_mem inObjects)))
      fun target seen => linkTarget_fits empty fit split seen
  rw [linksHaveTargets_iff, marks_allPackets md5 fsid _ waits, marks]
  exact marksMatch_iff sizes pends empty fit once fsid

/-- In every walk the hard links on the queue have their targets before them if and only if no
link that could be saved follows a first link of its file that could not: one whose attributes or
whose `open64` failed. -/
theorem links_have_targets_iff (mem : Mem) (md5 : Md5) (opts : SaveOptions)
    (sizes : opts.FromCmdline) (save : Savear) (path : Path) (dir : DirCalls) (entries : DirStream)
    (wellNamed : entries.WellNamed)
    (fit : PathsFit (visitedPaths (treeVisits opts path dir entries))) :
    ∃ new, (createarSaveDirectoryWrapper mem md5 opts false save path dir entries).2.pushed =
        save.pushed ++ new ∧
      (LinksHaveTargets mem new ↔
        FirstLinksSaved save.fstype (savedObjects false (treeVisits opts path dir entries))) := by
  obtain ⟨-, pushed⟩ := @createarSaveDirectoryWrapper_packets mem md5 _ sizes save path dir entries
  refine ⟨_, pushed, ?_⟩
  exact linksHaveTargets_allPackets sizes (pends_walkStart opts save) rfl fit
    (treeVisits_nodup wellNamed) save.fsid

end Targets

/-- Two links to a file that can be opened: the target of the second one is on the queue. -/
theorem links_have_targets_iff_two_links :
    ∃ new, (createarSaveDirectoryWrapper plainMem plainMd5 plainOptions false plainSavear [slash]
        plainDirCalls (twoLinked 1 1 true)).2.pushed = plainSavear.pushed ++ new ∧
      LinksHaveTargets plainMem new := by
  obtain ⟨new, pushed, targets⟩ := links_have_targets_iff plainMem plainMd5 plainOptions
    plainOptions_fromCmdline plainSavear [slash] plainDirCalls (twoLinked 1 1 true)
    (wellNamed_twoLinked 1 1 true) (pathsFit_twoLinked 1 1 true)
  refine ⟨new, pushed, targets.mpr fun before object after split _ _ first found => ?_⟩
  -- the first link is one of the two, and both can be saved
  have saved : ∀ link ∈ (savedObjects false (treeVisits plainOptions [slash] plainDirCalls
      (twoLinked 1 1 true))).filter SavedObject.several,
      attrsOk plainSavear.fstype link.relpath link.st link.calls = true ∧
        link.calls.openFile.isSome = true := by
    rw [several_twoLinked]
    exact List.forall_mem_cons.mpr ⟨by decide, List.forall_mem_singleton.mpr (by decide)⟩
  apply saved
  rw [split, List.filter_append]
  exact List.mem_append_left _ (firstWith_some found).1

/-- Two links to a file, of which the first cannot be opened: the second one is on the queue
without its target. -/
theorem link_without_target :
    ¬LinksHaveTargets plainMem (createarSaveDirectoryWrapper plainMem plainMd5 plainOptions false
      plainSavear [slash] plainDirCalls (twoLinked 1 1 false)).2.pushed := by
  have objects : savedObjects false (treeVisits plainOptions [slash] plainDirCalls
      (twoLinked 1 1 false)) = [⟨[slash], plainDirStat, plainCalls⟩,
        ⟨[slash, 0x61], linkedStat 1, emptyFileCalls false⟩,
        ⟨[slash, 0x62], linkedStat 1, emptyFileCalls true⟩] := by
    rw [treeVisits_twoLinked]
    rfl
  obtain ⟨-, pushed⟩ := @createarSaveDirectoryWrapper_packets plainMem plainMd5 plainOptions
    plainOptions_fromCmdline plainSavear [slash] plainDirCalls (twoLinked 1 1 false)
  rw [pushed, show plainSavear.pushed = [] from rfl, List.nil_append,
    linksHaveTargets_allPackets plainOptions_fromCmdline (pends_walkStart plainOptions plainSavear)
      rfl (pathsFit_twoLinked 1 1 false) (treeVisits_nodup (wellNamed_twoLinked 1 1 false)), objects]
  intro saved
  have first := saved [⟨[slash], plainDirStat, plainCalls⟩,
    ⟨[slash, 0x61], linkedStat 1, emptyFileCalls false⟩]
    ⟨[slash, 0x62], linkedStat 1, emptyFileCalls true⟩ [] rfl rfl rfl
    ⟨[slash, 0x61], linkedStat 1, emptyFileCalls false⟩ rfl
  exact absurd first.2 (by decide)

end FsArchiver
