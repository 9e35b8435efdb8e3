import FsArchiver.SaveErrors

/-!
# Objects on the queue

What a walk has put on the queue says of an object: its header is there, its data stand behind
that header or in the block of a pack, or it is a hard link to a path. An object that counts as
saved is there in one of these ways, and a header with its path is the one of its call.
-/
namespace FsArchiver

open Lib

/-! ## Reading the queue -/

/-- The blocks behind the header of a file. -/
def HoldsFile (mem : Mem) (items : List QueueData) (relpath : Path) (data : List UInt8) : Prop :=
  ∃ (fsid : UInt16) (d : Dico) (blocks : List BlockInfo) (before after : List QueueData),
    items = before ++ objectItem fsid d :: blocks.map .block ++ after ∧
      readPath mem d ItemKey.path = some relpath ∧
      headerType mem d = some ObjType.regfileunique.code ∧ blocksData blocks = data

/-- The place of a small file in the block behind the headers of a pack. -/
def HoldsPacked (mem : Mem) (items : List QueueData) (relpath : Path) (data : List UInt8) : Prop :=
  ∃ (fsid : UInt16) (d : Dico) (offset : UInt32) (heads : List Dico) (block : BlockInfo)
    (before after : List QueueData),
    items = before ++ heads.map (objectItem fsid) ++ .block block :: after ∧ d ∈ heads ∧
      readPath mem d ItemKey.path = some relpath ∧
      headerType mem d = some ObjType.regfilemulti.code ∧
      dicoGetU32 mem d Section.stdattr ItemKey.multifilesoffset = some offset ∧
      (block.blkdata.drop offset.toNat).take data.length = data

/-- The data of a file are on the queue. -/
def SavedObject.DataQueued (mem : Mem) (items : List QueueData) (object : SavedObject) : Prop :=
  ∃ data, object.HasData data ∧
    (HoldsFile mem items object.relpath data ∨ HoldsPacked mem items object.relpath data)

/-- A hard link is on the queue. -/
def LinkQueued (mem : Mem) (items : List QueueData) (relpath target : Path) : Prop :=
  ∃ fsid d, objectItem fsid d ∈ items ∧ readPath mem d ItemKey.path = some relpath ∧
    headerType mem d = some ObjType.hardlink.code ∧
    readTarget d ItemKey.hardlink = some target

/-! ## Packets of a list of productions -/

/-- What is put on the queue at once is there. -/
theorem now_mem_packetsFrom {maxblksize : Nat} {files : List PackEntry} {made : List Produced}
    {packet : Packet} (member : .now packet ∈ made) :
    packet ∈ (packetsFrom maxblksize files made).1 := by
  induction made generalizing files with
  | nil => cases member
  | cons first rest ih =>
    simp only [packetsFrom, List.mem_append]
    rcases List.mem_cons.mp member with rfl | later
    · exact .inl (List.mem_singleton_self packet)
    · exact .inr (ih later)

/-- A small file is in a pack, or waits for one. -/
def InPack (added : List Packet × List PackEntry) (entry : PackEntry) : Prop :=
  (∃ pack, Packet.pack pack ∈ added.1 ∧ entry ∈ pack) ∨ entry ∈ added.2

/-- Who waits gets into a pack, or still waits. -/
theorem inPack_addProduced {maxblksize : Nat} {files : List PackEntry} (made : Produced)
    {entry : PackEntry} (member : entry ∈ files) :
    InPack (addProduced maxblksize files made) entry := by
  cases made with
  | nothing => exact .inr member
  | now packet => exact .inr member
  | later other =>
    simp only [addProduced, addEntry]
    split
    · exact .inr (List.mem_append_left _ member)
    · exact .inl ⟨files, List.mem_singleton_self _, member⟩

/-- A small file that is added waits. -/
theorem mem_addProduced {maxblksize : Nat} {files : List PackEntry} (entry : PackEntry) :
    entry ∈ (addProduced maxblksize files (.later entry)).2 := by
  simp only [addProduced, addEntry]
  split
  · exact List.mem_append_right _ (List.mem_singleton_self entry)
  · exact List.mem_singleton_self entry

/-- What follows changes nothing of it. -/
theorem inPack_packetsFrom {maxblksize : Nat} {files : List PackEntry} (made : List Produced)
    {entry : PackEntry} (member : entry ∈ files) :
    InPack (packetsFrom maxblksize files made) entry := by
  induction made generalizing files with
  | nil => exact .inr member
  | cons first rest ih =>
    simp only [packetsFrom]
    rcases inPack_addProduced first member with ⟨pack, among, own⟩ | waits
    · exact .inl ⟨pack, List.mem_append_left _ among, own⟩
    · rcases ih waits with ⟨pack, among, own⟩ | still
      · exact .inl ⟨pack, List.mem_append_right _ among, own⟩
      · exact .inr still

/-- A small file gets into a pack, or waits at the end. -/
theorem later_packetsFrom {maxblksize : Nat} {files : List PackEntry} {made : List Produced}
    {entry : PackEntry} (member : .later entry ∈ made) :
    InPack (packetsFrom maxblksize files made) entry := by
  induction made generalizing files with
  | nil => cases member
  | cons first rest ih =>
    have onward : InPack (packetsFrom maxblksize (addProduced maxblksize files first).2 rest) entry := by
      rcases List.mem_cons.mp member with rfl | later
      · exact inPack_packetsFrom rest (mem_addProduced entry)
      · exact ih later
    simp only [packetsFrom]
    rcases onward with ⟨pack, among, own⟩ | still
    · exact .inl ⟨pack, List.mem_append_right _ among, own⟩
    · exact .inr still

/-- What is put on the queue at once is among all packets. -/
theorem now_mem_allPackets {maxblksize : Nat} {made : List Produced} {packet : Packet}
    (member : .now packet ∈ made) : packet ∈ allPackets maxblksize made :=
  List.mem_append_left _ (now_mem_packetsFrom member)

/-- A small file is in one of the packs. -/
theorem later_mem_allPackets {maxblksize : Nat} {made : List Produced} {entry : PackEntry}
    (member : .later entry ∈ made) : ∃ pack, .pack pack ∈ allPackets maxblksize made ∧ entry ∈ pack := by
  unfold allPackets
  rcases @later_packetsFrom maxblksize [] _ _ member with ⟨pack, among, own⟩ | waits
  · exact ⟨pack, List.mem_append_left _ among, own⟩
  · have some : (packetsFrom maxblksize [] made).2 ≠ [] := List.ne_nil_of_mem waits
    refine ⟨_, List.mem_append_right _ ?_, waits⟩
    rw [if_neg some]
    exact List.mem_singleton_self _

/-- A pack is not larger than a block. -/
def PacksFit (maxblksize : Nat) (added : List Packet × List PackEntry) : Prop :=
  (∀ pack, Packet.pack pack ∈ added.1 → (pack.flatMap Prod.snd).length ≤ maxblksize) ∧
    (added.2.flatMap Prod.snd).length ≤ maxblksize

/-- What is produced fits into a block if it waits, and is no pack. -/
def Produced.Fits (maxblksize : Nat) : Produced → Prop
  | .nothing => True
  | .now packet => ∀ pack, packet ≠ .pack pack
  | .later entry => entry.2.length ≤ maxblksize

/-- Packs are full before they get too large. -/
theorem packsFit_packetsFrom {maxblksize : Nat} {files : List PackEntry} {made : List Produced}
    (fits : ∀ produced ∈ made, produced.Fits maxblksize)
    (room : (files.flatMap Prod.snd).length ≤ maxblksize) :
    PacksFit maxblksize (packetsFrom maxblksize files made) := by
  induction made generalizing files with
  | nil => exact ⟨fun pack member => (List.not_mem_nil member).elim, room⟩
  | cons first rest ih =>
    obtain ⟨here, others⟩ := List.forall_mem_cons.mp fits
    have added : PacksFit maxblksize (addProduced maxblksize files first) := by
      cases first with
      | nothing => exact ⟨fun pack member => (List.not_mem_nil member).elim, room⟩
      | now packet =>
        exact ⟨fun pack member => absurd (List.mem_singleton.mp member).symm (here pack), room⟩
      | later entry =>
        have small : entry.2.length ≤ maxblksize := here
        simp only [addProduced, addEntry]
        split
        next enough =>
          refine ⟨fun pack member => (List.not_mem_nil member).elim, ?_⟩
          simpa using enough.2
        next =>
          refine ⟨fun pack member => ?_, by simpa using small⟩
          cases List.mem_singleton.mp member
          exact room
    obtain ⟨packs, waits⟩ := ih others added.2
    refine ⟨fun pack member => ?_, waits⟩
    rcases List.mem_append.mp member with member | member
    · exact added.1 pack member
    · exact packs pack member

/-- So are all packs. -/
theorem packsFit_allPackets {maxblksize : Nat} {made : List Produced}
    (fits : ∀ produced ∈ made, produced.Fits maxblksize) {pack : List PackEntry}
    (member : .pack pack ∈ allPackets maxblksize made) :
    (pack.flatMap Prod.snd).length ≤ maxblksize := by
  obtain ⟨packs, waits⟩ := @packsFit_packetsFrom maxblksize [] made fits (Nat.zero_le maxblksize)
  rcases List.mem_append.mp member with member | member
  · exact packs pack member
  · split at member
    · cases member
    · cases List.mem_singleton.mp member
      exact waits

/-- The items of a packet stand together. -/
theorem packetItems_around {md5 : Md5} {fsid : UInt16} {packets : List Packet} {packet : Packet}
    (member : packet ∈ packets) : ∃ before after,
      packetItems md5 fsid packets = before ++ packet.items md5 fsid ++ after := by
  obtain ⟨front, back, rfl⟩ := List.append_of_mem member
  refine ⟨packetItems md5 fsid front, packetItems md5 fsid back, ?_⟩
  unfold packetItems
  rw [List.flatMap_append, List.flatMap_cons, List.append_assoc]

/-! ## The headers of a walk -/

/-- What the calls of a walk produce. -/
def walkProduced (mem : Mem) (md5 : Md5) (opts : SaveOptions) (visits : List Visit)
    (save : Savear) : List Produced :=
  (savedCalls mem md5 opts false visits (walkStart opts save)).map fun call =>
    (call.produced md5 opts).1

/-- The items that visits put on the queue. -/
def walkItems (mem : Mem) (md5 : Md5) (opts : SaveOptions) (visits : List Visit) (save : Savear) :
    List QueueData :=
  packetItems md5 save.fsid (allPackets (min opts.datablocksize maxBlkSize)
    (walkProduced mem md5 opts visits save))

section Walk

variable {mem : Mem} {md5 : Md5} {opts : SaveOptions} {visits : List Visit} {save : Savear}

/-- A call produces nothing, or what the contents of its object add. -/
theorem SaveCall.produced_cases (md5 : Md5) (opts : SaveOptions) (call : SaveCall) :
    call.produced md5 opts = (.nothing, false) ∨
      (objectType opts call.save call.st ≠ .null ∧
        attrsOk call.save.fstype call.relpath call.st call.calls = true ∧
        call.produced md5 opts = producedContents md5 opts call.save.fsid
          (objectType opts call.save call.st)
          (objectDico opts call.save call.relpath call.st call.calls) call.st call.calls) := by
  by_cases left : call.calls.isCurvol = true ∨ objectType opts call.save call.st = .null ∨
      attrsOk call.save.fstype call.relpath call.st call.calls = false
  · exact .inl (if_pos left)
  · refine .inr ⟨fun unknown => left (.inr (.inl unknown)), ?_, if_neg left⟩
    simpa using fun attrs => left (.inr (.inr attrs))

/-- What a header says of the object of a call. -/
structure SaveCall.Heads (mem : Mem) (opts : SaveOptions) (call : SaveCall) (d : Dico) : Prop where
  path : readPath mem d ItemKey.path = some call.relpath
  known : call.st.fileType ≠ .other
  type : headerType mem d = some (objectType opts call.save call.st).code
  /-- The target of a hard link. -/
  target : objectType opts call.save call.st = .hardlink →
    readTarget d ItemKey.hardlink = linkTarget call.save call.st

/-- The header of a call, wherever it gets its place. -/
theorem SaveCall.heads {call : SaveCall} {d d' : Dico}
    (fits : call.relpath.length < pathMax ∧ 0 ∉ call.relpath)
    (fitTarget : ∀ target, linkTarget call.save call.st = some target →
      target.length < pathMax ∧ 0 ∉ target)
    (member : d' ∈ (call.produced md5 opts).1.dicos) (same : SameButPlace d d') :
    call.Heads mem opts d := by
  obtain nothing | ⟨known, attrs, -⟩ := call.produced_cases md5 opts
  · rw [nothing] at member
    cases member
  have ok : stdattrOk call.st call.calls = true := by
    simp only [attrsOk, Bool.and_eq_true] at attrs
    exact attrs.1.1
  refine ⟨?_, mt objectType_eq_null.mpr known, ?_, fun link => ?_⟩
  · rw [readPath_congr (same.find_eq (by decide) Section.stdattr)]
    exact readPath_produced fits.1 fits.2 member
  · rw [headerType_congr (same.find_eq (by decide) Section.stdattr)]
    exact dicoGetU32_of_find (find_produced member (find_objectDico_objtype opts _ _ _ _ ok))
      (show sizedData (leBytes 4 (objectType opts call.save call.st).code.toNat) = _ from
        sizedData_of_lt (by simp))
  · obtain ⟨isReg, seen⟩ := objectType_hardlink.mp link
    obtain ⟨target, seen⟩ := Option.isSome_iff_exists.mp seen
    obtain ⟨short, clean⟩ := fitTarget target seen
    have stored := find_stdattrDico_hardlink opts call.save call.relpath call.st call.calls isReg seen
    rw [← find_objectDico] at stored
    rw [readTarget_congr (same.find_eq (by decide) Section.stdattr), seen]
    exact readTarget_of_find (find_produced member stored) short clean

/-- The paths of the calls of a walk fit their buffers. -/
theorem fits_savedCalls (fit : PathsFit (visitedPaths visits)) {call : SaveCall}
    (member : call ∈ savedCalls mem md5 opts false visits save) :
    call.relpath.length < pathMax ∧ 0 ∉ call.relpath := by
  have object : call.toSavedObject ∈ savedObjects false visits := by
    rw [← @savedCalls_objects mem md5 opts false visits save]
    exact List.mem_map_of_mem member
  exact fit _ ((savedObjects_paths false visits).subset (List.mem_map_of_mem object))

/-- A header on the queue is that of a call for its path. -/
theorem call_of_header (fit : PathsFit (visitedPaths visits)) {fsid : UInt16} {d : Dico}
    (member : objectItem fsid d ∈ walkItems mem md5 opts visits save) {relpath : Path}
    (read : readPath mem d ItemKey.path = some relpath) :
    ∃ call ∈ savedCalls mem md5 opts false visits (walkStart opts save),
      call.relpath = relpath ∧ call.Heads mem opts d := by
  obtain ⟨packet, among, inside⟩ := List.mem_flatMap.mp member
  obtain ⟨-, d', own, same⟩ := mem_items_of_object inside
  have headers := dicos_allPackets (min opts.datablocksize maxBlkSize)
    (walkProduced mem md5 opts visits save)
  obtain ⟨made, listed, own'⟩ := List.mem_flatMap.mp
    (headers.mem_iff.mp (List.mem_flatMap.mpr ⟨packet, among, own⟩))
  obtain ⟨call, inCalls, rfl⟩ := List.mem_map.mp listed
  obtain ⟨before, after, split⟩ := List.append_of_mem inCalls
  have heads := @SaveCall.heads mem md5 opts call d d' (fits_savedCalls fit inCalls)
    (fun target => linkTarget_fits rfl fit split) own' same
  rw [heads.path] at read
  exact ⟨call, inCalls, Option.some.inj read, heads⟩

/-- An object that counts as saved has its header on the queue. -/
theorem SaveCall.header_queued (fit : PathsFit (visitedPaths visits)) {call : SaveCall}
    (member : call ∈ savedCalls mem md5 opts false visits (walkStart opts save))
    (saved : (call.produced md5 opts).2 = true) :
    ∃ d, objectItem save.fsid d ∈ walkItems mem md5 opts visits save ∧ call.Heads mem opts d := by
  obtain ⟨before, after, split⟩ := List.append_of_mem member
  obtain ⟨d', own⟩ : ∃ d', d' ∈ (call.produced md5 opts).1.dicos := by
    obtain nothing | ⟨-, -, made⟩ := call.produced_cases md5 opts
    · rw [nothing] at saved
      cases saved
    · rw [made] at saved ⊢
      unfold producedContents at saved ⊢
      split at saved
      · cases saved
      · cases saved
      · dsimp only at saved ⊢
        split <;> exact ⟨_, List.mem_singleton_self _⟩
      · split at saved
        · cases saved
        · exact ⟨_, List.mem_singleton_self _⟩
      · exact ⟨_, List.mem_singleton_self _⟩
  have headers := dicos_allPackets (min opts.datablocksize maxBlkSize)
    (walkProduced mem md5 opts visits save)
  have listed : (call.produced md5 opts).1 ∈ walkProduced mem md5 opts visits save :=
    List.mem_map.mpr ⟨call, member, rfl⟩
  obtain ⟨packet, among, inside⟩ := List.mem_flatMap.mp
    (headers.mem_iff.mpr (List.mem_flatMap.mpr ⟨_, listed, own⟩))
  obtain ⟨d, queued, same⟩ := object_mem_items md5 save.fsid inside
  exact ⟨d, List.mem_flatMap.mpr ⟨packet, among, queued⟩, SaveCall.heads
    (fits_savedCalls fit member) (fun target => linkTarget_fits rfl fit split) own same⟩

/-! ## Objects that are saved -/

/-- What calls produce fits into blocks. -/
theorem SaveCall.fits_produced (sizes : opts.FromCmdline) (call : SaveCall) :
    (call.produced md5 opts).1.Fits (min opts.datablocksize maxBlkSize) := by
  obtain nothing | ⟨known, -, made⟩ := call.produced_cases md5 opts
  · rw [nothing]
    trivial
  · rw [made]
    cases type : objectType opts call.save call.st with
    | regfileunique =>
      unfold producedContents
      cases call.calls.openFile with
      | none => trivial
      | some file =>
        dsimp only
        split <;> exact fun pack => nofun
    | regfilemulti =>
      unfold producedContents
      cases call.calls.openFile with
      | none => trivial
      | some file =>
        dsimp only
        cases found : readFile file 0 call.st.size.toNat with
        | none => trivial
        | some read =>
          obtain ⟨-, room⟩ := sizes.fits (small_of_objectType type)
          exact (length_padded found).le.trans room
    | null => exact absurd type known
    | dir | symlink | hardlink | chardev | blockdev | fifo | socket =>
      unfold producedContents
      cases call.calls.openFile <;> exact fun pack => nofun

/-- The path in the header of a call. -/
theorem SaveCall.readPath_objectDico (mem : Mem) (opts : SaveOptions) {call : SaveCall}
    (fits : call.relpath.length < pathMax ∧ 0 ∉ call.relpath) :
    readPath mem (objectDico opts call.save call.relpath call.st call.calls) ItemKey.path =
      some call.relpath :=
  readPath_of_find (find_objectDico_std opts call.save call.relpath call.st call.calls
    (dicoAddString Section.stdattr ItemKey.path call.relpath) (by simp [stdattrCalls]))
    fits.1 fits.2

/-- A file that was read to its end stands on the queue behind its header. -/
theorem SaveCall.queued_unique (sizes : opts.FromCmdline) (fit : PathsFit (visitedPaths visits))
    {call : SaveCall} (member : call ∈ savedCalls mem md5 opts false visits (walkStart opts save))
    (saved : (call.produced md5 opts).2 = true)
    (type : objectType opts call.save call.st = .regfileunique) :
    call.DataQueued mem (walkItems mem md5 opts visits save) := by
  obtain nothing | ⟨-, attrs, made⟩ := call.produced_cases md5 opts
  · rw [nothing] at saved
    cases saved
  rw [type] at made
  cases opened : call.calls.openFile with
  | none =>
    rw [made] at saved
    simp [producedContents, opened] at saved
  | some file =>
    let loop := readBlocks opts call.save.fsid call.st file
    have whole : loop.Whole := by
      rw [made] at saved
      simp only [producedContents, opened] at saved
      split at saved
      · cases saved
      next unfailed => exact ⟨by simpa using unfailed, saved⟩
    have added : (call.produced md5 opts).1 = .now
        (.file (objectDico opts call.save call.relpath call.st call.calls) loop.blocks) := by
      rw [made]
      simp only [producedContents, opened]
      rw [if_neg (by simpa using whole.1)]
    have listed : .now (.file (objectDico opts call.save call.relpath call.st call.calls)
        loop.blocks) ∈ walkProduced mem md5 opts visits save :=
      List.mem_map.mpr ⟨call, member, added⟩
    obtain ⟨before, after, items⟩ := @packetItems_around md5 save.fsid _ _
      (@now_mem_allPackets (min opts.datablocksize maxBlkSize) _ _ listed)
    obtain ⟨-, ends⟩ := readBlocks_chunked sizes call.save.fsid call.st file
    have length : (blocksData loop.blocks).length = call.st.size.toNat := by
      rw [if_neg (by simpa using whole.1)] at ends
      exact ends
    have delivers : Delivers file 0 (blocksData loop.blocks) :=
      regfileBlocks_delivers call.save.fsid file call.st.size.toNat 0 whole
    have headed := @headerType_objectDico mem opts _ call.relpath _ _ attrs
    rw [type] at headed
    obtain ⟨footer, packet⟩ : ∃ footer, (Packet.file (objectDico opts call.save call.relpath call.st
        call.calls) loop.blocks).items md5 save.fsid = objectItem save.fsid (objectDico opts call.save
          call.relpath call.st call.calls) :: loop.blocks.map .block ++ footer := ⟨_, rfl⟩
    refine ⟨blocksData loop.blocks, ⟨length, file, opened, delivers⟩, .inl ?_⟩
    refine ⟨save.fsid, _, loop.blocks, before, footer ++ after, ?_,
      call.readPath_objectDico mem opts (fits_savedCalls fit member), headed, rfl⟩
    rw [walkItems, items, packet]
    simp only [List.append_assoc, List.cons_append]

/-- A small file that was read stands on the queue in its pack. -/
theorem SaveCall.queued_multi (sizes : opts.FromCmdline) (fit : PathsFit (visitedPaths visits))
    {call : SaveCall} (member : call ∈ savedCalls mem md5 opts false visits (walkStart opts save))
    (saved : (call.produced md5 opts).2 = true)
    (type : objectType opts call.save call.st = .regfilemulti) :
    call.DataQueued mem (walkItems mem md5 opts visits save) := by
  obtain nothing | ⟨-, attrs, made⟩ := call.produced_cases md5 opts
  · rw [nothing] at saved
    cases saved
  rw [type] at made
  cases opened : call.calls.openFile with
  | none =>
    rw [made] at saved
    simp [producedContents, opened] at saved
  | some file =>
    cases found : readFile file 0 call.st.size.toNat with
    | none =>
      rw [made] at saved
      simp [producedContents, opened, found] at saved
    | some read =>
      have full : read.length = call.st.size.toNat := by
        rw [made] at saved
        simpa [producedContents, opened, found] using saved
      have unpadded : padded read call.st.size.toNat = read := by simp [padded, full]
      let d := dicoAddAll (objectDico opts call.save call.relpath call.st call.calls)
        [dicoAddData Section.stdattr ItemKey.md5sum (md5.digest read)]
      have added : (call.produced md5 opts).1 = .later (d, read) := by
        rw [made]
        simp only [producedContents, opened, found, unpadded, d]
      have listed : .later (d, read) ∈ walkProduced mem md5 opts visits save :=
        List.mem_map.mpr ⟨call, member, added⟩
      obtain ⟨pack, among, inPack⟩ :=
        @later_mem_allPackets (min opts.datablocksize maxBlkSize) _ _ listed
      obtain ⟨before, after, items⟩ := @packetItems_around md5 save.fsid _ _ among
      obtain ⟨front, back, rfl⟩ := List.append_of_mem inPack
      have room := packsFit_allPackets (fun produced listed => by
        obtain ⟨other, -, rfl⟩ := List.mem_map.mp listed
        exact other.fits_produced sizes) among
      have short : (front.flatMap Prod.snd).length < 2 ^ 32 := by
        have bound := room.trans (Nat.min_le_right opts.datablocksize maxBlkSize)
        simp only [List.flatMap_append, List.length_append, maxBlkSize] at bound
        omega
      have packable : Packable (d, read) :=
        (smallHeader_objectDico opts call.save call.relpath call.st call.calls).packable
          (sizes.fits (small_of_objectType type)).1 full (md5.digest read)
      have header := call.readPath_objectDico mem opts (fits_savedCalls fit member)
      have headed := @headerType_objectDico mem opts _ call.relpath _ _ attrs
      rw [type] at headed
      let count := UInt32.ofNat (front ++ (d, read) :: back).length
      let offset := UInt32.ofNat (front.flatMap Prod.snd).length
      have placed : placedHeader count offset d ∈ packHeaders count 0 (front ++ (d, read) :: back) := by
        rw [packHeaders_append, UInt32.zero_add]
        exact List.mem_append_right _ List.mem_cons_self
      have same : SameButPlace (placedHeader count offset d) d := .inr ⟨count, offset, rfl⟩
      have digest (key : UInt16) (other : key ≠ ItemKey.md5sum) : d.find Section.stdattr key =
          (objectDico opts call.save call.relpath call.st call.calls).find Section.stdattr key :=
        find_dicoAddAll_other (by simpa [dicoAddData] using fun taken => other taken.symm)
      refine ⟨read, ⟨full, file, opened, ?_⟩, .inr ⟨save.fsid, placedHeader count offset d, offset,
        packHeaders count 0 (front ++ (d, read) :: back), packBlock save.fsid
          ((front ++ (d, read) :: back).flatMap Prod.snd), before, after, ?_, placed, ?_, ?_,
        packable.readOffset mem count offset, ?_⟩⟩
      · have nothing : Delivers file (0 + read.length) [] := fun i byte at' => by cases at'
        have once := Delivers.cons found nothing
        rwa [List.append_nil] at once
      · rw [walkItems, items, Packet.items]
        simp only [List.append_assoc, List.singleton_append, count]
      · rw [readPath_congr (same.find_eq (by decide) Section.stdattr),
          readPath_congr (digest ItemKey.path (by decide)), header]
      · rw [headerType_congr (same.find_eq (by decide) Section.stdattr),
          headerType_congr (digest ItemKey.objtype (by decide)), headed]
      · have place : offset.toNat = (front.flatMap Prod.snd).length := Nat.mod_eq_of_lt short
        rw [place]
        simp [packBlock]

/-- A regular file that counts as saved stands on the queue with its data, or as a hard link. -/
theorem SaveCall.contents_queued (sizes : opts.FromCmdline) (fit : PathsFit (visitedPaths visits))
    {call : SaveCall} (member : call ∈ savedCalls mem md5 opts false visits (walkStart opts save))
    (saved : (call.produced md5 opts).2 = true) (isReg : call.st.fileType = .reg) :
    match linkTarget call.save call.st with
    | none => call.DataQueued mem (walkItems mem md5 opts visits save)
    | some target => LinkQueued mem (walkItems mem md5 opts visits save) call.relpath target := by
  cases seen : linkTarget call.save call.st with
  | none =>
    have type : objectType opts call.save call.st = regfileType opts call.st := by
      simp [objectType, isReg, seen]
    unfold regfileType at type
    split at type
    · exact call.queued_multi sizes fit member saved type
    · exact call.queued_unique sizes fit member saved type
  | some target =>
    have link : objectType opts call.save call.st = .hardlink :=
      objectType_hardlink.mpr ⟨isReg, by rw [seen]; rfl⟩
    obtain ⟨d, queued, heads⟩ := call.header_queued fit member saved
    have type := heads.type
    rw [link] at type
    exact ⟨save.fsid, d, queued, heads.path, type, (heads.target link).trans seen⟩

end Walk

end FsArchiver
