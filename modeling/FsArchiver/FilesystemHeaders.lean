import FsArchiver.MountPartition

/-!
# The header of a filesystem on both sides

`oper_save` makes a header of what `filesystem_mount_partition` and `getinfo` find, and
`extractar_filesystem_extract` decides by the header whether a filesystem can be made. No item of a
header is lost to another one with its key, whichever type the filesystem has, and the decision is
always in favour of a header that was saved.
-/
namespace FsArchiver

/-- The items of the header of a filesystem, with the cost of copying it. -/
def savedItems (devinfo : DevInfo) (entry : FilesysEntry) (stats : SpaceStats)
    (items : List DicoCall) (cost : UInt64) : List DicoCall :=
  commonCalls devinfo entry stats ++ items ++ [dicoAddU64 0 fsysTotalcost cost]

/-- The type of the filesystem to make for one that was saved: the command line has the last word. -/
def FsTarget.wanted (target : FsTarget) (saved : Nat) : Option Nat :=
  match target.mkfs with
  | some tempbuf => genericGetFstype (snprintfText maxFsnamelen tempbuf)
  | none => some saved

/-! ## Items with keys of their own -/

section Items

variable {devinfo : DevInfo} {entry : FilesysEntry} {stats : SpaceStats} {items : List DicoCall}

/-- The keys of the header itself. -/
def headerKeys : List UInt16 := [1, 2, 27, 3, 4]

theorem commonCalls_keys :
    (commonCalls devinfo entry stats).map DicoCall.key = headerKeys := rfl

/-- The items of `getinfo` have other keys. -/
theorem Describes.other_keys (describes : Describes items) :
    ∀ key ∈ items.map DicoCall.key, key ∉ headerKeys ∧ key ≠ fsysTotalcost := by
  have others : (FsysHeadKey.minfsaversion :: infoKeys).all fun key =>
      !headerKeys.contains key && key != fsysTotalcost := by rfl
  have other (key : UInt16) (among : key ∈ FsysHeadKey.minfsaversion :: infoKeys) :
      key ∉ headerKeys ∧ key ≠ fsysTotalcost := by
    simpa using List.all_eq_true.mp others key among
  intro key member
  obtain ⟨call, among, rfl⟩ := List.mem_map.mp member
  have isInfo := List.all_eq_true.mp describes.keys call among
  simp only [DicoCall.isInfo, Bool.decide_and, Bool.decide_or, Bool.and_eq_true, Bool.or_eq_true,
    decide_eq_true_eq] at isInfo
  apply other
  rcases isInfo.2 with info | version
  · exact List.mem_cons_of_mem _ info
  · rw [version]
    exact List.mem_cons_self

/-- No two items have the same key. -/
theorem savedItems_distinct (describes : Describes items) (cost : UInt64) :
    ((savedItems devinfo entry stats items cost).map DicoCall.item |>.map DicoItem.name).Nodup := by
  have keys : ((savedItems devinfo entry stats items cost).map DicoCall.key).Nodup := by
    rw [savedItems, List.map_append, List.map_append, commonCalls_keys, List.append_assoc,
      List.nodup_append]
    refine ⟨by decide, ?_, ?_⟩
    · rw [List.nodup_append]
      refine ⟨describes.distinct, List.nodup_singleton _, ?_⟩
      intro key member other single
      rw [List.mem_singleton.mp single]
      exact (describes.other_keys key member).2
    · intro key member other behind same
      rw [← same] at behind
      rcases List.mem_append.mp behind with info | cost
      · exact (describes.other_keys key info).1 member
      · have other : fsysTotalcost ∉ headerKeys := by decide
        rw [List.mem_singleton.mp cost] at member
        exact other member
  apply List.Nodup.of_map Prod.snd
  rw [List.map_map, List.map_map]
  exact keys

/-- The header has all items, in their order. -/
theorem header_items (describes : Describes items) (cost : UInt64) :
    ∃ info, dicoAddEach (dicoAddAll Dico.alloc (commonCalls devinfo entry stats ++ items))
        [dicoAddU64 0 fsysTotalcost cost] = some info ∧
      info.items = (savedItems devinfo entry stats items cost).map DicoCall.item := by
  have distinct := @savedItems_distinct devinfo entry stats items describes cost
  rw [savedItems, List.map_append] at distinct
  have first : (dicoAddAll Dico.alloc (commonCalls devinfo entry stats ++ items)).items =
      (commonCalls devinfo entry stats ++ items).map DicoCall.item := by
    apply items_dicoAddAll
    rw [List.map_append] at distinct
    exact distinct.of_append_left
  rw [← first] at distinct
  refine ⟨_, dicoAddEach_of_fresh distinct, ?_⟩
  rw [items_dicoAddAll distinct, first, savedItems, ← List.map_append]

end Items

/-! ## The decision -/

/-- The name of a filesystem stands for it. -/
theorem genericGetFstype_name {fstype : Nat} {entry : FilesysEntry}
    (known : filesys[fstype]? = some entry) :
    genericGetFstype entry.name = some fstype ∧ 0 ∉ entry.name ∧
      entry.name.length < maxFsnamelen := by
  have all : ∀ i : Fin filesys.length, genericGetFstype filesys[i].name = some i.val ∧
      0 ∉ filesys[i].name ∧ filesys[i].name.length < maxFsnamelen := by decide +kernel
  obtain ⟨inside, rfl⟩ := List.getElem?_eq_some_iff.mp known
  exact all ⟨fstype, inside⟩

section Accepted

variable {options : MountOptions} {mntopt2string : UInt32 → List UInt8} {arg : PartitionArg}
  {mem : Mem} {target : FsTarget} {info : Dico}

/-- What a header is made of. -/
theorem partitionHeader_eq_some {calls : PartitionCalls} {devinfo : DevInfo} {d : Dico}
    (made : partitionHeader options mntopt2string calls devinfo = some d) :
    ∃ fstype entry stats items, devinfo.fstype = some fstype ∧ filesys[fstype]? = some entry ∧
      calls.statvfs = some stats ∧ calls.device.getinfo mntopt2string fstype = some items ∧
      d = dicoAddAll Dico.alloc (commonCalls devinfo entry stats ++ items) := by
  unfold partitionHeader at made
  obtain ⟨fstype, type, made⟩ := Option.bind_eq_some_iff.mp made
  obtain ⟨entry, known, made⟩ := Option.bind_eq_some_iff.mp made
  split at made
  · cases made
  · obtain ⟨stats, space, made⟩ := Option.bind_eq_some_iff.mp made
    obtain ⟨items, got, made⟩ := Option.bind_eq_some_iff.mp made
    cases made
    exact ⟨fstype, entry, stats, items, type, known, space, got, rfl⟩

/-- The header of an argument is made from what is left in `s_devinfo`. -/
theorem PartitionArg.header_of_dicofsinfo {d : Dico}
    (header : (arg.mounted options mntopt2string).dicofsinfo = some d) :
    partitionHeader options mntopt2string arg.calls (arg.mounted options mntopt2string).devinfo =
      some d := by
  unfold PartitionArg.mounted filesystemMountPartition at header ⊢
  cases found : arg.calls.mntinfo with
  | none =>
    simp only [found, Option.ite_none_right_eq_some] at header ⊢
    exact header.2
  | some info =>
    simp only [found, Option.ite_none_right_eq_some] at header ⊢
    exact header.2

/-- A header with the items of a filesystem is accepted. -/
theorem admits_of_items {devinfo : DevInfo} {fstype : Nat} {entry : FilesysEntry}
    {stats : SpaceStats} {items : List DicoCall} {cost : UInt64} {partition : List UInt8}
    (known : filesys[fstype]? = some entry) (describes : Describes items)
    (same : info.items = (savedItems devinfo entry stats items cost).map DicoCall.item)
    (dest : target.dest = some partition) (free : target.isMounted partition = false) :
    target.admits mem info = (target.wanted fstype).map fun type => (partition, type) := by
  obtain ⟨named, clean, short⟩ := genericGetFstype_name known
  obtain ⟨minver, old, version⟩ := describes.version
  have total : dicoGetU64 mem info 0 FsysHeadKey.bytestotal = some (stats.frsize * stats.blocks) :=
    dicoGetU64_of_call same (by simp [savedItems, commonCalls])
  have used : dicoGetU64 mem info 0 FsysHeadKey.bytesused =
      some (stats.frsize * stats.blocks - stats.frsize * stats.bfree) :=
    dicoGetU64_of_call same (by simp [savedItems, commonCalls])
  have recent : dicoGetU64 mem info 0 FsysHeadKey.minfsaversion = some minver := by
    apply dicoGetU64_of_call same
    exact List.mem_append_left _ (List.mem_append_right _ version)
  have name : dicoGetString info 0 FsysHeadKey.filesystem maxFsnamelen =
      some (entry.name ++ [0]) := by
    have size : (entry.name ++ [0]).length ≤ maxFsnamelen := by
      rw [List.length_append]
      exact short
    have small : maxFsnamelen < 65536 := by decide
    apply dicoGetData_of_call (dicoAddString 0 FsysHeadKey.filesystem entry.name) same
    · simp [savedItems, commonCalls]
    · exact Nat.lt_of_le_of_lt size small
    · decide
    · exact size
  have type : (targetFilesystem target info).bind genericGetFstype = target.wanted fstype := by
    unfold targetFilesystem FsTarget.wanted
    cases target.mkfs with
    | some tempbuf => rfl
    | none =>
      simp only [name, Option.map_some, Option.bind_some, stringBuffer, List.append_assoc,
        List.singleton_append]
      rw [cString_buffer clean, named]
  rw [← type]
  unfold FsTarget.admits filesystemAccepts
  simp only [dest, Option.bind_eq_bind, Option.bind_some, recent, Option.getD_some,
    UInt64.not_lt.mpr old, ↓reduceIte, free, Bool.false_eq_true, dequeueHeader, total, used, ne_eq,
    not_true_eq_false]
  cases targetFilesystem target info with
  | none => rfl
  | some filesystem =>
    simp only [Option.bind_some]
    cases genericGetFstype filesystem <;> rfl

/-- What the header of an argument is made of. -/
theorem PartitionArg.saved_parts {fs : MountedFs}
    (mounted : (arg.toFsArg options mntopt2string).mount = some fs) :
    ∃ fstype entry stats items, (arg.mounted options mntopt2string).devinfo.fstype = some fstype ∧
      filesys[fstype]? = some entry ∧ arg.calls.statvfs = some stats ∧
      arg.calls.device.getinfo mntopt2string fstype = some items ∧
      fs.dicofsinfo = dicoAddAll Dico.alloc
        (commonCalls (arg.mounted options mntopt2string).devinfo entry stats ++ items) := by
  unfold FsArg.mount PartitionArg.toFsArg at mounted
  obtain ⟨⟨filesystem, d⟩, found, rfl⟩ := Option.map_eq_some_iff.mp mounted
  obtain ⟨made, header, found⟩ := Option.bind_eq_some_iff.mp found
  obtain ⟨_, -, found⟩ := Option.bind_eq_some_iff.mp found
  obtain ⟨_, -, found⟩ := Option.bind_eq_some_iff.mp found
  obtain ⟨-, rfl⟩ := Prod.mk.inj (Option.some.inj found)
  exact partitionHeader_eq_some (PartitionArg.header_of_dicofsinfo header)

/-- A partition that is mounted to be saved is of a type that is known. Whatever its contents cost,
its header gets all items of that type's `getinfo` and the header's own ones, in their order and none of
them lost, and every partition that is not mounted may be made into a filesystem of the type that was
saved or of the one that the command line asks for. -/
theorem saved_header_accepted {fs : MountedFs}
    (mounted : (arg.toFsArg options mntopt2string).mount = some fs) :
    ∃ fstype entry stats items, (arg.mounted options mntopt2string).devinfo.fstype = some fstype ∧
      filesys[fstype]? = some entry ∧ arg.calls.statvfs = some stats ∧
      arg.calls.device.getinfo mntopt2string fstype = some items ∧
      ∀ cost, ∃ info, dicoAddEach fs.dicofsinfo [dicoAddU64 0 fsysTotalcost cost] = some info ∧
        info.items = (savedItems (arg.mounted options mntopt2string).devinfo entry stats items
          cost).map DicoCall.item ∧
        ∀ (mem : Mem) (target : FsTarget) (partition : List UInt8),
          target.dest = some partition → target.isMounted partition = false →
            target.admits mem info = (target.wanted fstype).map fun type => (partition, type) := by
  obtain ⟨fstype, entry, stats, items, type, known, space, got, made⟩ :=
    PartitionArg.saved_parts mounted
  rw [made]
  have describes := Device.getinfo_describes got
  refine ⟨fstype, entry, stats, items, type, known, space, got, ?_⟩
  intro cost
  obtain ⟨info, added, same⟩ := @header_items (arg.mounted options mntopt2string).devinfo entry stats
    items describes cost
  refine ⟨info, added, same, ?_⟩
  intro mem target partition dest free
  exact admits_of_items known describes same dest free

end Accepted

/-- A JFS filesystem that is not mounted. -/
def jfsPartition : PartitionArg where
  devpath := ascii "/dev/sda1"
  time := ascii "20240102-030405-00000006"
  isBlk := true
  calls :=
    { mntinfo := none, bindWorks := true
      device :=
        { extfs := none, reiserfs := none, reiser4 := none, btrfs := none, xfs := none
          jfs := some ⟨ascii "home", ⟨List.replicate 16 0, rfl⟩⟩, ntfs := none, vfat := none }
      mountWorks := fun _ => true, noXattr := false, noAcl := false
      statvfs := some ⟨4096, 256, 200⟩, umountWorks := fun _ => true }
  analysed := ⟨plainDirCalls, .eof⟩
  copied := ⟨plainDirCalls, .eof⟩
  partmount := ascii "/tmp/fsa/20240102-030405-00000006-00"

/-- It is made as JFS again, unless the command line says otherwise. -/
theorem saved_header_accepted_jfs : ∃ fs : MountedFs, ∀ cost, ∃ info,
    dicoAddEach fs.dicofsinfo [dicoAddU64 0 fsysTotalcost cost] = some info ∧
      ∀ (mem : Mem) (target : FsTarget) (partition : List UInt8),
        target.dest = some partition → target.isMounted partition = false →
          target.admits mem info = (target.wanted 7).map fun type => (partition, type) := by
  obtain ⟨fs, mounted⟩ : ∃ fs, (jfsPartition.toFsArg ⟨false, false, false⟩ fun _ => []).mount =
      some fs := ⟨_, rfl⟩
  obtain ⟨fstype, entry, stats, items, type, -, -, -, accepted⟩ := saved_header_accepted mounted
  obtain rfl : 7 = fstype := Option.some.inj type
  refine ⟨fs, ?_⟩
  intro cost
  obtain ⟨info, added, -, admits⟩ := accepted cost
  exact ⟨info, added, admits⟩

end FsArchiver
