import FsArchiver.OperRestore
import FsArchiver.SavePackets

/-!
# Headers of objects as a restoration reads them

The functions that restore an object read back what `createar_item_stdattr` has put into its
header.
-/
namespace FsArchiver

open Lib

/-- A string that a call added fits a buffer of `PATH_MAX` bytes with its NUL. -/
theorem dicoGetData_string {d : Dico} {key : UInt16} {text : Path}
    (found : d.find Section.stdattr key = some (dicoAddString Section.stdattr key text).item)
    (short : text.length < pathMax) :
    dicoGetData d Section.stdattr key pathMax = some (text ++ [0]) := by
  simp only [pathMax] at short
  have data : (dicoAddString Section.stdattr key text).item.data = text ++ [0] :=
    sizedData_of_lt (by rw [dicoAddString, List.length_append, List.length_singleton]; omega)
  have read := @dicoGetGeneric_of_find d Section.stdattr key _ pathMax found (by decide)
    (by rw [data, List.length_append, List.length_singleton, pathMax]; omega)
  rw [dicoGetData, read, data]

/-- A path that a call added is read back. -/
theorem readPath_of_find {mem : Mem} {d : Dico} {key : UInt16} {text : Path}
    (found : d.find Section.stdattr key = some (dicoAddString Section.stdattr key text).item)
    (short : text.length < pathMax) (clean : 0 ∉ text) : readPath mem d key = some text := by
  rw [readPath, dicoGetData_string found short, Option.map_some, localBuffer, List.append_assoc,
    List.singleton_append, cString_buffer clean]

/-- So is the target of a link, as a C string. -/
theorem readTarget_text {d : Dico} {key : UInt16} {text : Path}
    (found : d.find Section.stdattr key = some (dicoAddString Section.stdattr key text).item)
    (short : text.length < pathMax) : readTarget d key = some (cString text) := by
  rw [readTarget, dicoGetString, dicoGetData_string found short, Option.map_some,
    cString_stringBuffer]

theorem readTarget_of_find {d : Dico} {key : UInt16} {text : Path}
    (found : d.find Section.stdattr key = some (dicoAddString Section.stdattr key text).item)
    (short : text.length < pathMax) (clean : 0 ∉ text) : readTarget d key = some text :=
  (readTarget_text found short).trans (congrArg some (cString_eq_self clean))

/-- The object at a path has a header among these items. -/
def Archived (mem : Mem) (items : List QueueData) (relpath : Path) : Prop :=
  ∃ fsid d, objectItem fsid d ∈ items ∧ readPath mem d ItemKey.path = some relpath

/-- The item is a header with this path. -/
def QueueData.isNamed (mem : Mem) (path : Path) : QueueData → Bool
  | .header head => decide (readPath mem head.dico ItemKey.path = some path)
  | .block _ => false

/-- An archived path is found among the items. -/
theorem Archived.any {mem : Mem} {items : List QueueData} {relpath : Path}
    (archived : Archived mem items relpath) : items.any (QueueData.isNamed mem relpath) = true := by
  obtain ⟨fsid, d, member, read⟩ := archived
  exact List.any_eq_true.mpr ⟨objectItem fsid d, member, decide_eq_true read⟩

/-- `readPath` depends on what is found. -/
theorem readPath_congr {mem : Mem} {d d' : Dico} {key : UInt16}
    (same : d.find Section.stdattr key = d'.find Section.stdattr key) :
    readPath mem d key = readPath mem d' key := by
  unfold readPath dicoGetData dicoGetGeneric
  rw [same]

/-- So does `readTarget`. -/
theorem readTarget_congr {d d' : Dico} {key : UInt16}
    (same : d.find Section.stdattr key = d'.find Section.stdattr key) :
    readTarget d key = readTarget d' key := by
  unfold readTarget dicoGetString dicoGetData dicoGetGeneric
  rw [same]

/-- So do the numbers of a header. -/
theorem dicoGetU64_congr {mem : Mem} {d d' : Dico} {key : UInt16}
    (same : d.find Section.stdattr key = d'.find Section.stdattr key) :
    dicoGetU64 mem d Section.stdattr key = dicoGetU64 mem d' Section.stdattr key := by
  unfold dicoGetU64 dicoGetWord dicoGetData dicoGetGeneric
  rw [same]

/-- What packets archive is read from their headers. -/
theorem archived_packetItems {mem : Mem} (md5 : Md5) (fsid : UInt16) (packets : List Packet)
    (relpath : Path) :
    Archived mem (packetItems md5 fsid packets) relpath ↔
      ∃ d ∈ packets.flatMap Packet.dicos, readPath mem d ItemKey.path = some relpath := by
  have place : ItemKey.path ≠ ItemKey.multifilescount ∧ ItemKey.path ≠ ItemKey.multifilesoffset := by
    decide
  constructor
  · rintro ⟨fsid', d, member, read⟩
    obtain ⟨packet, among, member⟩ := List.mem_flatMap.mp member
    obtain ⟨-, d', inside, same⟩ := mem_items_of_object member
    refine ⟨d', List.mem_flatMap.mpr ⟨packet, among, inside⟩, ?_⟩
    rw [← readPath_congr (same.find_eq place Section.stdattr), read]
  · rintro ⟨d, member, read⟩
    obtain ⟨packet, among, member⟩ := List.mem_flatMap.mp member
    obtain ⟨d', inside, same⟩ := object_mem_items md5 fsid member
    refine ⟨fsid, d', List.mem_flatMap.mpr ⟨packet, among, inside⟩, ?_⟩
    rw [readPath_congr (same.find_eq place Section.stdattr), read]

end FsArchiver
