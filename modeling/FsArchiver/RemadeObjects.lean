import FsArchiver.Metadata
import FsArchiver.SaveRestore

/-!
# Visited objects that are made again

What was visited in a walk, and when a restoration has made it again: as an object of its type, with
what belongs to that type, and with its owner, its permissions and its extended attributes. The
object that `createar_save_file` has put in the archive stands for all of it.
-/
namespace FsArchiver

open Lib

/-! ## What was visited -/

/-- An object that was visited, with the type of its filesystem and the link to its file that was
visited first, if there is one. -/
structure VisitedObject extends SavedObject where
  fstype : Filesys
  link : Option Path

/-- The first link to the file of an object among those that were visited before. Links are told
apart as `dichl_get` does it. -/
def SavedObject.firstLink (object : SavedObject) (seen : List SavedObject) : Option Path :=
  if object.st.fileType = .reg ∧ object.st.nlink > 1 then
    (firstWith SavedObject.key (seen.filter SavedObject.several) object.key).map SavedObject.relpath
  else none

/-- What was visited behind some other objects. -/
def visitedFrom (fstype : Filesys) : List SavedObject → List SavedObject → List VisitedObject
  | _, [] => []
  | seen, object :: rest =>
    ⟨object, fstype, object.firstLink seen⟩ :: visitedFrom fstype (seen ++ [object]) rest

/-- What was visited in a walk. -/
def visitedObjects (fstype : Filesys) (visits : List Visit) : List VisitedObject :=
  visitedFrom fstype [] (savedObjects false visits)

namespace VisitedObject

/-- Where an object is restored. -/
def fullpath (object : VisitedObject) (ctx : Context) : Path :=
  concatenatePaths ctx.destdir object.relpath

/-- It is a hard link to an excluded file. -/
def LinksToExcluded (ctx : Context) (object : VisitedObject) : Prop :=
  ∃ target, object.link = some target ∧ isFiledirExcluded ctx.exclude target = true

/-- The type of the object is one that an archive knows. -/
def known (object : VisitedObject) : Bool := object.st.fileType ≠ .other

/-- A symbolic link was made again. On ntfs it is a directory or a file where its target was one. -/
def SymlinkRemade (object : VisitedObject) (ctx : Context) (made : Log) (target : Path) : Prop :=
  match symlinkTargettype object.fstype object.calls.linkTarget, ctx.ntfs with
  | some .dir, true => DirMade ctx made (object.fullpath ctx)
  | some _, true => (.creat (object.fullpath ctx), 0) ∈ made
  | _, _ => (.symlink (cString (fixLinkTarget target)) (object.fullpath ctx), 0) ∈ made

/-- The contents of a file were written again, once and in their order. -/
def FileRemade (object : VisitedObject) (ctx : Context) (made : Log) : Prop :=
  ∃ contents, WrittenOnce made (object.fullpath ctx) contents ∧
    contents.length = object.st.size.toNat ∧
    ∀ read, object.calls.Reads read → read.length = object.st.size.toNat → contents = read

/-- An object of this type was made again, with what belongs to its type. -/
def EntryRemade (object : VisitedObject) (ctx : Context) (made : Log) : Prop :=
  match object.st.fileType with
  | .dir => DirMade ctx made (object.fullpath ctx)
  | .lnk => ∃ target, object.calls.readlink = some target ∧ object.SymlinkRemade ctx made target
  | .chr | .blk | .fifo | .sock =>
    (.mknod (object.fullpath ctx) object.st.mode object.st.rdev, 0) ∈ made
  | .reg =>
    match object.link with
    | some target => (.link (concatenatePaths ctx.destdir target) (object.fullpath ctx), 0) ∈ made
    | none => object.FileRemade ctx made
  | .other => False

/-- An object that was visited is there again. -/
structure Remade (object : VisitedObject) (ctx : Context) (made : Log) : Prop where
  entry : object.EntryRemade ctx made
  owner : (.lchown (object.fullpath ctx) object.st.uid object.st.gid, 0) ∈ made
  mode : object.st.fileType ≠ .lnk → (.chmod (object.fullpath ctx) object.st.mode, 0) ∈ made
  /-- Names are C strings. -/
  xattrs : object.fstype.supportForXattr = true → ∀ xattr ∈ object.calls.xattrs,
    ∀ value, xattr.2.value = .ok value →
      (.lsetxattr (object.fullpath ctx) (cString xattr.1) value, 0) ∈ made
  winattrs : object.fstype.winattr = true → ∀ name ∈ winattrNamesOf object.relpath,
    ∀ size value, (object.calls.winattrs name).size = .ok size →
      (object.calls.winattrs name).value = .ok value →
      (.lsetxattr (object.fullpath ctx) (cString name) value, 0) ∈ made

end VisitedObject

/-! ## Calls for visited objects -/

/-- The object of a call. -/
def SaveCall.visited (call : SaveCall) : VisitedObject :=
  ⟨call.toSavedObject, call.save.fstype,
    if call.st.fileType = .reg then linkTarget call.save call.st else none⟩

section Calls

variable {mem : Mem} {md5 : Md5} {opts : SaveOptions} {visits : List Visit} {save : Savear}

/-- Calls that find the first links among the objects before them are for what was visited. -/
theorem map_visited {fstype : Filesys} {calls : List SaveCall} (seen : List SavedObject)
    (own : ∀ before call after, calls = before ++ call :: after →
      call.visited = ⟨call.toSavedObject, fstype,
        call.firstLink (seen ++ before.map SaveCall.toSavedObject)⟩) :
    calls.map SaveCall.visited = visitedFrom fstype seen (calls.map SaveCall.toSavedObject) := by
  induction calls generalizing seen with
  | nil => rfl
  | cons call rest ih =>
    have first := own [] call rest rfl
    rw [List.map_nil, List.append_nil] at first
    rw [List.map_cons, List.map_cons, visitedFrom, first]
    congr 1
    apply ih
    intro before other after split
    have later := own (call :: before) other after (by rw [split, List.cons_append])
    rw [List.append_assoc, List.singleton_append]
    exact later

/-- The calls of a walk are for what is visited in it. -/
theorem savedCalls_visited (sizes : opts.FromCmdline) (fit : PathsFit (visitedPaths visits)) :
    (savedCalls mem md5 opts false visits (walkStart opts save)).map SaveCall.visited =
      visitedObjects save.fstype visits := by
  unfold visitedObjects
  rw [← @savedCalls_objects mem md5 opts false visits (walkStart opts save)]
  apply map_visited
  intro before call after split
  have member : call ∈ savedCalls mem md5 opts false visits (walkStart opts save) := by
    rw [split]
    exact List.mem_append_right _ List.mem_cons_self
  have fstype : call.save.fstype = save.fstype :=
    fstype_savedCalls sizes (pends_walkStart opts save) member
  have target := linkTarget_savedCalls rfl fit split
  rw [SaveCall.visited, fstype, target, List.nil_append, SavedObject.firstLink]
  by_cases isReg : call.st.fileType = .reg <;> by_cases several : call.st.nlink > 1 <;>
    simp [isReg, several]

/-- What is visited behind some objects. -/
theorem map_visitedFrom (fstype : Filesys) (seen objects : List SavedObject) :
    (visitedFrom fstype seen objects).map VisitedObject.toSavedObject = objects := by
  induction objects generalizing seen with
  | nil => rfl
  | cons object rest ih => rw [visitedFrom, List.map_cons, ih]

/-- The objects of a walk are those that are visited. -/
theorem map_visitedObjects (fstype : Filesys) (visits : List Visit) :
    (visitedObjects fstype visits).map VisitedObject.toSavedObject = savedObjects false visits :=
  map_visitedFrom fstype [] _

end Calls

/-! ## What the archive has of them -/

/-- The object in the archive is the one that `createar_save_file` makes of what it is called for,
with all of its contents. -/
def VisitedObject.Becomes (md5 : Md5) (opts : SaveOptions) (object : VisitedObject) (obj : SavedObj) :
    Prop :=
  ∃ call : SaveCall, call.Sound ∧ call.visited = object ∧ call.object md5 opts = some obj ∧
    obj.saved = true

section Becomes

variable {md5 : Md5} {opts : SaveOptions} {call : SaveCall} {object : VisitedObject}
  {obj : SavedObj} {ctx : Context} {made : Log}

theorem VisitedObject.Becomes.relpath (becomes : object.Becomes md5 opts obj) :
    obj.relpath = object.relpath := by
  obtain ⟨call, -, rfl, object, -⟩ := becomes
  exact (SaveCall.fields_of_object object).1

/-- A hard link in the archive is one that was visited. -/
theorem VisitedObject.Becomes.link (becomes : object.Becomes md5 opts obj) {target : Path}
    (links : obj.LinksTo target) : object.link = some target := by
  obtain ⟨call, sound, rfl, object, -⟩ := becomes
  have found := SaveCall.linkTarget_of_object sound object links
  have type := (SaveCall.fields_of_object object).2.2.1
  have isReg := (objectType_hardlink.mp (type.symm.trans links.1)).1
  exact (if_pos isReg).trans found

/-- The attributes of an object can be read. -/
theorem SaveCall.stdattrOk_of_object (object : call.object md5 opts = some obj) :
    stdattrOk call.st call.calls = true := by
  obtain ⟨-, attrs, -⟩ := SaveCall.produced_of_object object
  simp only [attrsOk, Bool.and_eq_true] at attrs
  exact attrs.1.1

/-- The header of an object has its standard attributes. -/
theorem SaveCall.savedHeader_of_object (sound : call.Sound) (object : call.object md5 opts = some obj) :
    SavedHeader obj.d call.relpath (objectType opts call.save call.st) call.st := by
  have ok := SaveCall.stdattrOk_of_object object
  have header := @savedHeader_objectDico opts call.save call.relpath _ _ ok sound.fromKernel
  rcases SaveCall.header_of_object object with same | ⟨-, digest, same⟩
  · rw [same]
    exact header
  · rw [same]
    exact header.add (List.forall_mem_singleton.mpr rfl)

/-- The extended attributes in the header of an object. -/
theorem SaveCall.attrs_of_object (sound : call.Sound) (object : call.object md5 opts = some obj) :
    AttrsStored obj.d Section.xattr (savedXattrs call.save.fstype call.calls) ∧
      AttrsStored obj.d Section.winattr
        (savedWinattrs call.save.fstype call.relpath call.calls) := by
  have stored := @attrsStored_objectDico opts call.save call.relpath call.st call.calls
    sound.fromKernel
  rcases SaveCall.header_of_object object with same | ⟨-, digest, same⟩
  · rw [same]
    exact stored
  · rw [same]
    have std : Section.stdattr ≠ Section.xattr ∧ Section.stdattr ≠ Section.winattr := by decide
    exact ⟨stored.1.other (List.forall_mem_singleton.mpr std.1),
      stored.2.other (List.forall_mem_singleton.mpr std.2)⟩

/-- All attributes of a section are set. -/
theorem Attributed.sets {path : Path} {d : Dico} {objtype : UInt32} {sect : UInt8}
    {attrs : List (List UInt8 × List UInt8)} (attributed : Attributed ctx made path d objtype)
    (own : sect ∈ [Section.xattr, Section.winattr]) (stored : AttrsStored d sect attrs)
    {name value : List UInt8} (member : (name, value) ∈ attrs) :
    (.lsetxattr path (cString name) value, 0) ∈ made := by
  have read : some (cString name, value) ∈
      (evenKeys (dicoCountOneSection d sect)).map (readAttr d sect) := by
    rw [stored.read]
    exact List.mem_map_of_mem (f := fun attr => some (cString attr.1, attr.2)) member
  obtain ⟨key, among, found⟩ := List.mem_map.mp read
  exact attributed.xattrs sect own key among _ found

/-- The type of an object of the archive. -/
theorem SaveCall.isRegfile_of_object (object : call.object md5 opts = some obj) :
    obj.objtype.isRegfile = true ↔
      call.st.fileType = .reg ∧ linkTarget call.save call.st = none := by
  rw [(SaveCall.fields_of_object object).2.2.1]
  unfold objectType
  cases type : call.st.fileType with
  | reg =>
    cases linkTarget call.save call.st with
    | none =>
      have isRegfile : (regfileType opts call.st).isRegfile = true := by
        unfold regfileType
        split <;> rfl
      simp [isRegfile]
    | some target => simp [ObjType.isRegfile]
  | dir | lnk | chr | blk | fifo | sock | other => simp [ObjType.isRegfile]

/-- A file that counts as saved is there with as many bytes as `lstat64` said. -/
theorem SaveCall.length_contents (sizes : opts.FromCmdline)
    (object : call.object md5 opts = some obj) (saved : obj.saved = true)
    (isRegfile : obj.objtype.isRegfile = true) : obj.contents.length = call.st.size.toNat := by
  obtain ⟨-, -, type, -⟩ := SaveCall.fields_of_object object
  obtain ⟨-, -, made⟩ := SaveCall.produced_of_object object
  rw [type] at isRegfile
  unfold SaveCall.object SaveCall.piece at object
  rw [made] at object
  cases own : objectType opts call.save call.st with
  | null | dir | symlink | hardlink | chardev | blockdev | fifo | socket =>
    rw [own] at isRegfile
    cases isRegfile
  | regfileunique =>
    cases opened : call.calls.openFile with
    | none =>
      rw [own, producedContents.eq_def] at object
      simp only [opened] at object
      cases object
    | some file =>
      obtain ⟨chunked, ends⟩ := readBlocks_chunked sizes call.save.fsid call.st file
      rw [own, producedContents.eq_def] at object
      simp only [opened] at object
      split at object
      · cases object
        cases saved
      next complete =>
        cases object
        rw [if_neg complete] at ends
        exact ends
  | regfilemulti =>
    cases opened : call.calls.openFile with
    | none =>
      rw [own, producedContents.eq_def] at object
      simp only [opened] at object
      cases object
    | some file =>
      rw [own, producedContents.eq_def] at object
      simp only [opened] at object
      split at object
      · cases object
      next found =>
        cases object
        exact length_padded found

/-- Its contents are those that were read. -/
theorem SaveCall.contents_of_object (sizes : opts.FromCmdline)
    (object : call.object md5 opts = some obj) (isReg : call.st.fileType = .reg)
    (alone : linkTarget call.save call.st = none) {contents : List UInt8}
    (reads : call.calls.Reads contents) (size : contents.length = call.st.size.toNat) :
    obj.contents = contents := by
  obtain ⟨other, attrs, -⟩ := SaveCall.produced_of_object object
  obtain ⟨own, found, same, -⟩ := SaveCall.object_reads sizes isReg size reads attrs other alone
  rw [object, Option.some.injEq] at found
  rw [found, same]

/-- A symbolic link that was made from its header is the visited one again. -/
theorem symlinkRemade_of_made (sound : call.Sound) (object : call.object md5 opts = some obj)
    (type : call.st.fileType = .lnk)
    (entry : EntryMade ctx made (call.visited.fullpath ctx)
      (objectDico opts call.save call.relpath call.st call.calls) .symlink) :
    ∃ target, call.calls.readlink = some target ∧ call.visited.SymlinkRemade ctx made target := by
  have ok := SaveCall.stdattrOk_of_object object
  obtain ⟨target, link⟩ : ∃ target, call.calls.readlink = some target := by
    simp only [stdattrOk, type] at ok
    exact Option.isSome_iff_exists.mp ok
  obtain ⟨fixed, read, made⟩ := entry
  rw [readTarget_congr (find_objectDico ..),
    readTarget_symlink type link (sound.fromKernel.readlink target link), Option.some.injEq] at read
  rw [dicoGetU64_congr (find_objectDico ..), dicoGetU64_targettype ctx.mem type link, ← read] at made
  refine ⟨target, link, ?_⟩
  unfold VisitedObject.SymlinkRemade SaveCall.visited
  dsimp only
  obtain none | dir | file := symlinkTargettype_cases call.save.fstype call.calls.linkTarget
  · rw [none] at made ⊢
    exact made
  · rw [dir] at made ⊢
    cases ntfs : ctx.ntfs with
    | false =>
      rw [ntfs] at made
      exact made
    | true =>
      rw [ntfs] at made
      exact (made.resolve_right fun other => absurd other.1 (by decide)).2
  · rw [file] at made ⊢
    cases ntfs : ctx.ntfs with
    | false =>
      rw [ntfs] at made
      exact made
    | true =>
      rw [ntfs] at made
      exact (made.resolve_left fun other => absurd other.1 (by decide)).2

/-- An object that was restored was made again. -/
theorem entryRemade_of_restored (sizes : opts.FromCmdline) (sound : call.Sound)
    (object : call.object md5 opts = some obj) (saved : obj.saved = true)
    (restored : obj.Restored ctx [] made) : call.visited.EntryRemade ctx made := by
  obtain ⟨relpath, -, objtype, -⟩ := SaveCall.fields_of_object object
  have place : obj.fullpath ctx = call.visited.fullpath ctx := by
    rw [SavedObj.fullpath, relpath]
    rfl
  have isRegfile := SaveCall.isRegfile_of_object object
  have ok := SaveCall.stdattrOk_of_object object
  -- what has no contents was made of the header that was saved
  have entry (other : obj.objtype.isRegfile = false) : EntryMade ctx made (call.visited.fullpath ctx)
      (objectDico opts call.save call.relpath call.st call.calls)
      (objectType opts call.save call.st) := by
    have header := (SaveCall.header_of_object object).resolve_right fun multi => by
      rw [multi.1] at other
      cases other
    have own := restored.entry other
    rwa [List.nil_append, objtype, header, place] at own
  rw [objtype] at isRegfile entry
  have mode := (@savedHeader_objectDico opts call.save call.relpath _ _ ok
    sound.fromKernel).mode ctx.mem
  unfold VisitedObject.EntryRemade SaveCall.visited
  dsimp only
  cases type : call.st.fileType with
  | other => simp [stdattrOk, type] at ok
  | dir =>
    simp only [objectType, type] at entry
    exact entry rfl
  | lnk =>
    simp only [objectType, type] at entry
    exact symlinkRemade_of_made sound object type (entry rfl)
  | chr | blk | fifo | sock =>
    simp only [objectType, type] at entry
    obtain ⟨dev, perms, device, read, called⟩ := entry rfl
    rw [dicoGetU64_congr (find_objectDico ..), dicoGetU64_rdev ctx.mem (by simp [type]),
      Option.some.injEq] at device
    rw [mode, Option.some.injEq] at read
    rw [device, read]
    exact called
  | reg =>
    simp only [↓reduceIte]
    cases seen : linkTarget call.save call.st with
    | some target =>
      simp only [objectType, type, seen, Option.isSome_some, ↓reduceIte] at entry
      obtain ⟨short, clean⟩ := sound.fitTarget target seen
      have found := find_stdattrDico_hardlink opts call.save call.relpath call.st call.calls type seen
      rw [← find_objectDico] at found
      obtain ⟨target', read, called⟩ := entry rfl
      rw [readTarget_of_find found short clean, Option.some.injEq] at read
      rw [read]
      exact called
    | none =>
      have regfile := isRegfile.mpr ⟨type, seen⟩
      rw [← objtype] at regfile
      have written := restored.file regfile
      rw [place] at written
      exact ⟨obj.contents, written, SaveCall.length_contents sizes object saved regfile,
        fun read reads size => SaveCall.contents_of_object sizes object type seen reads size⟩

/-- An object that was restored is the visited one again. -/
theorem VisitedObject.Becomes.remade (sizes : opts.FromCmdline)
    (becomes : object.Becomes md5 opts obj) (restored : obj.Restored ctx [] made) :
    object.Remade ctx made := by
  obtain ⟨call, sound, rfl, object, saved⟩ := becomes
  obtain ⟨relpath, -, objtype, -⟩ := SaveCall.fields_of_object object
  obtain ⟨-, attrs, -⟩ := SaveCall.produced_of_object object
  have place : obj.fullpath ctx = call.visited.fullpath ctx := by
    rw [SavedObj.fullpath, relpath]
    rfl
  have attributed := restored.attributed
  rw [place, objtype] at attributed
  obtain ⟨objectid, found⟩ := (SaveCall.savedHeader_of_object sound object).std
  have std := readStdAttr_of_find found ctx.mem
  obtain ⟨xattr, winattr⟩ := SaveCall.attrs_of_object sound object
  simp only [attrsOk, Bool.and_eq_true, Bool.or_eq_true, Bool.not_eq_true'] at attrs
  obtain ⟨⟨-, xattrsOk⟩, winattrsOk⟩ := attrs
  constructor
  case entry => exact entryRemade_of_restored sizes sound object saved restored
  case owner => exact attributed.owner _ std
  case mode => exact fun other => attributed.mode _ std (mt objectType_symlink.mp other)
  case xattrs =>
    intro support attr member value got
    have ok := xattrsOk.resolve_left (ne_false_of_eq_true support)
    exact attributed.sets (by simp) xattr (mem_savedXattrs support ok member got)
  case winattrs =>
    intro support name member size value sized got
    have ok := winattrsOk.resolve_left (ne_false_of_eq_true support)
    exact attributed.sets (by simp) winattr (mem_savedWinattrs support ok member sized got)

end Becomes

end FsArchiver
