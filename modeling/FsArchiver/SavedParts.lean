import FsArchiver.RestorePacks

/-!
# What a walk leaves in the archive

Every call of `createar_save_file` leaves one object or none, and the packets of a walk hold these
objects: the small ones in packs, in their order, and all others one by one, in theirs. A packet
with its objects is a part of the archive.
-/
namespace FsArchiver

open Lib

/-! ## Objects made of a header -/

/-- The header of an object that is made of it says how. -/
def SavedObj.Explained (obj : SavedObj) : Prop :=
  match obj.objtype with
  | .dir => True
  | .symlink => ∀ mem, (readTarget obj.d ItemKey.symlink).isSome ∧
      ∀ targettype, dicoGetU64 mem obj.d Section.stdattr ItemKey.linktargettype = some targettype →
        targettype = ObjType.dir.code.toUInt64 ∨ targettype = ObjType.regfileunique.code.toUInt64
  | .hardlink => ∃ target, readTarget obj.d ItemKey.hardlink = some target
  | .chardev | .blockdev | .fifo | .socket =>
      ∀ mem, (dicoGetU64 mem obj.d Section.stdattr ItemKey.rdev).isSome
  | .null | .regfileunique | .regfilemulti => False

/-- Regular files are made of more than a header. -/
theorem SavedObj.Explained.isEntry {obj : SavedObj} (explained : obj.Explained) :
    obj.objtype.isRegfile = false ∧ obj.objtype ≠ .null := by
  unfold SavedObj.Explained at explained
  cases type : obj.objtype with
  | null | regfileunique | regfilemulti =>
    rw [type] at explained
    exact explained.elim
  | dir | symlink | hardlink | chardev | blockdev | fifo | socket => exact ⟨rfl, by decide⟩

/-- The object is a hard link to this path. -/
def SavedObj.LinksTo (obj : SavedObj) (target : Path) : Prop :=
  obj.objtype = .hardlink ∧ readTarget obj.d ItemKey.hardlink = some target

/-- All that is needed to make an object is in its header, but for the target of a hard link. -/
theorem SavedObj.Explained.makeable {obj : SavedObj} (explained : obj.Explained)
    (wellMade : obj.WellMade) (ctx : Context) {log : Log}
    (linked : ∀ target, obj.LinksTo target →
      (contentAt log (concatenatePaths ctx.destdir target)).isSome) :
    Makeable ctx log obj.d obj.objtype := by
  have mode := wellMade.header.mode ctx.mem
  unfold SavedObj.Explained at explained
  unfold SavedObj.LinksTo at linked
  cases type : obj.objtype with
  | null | regfileunique | regfilemulti =>
    rw [type] at explained
    exact explained.elim
  | dir => trivial
  | symlink =>
    rw [type] at explained
    exact explained ctx.mem
  | hardlink =>
    rw [type] at explained linked
    obtain ⟨target, read⟩ := explained
    exact ⟨target, read, linked target ⟨rfl, read⟩⟩
  | chardev | blockdev | fifo | socket =>
    rw [type] at explained
    exact ⟨explained ctx.mem, Option.isSome_iff_exists.mpr ⟨_, mode⟩⟩

section Header

variable {opts : SaveOptions} {save : Savear} {relpath : Path} {st : Stat} {calls : ObjectCalls}

/-- The header of a saved object says how to make it. -/
theorem explained_objectDico (ok : stdattrOk st calls = true) (fromKernel : calls.FromKernel)
    (fitTarget : ∀ target, linkTarget save st = some target → target.length < pathMax ∧ 0 ∉ target)
    (isEntry : (objectType opts save st).isRegfile = false) (contents : List UInt8) (saved : Bool) :
    SavedObj.Explained ⟨objectDico opts save relpath st calls, relpath, objectType opts save st, st,
      contents, saved⟩ := by
  unfold SavedObj.Explained objectType at *
  cases type : st.fileType with
  | dir => trivial
  | other => simp [stdattrOk, type] at ok
  | lnk =>
    obtain ⟨target, link⟩ : ∃ target, calls.readlink = some target := by
      simp only [stdattrOk, type] at ok
      exact Option.isSome_iff_exists.mp ok
    intro mem
    dsimp only
    rw [readTarget_congr (find_objectDico ..), dicoGetU64_congr (find_objectDico ..),
      readTarget_symlink type link (fromKernel.readlink target link),
      dicoGetU64_targettype mem type link]
    refine ⟨rfl, fun targettype read => ?_⟩
    obtain none | dir | file := symlinkTargettype_cases save.fstype calls.linkTarget
    · rw [none] at read
      cases read
    · rw [dir] at read
      exact .inl (Option.some.inj read).symm
    · rw [file] at read
      exact .inr (Option.some.inj read).symm
  | reg =>
    cases seen : linkTarget save st with
    | none =>
      simp only [type, seen, Option.isSome_none, Bool.false_eq_true, ↓reduceIte] at isEntry
      unfold regfileType at isEntry
      split at isEntry <;> cases isEntry
    | some target =>
      obtain ⟨short, clean⟩ := fitTarget target seen
      have found : (objectDico opts save relpath st calls).find Section.stdattr ItemKey.hardlink =
          some (dicoAddString Section.stdattr ItemKey.hardlink target).item := by
        rw [find_objectDico, find_stdattrDico_hardlink opts save relpath st calls type seen]
      exact ⟨target, readTarget_of_find found short clean⟩
  | chr | blk | fifo | sock =>
    intro mem
    rw [dicoGetU64_congr (find_objectDico ..), dicoGetU64_rdev mem (by simp [type])]
    rfl

end Header

/-! ## Contents -/

/-- A positive block size that fits its field. -/
theorem SaveOptions.FromCmdline.blocksize {opts : SaveOptions} (sizes : opts.FromCmdline) :
    0 < opts.datablocksize ∧ opts.datablocksize < 2 ^ 32 := by
  have block := sizes.datablocksize
  simp only [List.mem_cons, List.not_mem_nil, or_false, maxBlkSize] at block
  omega

/-- The blocks of a file follow each other up to its size, or up to the read that failed. -/
theorem regfileBlocks_chunked (fsid : UInt16) {blksize filesize : Nat}
    (file : Nat → Nat → Option (List UInt8)) (positive : 0 < blksize) (small : blksize < 2 ^ 32)
    (fuel pos : Nat) (eof : Bool) (inside : pos ≤ filesize) (enough : filesize ≤ pos + fuel) :
    ∃ contents, Chunked fsid pos contents
        (regfileBlocks fsid blksize filesize file fuel pos eof).blocks ∧
      if (regfileBlocks fsid blksize filesize file fuel pos eof).failed then
        pos + contents.length < filesize
      else pos + contents.length = filesize := by
  induction fuel generalizing pos eof with
  | zero => exact ⟨[], Chunked.nil pos, by simp [regfileBlocks]; omega⟩
  | succ fuel ih =>
    by_cases more : pos < filesize
    · have next := ih (pos + min (filesize - pos) blksize)
      -- a block of the current size, whatever it holds
      have block (data : List UInt8) (eof : Bool) (length : data.length = min (filesize - pos) blksize) :
          ∃ contents, Chunked fsid pos contents (regfileBlock fsid pos data ::
              (regfileBlocks fsid blksize filesize file fuel (pos + min (filesize - pos) blksize)
                eof).blocks) ∧
            if (regfileBlocks fsid blksize filesize file fuel (pos + min (filesize - pos) blksize)
                eof).failed then pos + contents.length < filesize
            else pos + contents.length = filesize := by
        obtain ⟨contents, chunked, ends⟩ := next eof (by omega) (by omega)
        refine ⟨data ++ contents, Chunked.cons ?_ (by omega) (by rw [length]; exact chunked), ?_⟩
        · intro empty
          rw [empty, List.length_nil] at length
          omega
        · rw [List.length_append, length, ← Nat.add_assoc]
          exact ends
      simp only [regfileBlocks, more, ↓reduceIte]
      cases eof with
      | true => exact block _ true List.length_replicate
      | false =>
        cases found : readFile file pos (min (filesize - pos) blksize) with
        | none => exact ⟨[], Chunked.nil pos, by simpa using more⟩
        | some read =>
          have short : read.length ≤ min (filesize - pos) blksize := by
            obtain ⟨bytes, -, rfl⟩ := Option.map_eq_some_iff.mp found
            exact List.length_take_le _ bytes
          by_cases whole : read.length = min (filesize - pos) blksize
          · simp only [Bool.false_eq_true, ↓reduceIte, whole]
            exact block read false whole
          · simp only [Bool.false_eq_true, ↓reduceIte, whole]
            refine block _ true ?_
            rw [List.length_append, List.length_replicate]
            omega
    · refine ⟨[], ?_, ?_⟩
      · simp only [regfileBlocks, more, ↓reduceIte]
        exact Chunked.nil pos
      · simp only [regfileBlocks, more, ↓reduceIte, Bool.false_eq_true, List.length_nil]
        omega

/-- The blocks of a file that is read. -/
theorem readBlocks_chunked {opts : SaveOptions} (sizes : opts.FromCmdline) (fsid : UInt16)
    (st : Stat) (file : Nat → Nat → Option (List UInt8)) :
    let loop := readBlocks opts fsid st file
    Chunked fsid 0 (blocksData loop.blocks) loop.blocks ∧
      if loop.failed then (blocksData loop.blocks).length < st.size.toNat
      else (blocksData loop.blocks).length = st.size.toNat := by
  obtain ⟨positive, small⟩ := sizes.blocksize
  obtain ⟨contents, chunked, ends⟩ := regfileBlocks_chunked fsid file positive small
    st.size.toNat 0 false (Nat.zero_le st.size.toNat) (Nat.le_of_eq (Nat.zero_add _).symm)
  rw [Nat.zero_add] at ends
  intro loop
  have data : blocksData loop.blocks = contents := blocksData_chunked chunked
  rw [data]
  exact ⟨chunked, ends⟩

/-- The file can be opened and read, and has these contents. -/
def ObjectCalls.Reads (calls : ObjectCalls) (contents : List UInt8) : Prop :=
  ∃ file, calls.openFile = some file ∧
    ∀ pos count, readFile file pos count = some ((contents.drop pos).take count)

/-- The blocks of a file that can be read hold its contents. -/
theorem regfileBlocks_reads (fsid : UInt16) {blksize : Nat} {contents : List UInt8}
    {file : Nat → Nat → Option (List UInt8)}
    (reads : ∀ pos count, readFile file pos count = some ((contents.drop pos).take count))
    (positive : 0 < blksize) (fuel pos : Nat) (enough : contents.length ≤ pos + fuel) :
    let loop := regfileBlocks fsid blksize contents.length file fuel pos false
    loop.failed = false ∧ loop.complete = true ∧ blocksData loop.blocks = contents.drop pos := by
  induction fuel generalizing pos with
  | zero =>
    have past : contents.drop pos = [] := List.drop_eq_nil_of_le (by omega)
    simp [regfileBlocks, blocksData, past]
  | succ fuel ih =>
    by_cases more : pos < contents.length
    · obtain ⟨unfailed, complete, data⟩ := ih (pos + min (contents.length - pos) blksize) (by omega)
      have length : ((contents.drop pos).take (min (contents.length - pos) blksize)).length =
          min (contents.length - pos) blksize := by
        rw [List.length_take, List.length_drop]
        omega
      simp only [regfileBlocks, more, ↓reduceIte, Bool.false_eq_true, reads, length]
      refine ⟨unfailed, by rw [complete]; rfl, ?_⟩
      unfold blocksData at data ⊢
      rw [List.flatMap_cons, data, ← List.drop_drop]
      exact List.take_append_drop _ _
    · have past : contents.drop pos = [] := List.drop_eq_nil_of_le (by omega)
      simp [regfileBlocks, more, blocksData, past]

/-! ## Parts -/

/-- A packet and the objects it is for. -/
inductive Part where
  /-- An object made of its header. -/
  | single (obj : SavedObj)
  /-- A file with all its blocks. -/
  | file (obj : SavedObj) (blocks : List BlockInfo)
  /-- A file that could not be read to its end. -/
  | cut (obj : SavedObj) (blocks : List BlockInfo)
  /-- Small files. -/
  | pack (objs : List SavedObj)

namespace Part

/-- The packet. -/
def packet : Part → Packet
  | single obj => .single obj.d
  | file obj blocks => .file obj.d blocks
  | cut obj blocks => .cut obj.d blocks
  | pack objs => .pack (objs.map SavedObj.packEntry)

/-- The objects. -/
def objs : Part → List SavedObj
  | single obj | file obj _ | cut obj _ => [obj]
  | pack objs => objs

/-- What is known of every part of an archive. -/
def WellMade (md5 : Md5) (fsid : UInt16) : Part → Prop
  | single obj => obj.WellMade ∧ obj.Explained
  | file obj blocks => obj.WellMade ∧ obj.objtype = .regfileunique ∧
      obj.contents.length = obj.st.size.toNat ∧ Chunked fsid 0 obj.contents blocks
  | cut obj blocks => obj.WellMade ∧ obj.objtype = .regfileunique ∧
      obj.contents.length < obj.st.size.toNat ∧ Chunked fsid 0 obj.contents blocks ∧
      obj.saved = false
  | pack objs => objs ≠ [] ∧ (∀ obj ∈ objs, obj.Packed md5) ∧ objs.length ≤ maxSmallFileCount ∧
      ((objs.map SavedObj.packEntry).flatMap Prod.snd).length ≤ maxBlkSize

end Part

/-- The objects of parts in a row. -/
def partObjs (parts : List Part) : List SavedObj := parts.flatMap Part.objs

@[simp] theorem partObjs_append (first second : List Part) :
    partObjs (first ++ second) = partObjs first ++ partObjs second := List.flatMap_append

@[simp] theorem partObjs_cons (part : Part) (parts : List Part) :
    partObjs (part :: parts) = part.objs ++ partObjs parts := List.flatMap_cons

/-! ## Calls -/

/-- What a call adds to the archive. -/
inductive Piece where
  | nothing
  /-- A part at once. -/
  | now (part : Part)
  /-- A small file that waits for its pack. -/
  | later (obj : SavedObj)

/-- Its object. -/
def Piece.object : Piece → Option SavedObj
  | .nothing | .now (.pack _) => none
  | .now (.single obj) | .now (.file obj _) | .now (.cut obj _) | .later obj => some obj

/-- What is produced for a visited object, with the object. -/
def Produced.piece (relpath : Path) (objtype : ObjType) (st : Stat) : Produced × Bool → Piece
  | (.nothing, _) | (.now (.pack _), _) => .nothing
  | (.now (.single d), saved) => .now (.single { d, relpath, objtype, st, contents := [], saved })
  | (.now (.file d blocks), saved) =>
    .now (.file { d, relpath, objtype, st, contents := blocksData blocks, saved } blocks)
  | (.now (.cut d blocks), saved) =>
    .now (.cut { d, relpath, objtype, st, contents := blocksData blocks, saved } blocks)
  | (.later entry, saved) =>
    .later { d := entry.1, relpath, objtype, st, contents := entry.2, saved }

/-- What a call produces. -/
def SaveCall.produced (md5 : Md5) (opts : SaveOptions) (call : SaveCall) : Produced × Bool :=
  FsArchiver.produced md5 opts call.save call.relpath call.st call.calls

/-- What a call adds to the archive. -/
def SaveCall.piece (md5 : Md5) (opts : SaveOptions) (call : SaveCall) : Piece :=
  Produced.piece call.relpath (objectType opts call.save call.st) call.st (call.produced md5 opts)

/-- The object that a call adds to the archive. -/
def SaveCall.object (md5 : Md5) (opts : SaveOptions) (call : SaveCall) : Option SavedObj :=
  (call.piece md5 opts).object

/-- What is known of a call whose object is restored later. -/
structure SaveCall.Sound (call : SaveCall) : Prop where
  /-- The answers come from the kernel. -/
  fromKernel : call.calls.FromKernel
  /-- The path fits its buffer. -/
  fits : call.relpath.length < pathMax ∧ 0 ∉ call.relpath
  /-- So does the target of a hard link. -/
  fitTarget : ∀ target, linkTarget call.save call.st = some target →
    target.length < pathMax ∧ 0 ∉ target

section Made

variable {md5 : Md5} {opts : SaveOptions}

/-- A packed file is not empty. -/
theorem positive_of_objectType {save : Savear} {st : Stat}
    (packed : objectType opts save st = .regfilemulti) : 0 < st.size.toNat := by
  unfold objectType at packed
  cases type : st.fileType with
  | reg =>
    simp only [type] at packed
    split at packed
    · cases packed
    · unfold regfileType at packed
      split at packed
      next small => exact UInt64.lt_iff_toNat_lt.mp small.1
      next => cases packed
  | dir | lnk | chr | blk | fifo | sock | other => simp [type] at packed

/-- The digest of a small file is read back. -/
theorem md5sum_objectDico (opts : SaveOptions) (save : Savear) (relpath : Path) (st : Stat)
    (calls : ObjectCalls) (databuf : List UInt8) :
    dicoGetData (dicoAddAll (objectDico opts save relpath st calls)
      [dicoAddData Section.stdattr ItemKey.md5sum (md5.digest databuf)]) Section.stdattr
      ItemKey.md5sum 16 = some (md5.digest databuf) := by
  let call := dicoAddData Section.stdattr ItemKey.md5sum (md5.digest databuf)
  have length := md5.length_digest databuf
  have stored : call.item.data = md5.digest databuf :=
    show sizedData (md5.digest databuf) = _ from sizedData_of_lt (by rw [length]; decide)
  have found : (dicoAddAll (objectDico opts save relpath st calls) [call]).find Section.stdattr
      ItemKey.md5sum = some call.item := by
    rw [find_dicoAddAll, find_objectDico_later opts save relpath st calls (by simp)]
    rfl
  unfold dicoGetData
  rw [dicoGetGeneric_of_find found (by decide) (by rw [stored, length]), stored]

/-- What a call adds is well made, and stands for what it produces. -/
def SaveCall.Makes (md5 : Md5) (opts : SaveOptions) (call : SaveCall) : Prop :=
  match call.piece md5 opts with
  | .nothing => (call.produced md5 opts).1 = .nothing
  | .now part => (call.produced md5 opts).1 = .now part.packet ∧
      part.WellMade md5 call.save.fsid ∧
      ∃ obj, part.objs = [obj] ∧ call.object md5 opts = some obj ∧ obj.objtype ≠ .regfilemulti
  | .later obj => (call.produced md5 opts).1 = .later obj.packEntry ∧
      obj.Packed md5 ∧ obj.contents.length ≤ min opts.datablocksize maxBlkSize

/-- The object of a call is well made. -/
theorem SaveCall.Sound.makes {call : SaveCall} (sound : call.Sound) (sizes : opts.FromCmdline) :
    call.Makes md5 opts := by
  obtain ⟨fromKernel, fits, fitTarget⟩ := sound
  by_cases left : call.calls.isCurvol ∨ objectType opts call.save call.st = .null ∨
      attrsOk call.save.fstype call.relpath call.st call.calls = false
  · have nothing : call.produced md5 opts = (.nothing, false) := if_pos left
    unfold Makes SaveCall.object SaveCall.piece
    rw [nothing]
    rfl
  · have made : call.produced md5 opts = producedContents md5 opts call.save.fsid
        (objectType opts call.save call.st)
        (objectDico opts call.save call.relpath call.st call.calls) call.st call.calls := if_neg left
    simp only [not_or, Bool.not_eq_false] at left
    have ok : stdattrOk call.st call.calls = true := by
      have attrs := left.2.2
      simp only [attrsOk, Bool.and_eq_true] at attrs
      exact attrs.1.1
    have header := @savedHeader_objectDico opts call.save call.relpath _ _ ok fromKernel
    have wellMade (contents : List UInt8) (saved : Bool) : SavedObj.WellMade
        ⟨objectDico opts call.save call.relpath call.st call.calls, call.relpath,
          objectType opts call.save call.st, call.st, contents, saved⟩ :=
      ⟨header, fits.1, fits.2⟩
    unfold Makes SaveCall.object SaveCall.piece
    rw [made]
    cases type : objectType opts call.save call.st with
    | null => exact absurd type left.2.1
    | dir | symlink | hardlink | chardev | blockdev | fifo | socket =>
      have explained := @explained_objectDico opts _ call.relpath _ _ ok fromKernel fitTarget
          (by rw [type]; rfl) [] true
      have whole := wellMade [] true
      rw [type] at explained whole
      cases call.calls.openFile <;>
        exact ⟨rfl, ⟨whole, explained⟩, _, rfl, rfl, fun same => by cases same⟩
    | regfileunique =>
      cases opened : call.calls.openFile with
      | none => simp [producedContents, opened, Produced.piece]
      | some file =>
        obtain ⟨chunked, ends⟩ := readBlocks_chunked sizes call.save.fsid call.st file
        have whole (saved : Bool) := wellMade
          (blocksData (readBlocks opts call.save.fsid call.st file).blocks) saved
        simp only [type] at whole
        cases failed : (readBlocks opts call.save.fsid call.st file).failed with
        | true =>
          rw [failed, if_pos rfl] at ends
          simp only [producedContents, opened, failed, ↓reduceIte, Produced.piece]
          exact ⟨rfl, ⟨whole false, rfl, ends, chunked, rfl⟩, _, rfl, rfl, fun same => by cases same⟩
        | false =>
          rw [failed, if_neg (by decide)] at ends
          simp only [producedContents, opened, failed, Bool.false_eq_true, ↓reduceIte,
            Produced.piece]
          exact ⟨rfl, ⟨whole _, rfl, ends, chunked⟩, _, rfl, rfl, fun same => by cases same⟩
    | regfilemulti =>
      cases opened : call.calls.openFile with
      | none => simp [producedContents, opened, Produced.piece]
      | some file =>
        cases found : readFile file 0 call.st.size.toNat with
        | none => simp [producedContents, opened, found, Produced.piece]
        | some read =>
          have small := small_of_objectType type
          obtain ⟨smallFile, room⟩ := sizes.fits small
          have length := length_padded found
          have packable := (smallHeader_objectDico opts call.save call.relpath call.st
            call.calls).packable smallFile length (md5.digest (padded read call.st.size.toNat))
          simp only [producedContents, opened, found, Produced.piece]
          refine ⟨rfl, ⟨?_, rfl, ?_, packable, ?_⟩, by rw [length]; exact room⟩
          · refine ⟨?_, fits.1, fits.2⟩
            rw [type] at header
            exact header.add (by simp [dicoAddData])
          · have positive := positive_of_objectType type
            intro empty
            have none : padded read call.st.size.toNat = [] := empty
            rw [none, List.length_nil] at length
            omega
          · exact md5sum_objectDico opts call.save call.relpath call.st call.calls _

/-! ## The parts of a walk -/

/-- The object goes into a pack. -/
def SavedObj.small (obj : SavedObj) : Bool := decide (obj.objtype = .regfilemulti)

/-- The same objects, of which the small ones and the others keep their order, while small ones may
come later. -/
structure SameOrder (objs objs' : List SavedObj) : Prop where
  small : objs.filter SavedObj.small = objs'.filter SavedObj.small
  large : (objs.filter fun obj => !obj.small) = objs'.filter fun obj => !obj.small
  behind : ∀ first second, first.small = false → [first, second].Sublist objs' →
    [first, second].Sublist objs

theorem SameOrder.perm {objs objs' : List SavedObj} (same : SameOrder objs objs') :
    objs.Perm objs' := by
  have first := List.filter_append_perm SavedObj.small objs
  have second := List.filter_append_perm SavedObj.small objs'
  rw [same.small, same.large] at first
  exact first.symm.trans second

/-- Two entries of a list in two parts. -/
theorem pair_sublist_append {α : Type} {first second : α} {front rest : List α} :
    [first, second].Sublist (front ++ rest) ↔ [first, second].Sublist front ∨
      (first ∈ front ∧ second ∈ rest) ∨ [first, second].Sublist rest := by
  rw [List.sublist_append_iff]
  constructor
  · rintro ⟨left, right, split, inFront, inRest⟩
    match left with
    | [] =>
      rw [List.nil_append] at split
      exact .inr (.inr (split ▸ inRest))
    | [one] =>
      simp only [List.cons_append, List.nil_append, List.cons.injEq] at split
      obtain ⟨rfl, rfl⟩ := split
      exact .inr (.inl ⟨List.singleton_sublist.mp inFront, List.singleton_sublist.mp inRest⟩)
    | one :: two :: more =>
      simp only [List.cons_append, List.cons.injEq] at split
      obtain ⟨rfl, rfl, none⟩ := split
      obtain ⟨rfl, -⟩ := List.append_eq_nil_iff.mp none.symm
      exact .inl inFront
  · rintro (inFront | ⟨inFront, inRest⟩ | inRest)
    · exact ⟨[first, second], [], rfl, inFront, List.nil_sublist _⟩
    · exact ⟨[first], [second], rfl, List.singleton_sublist.mpr inFront,
        List.singleton_sublist.mpr inRest⟩
    · exact ⟨[], [first, second], rfl, List.nil_sublist _, inRest⟩

theorem SameOrder.append {objs objs' more more' : List SavedObj} (first : SameOrder objs objs')
    (second : SameOrder more more') : SameOrder (objs ++ more) (objs' ++ more') where
  small := by rw [List.filter_append, List.filter_append, first.small, second.small]
  large := by rw [List.filter_append, List.filter_append, first.large, second.large]
  behind := by
    intro obj obj' large inside
    rw [pair_sublist_append] at inside ⊢
    rcases inside with inFront | ⟨inFront, inRest⟩ | inRest
    · exact .inl (first.behind obj obj' large inFront)
    · exact .inr (.inl ⟨first.perm.mem_iff.mpr inFront, second.perm.mem_iff.mpr inRest⟩)
    · exact .inr (.inr (second.behind obj obj' large inRest))

theorem SameOrder.refl (objs : List SavedObj) : SameOrder objs objs :=
  ⟨rfl, rfl, fun _ _ _ inside => inside⟩

theorem SameOrder.trans {objs objs' objs'' : List SavedObj} (first : SameOrder objs objs')
    (second : SameOrder objs' objs'') : SameOrder objs objs'' where
  small := first.small.trans second.small
  large := first.large.trans second.large
  behind obj obj' large inside := first.behind obj obj' large (second.behind obj obj' large inside)

/-- Other objects overtake those that are small. -/
theorem SameOrder.overtake {waiting objs : List SavedObj} (small : ∀ obj ∈ waiting, obj.small = true)
    (large : ∀ obj ∈ objs, obj.small = false) : SameOrder (objs ++ waiting) (waiting ++ objs) where
  small := by
    have noSmall : objs.filter SavedObj.small = [] :=
      List.filter_eq_nil_iff.mpr fun obj member => by simp [large obj member]
    rw [List.filter_append, List.filter_append, noSmall, List.nil_append, List.append_nil]
  large := by
    have noLarge : (waiting.filter fun obj => !obj.small) = [] :=
      List.filter_eq_nil_iff.mpr fun obj member => by simp [small obj member]
    rw [List.filter_append, List.filter_append, noLarge, List.nil_append, List.append_nil]
  behind obj obj' isLarge inside := by
    have apart : obj ∉ waiting := fun member => by simp [small obj member] at isLarge
    rw [pair_sublist_append] at inside ⊢
    rcases inside with inFront | ⟨inFront, -⟩ | inRest
    · exact absurd (inFront.subset List.mem_cons_self) apart
    · exact absurd inFront apart
    · exact .inl inRest

/-- The objects that wait for their pack. -/
structure Waiting (md5 : Md5) (opts : SaveOptions) (objs : List SavedObj) : Prop where
  packed : ∀ obj ∈ objs, obj.Packed md5
  few : objs.length ≤ maxSmallFileCount
  room : ((objs.map SavedObj.packEntry).flatMap Prod.snd).length ≤ min opts.datablocksize maxBlkSize

theorem Waiting.nil : Waiting md5 opts [] := ⟨by simp, Nat.zero_le _, Nat.zero_le _⟩

theorem Waiting.small {waiting : List SavedObj} (waits : Waiting md5 opts waiting) :
    ∀ obj ∈ waiting, obj.small = true :=
  fun obj member => decide_eq_true (waits.packed obj member).multi

/-- Those that wait make a pack. -/
theorem Waiting.pack {waiting : List SavedObj} (waits : Waiting md5 opts waiting)
    (nonempty : waiting ≠ []) (fsid : UInt16) : (Part.pack waiting).WellMade md5 fsid :=
  ⟨nonempty, waits.packed, waits.few, waits.room.trans (Nat.min_le_right _ _)⟩

/-- A small file waits with the others, or alone once their pack is full. -/
def addPiece (maxblksize : Nat) (waiting : List SavedObj) : Piece → List Part × List SavedObj
  | .nothing => ([], waiting)
  | .now part => ([part], waiting)
  | .later obj =>
    if waiting.length < maxSmallFileCount ∧
        ((waiting.map SavedObj.packEntry).flatMap Prod.snd).length + obj.contents.length ≤
          maxblksize then ([], waiting ++ [obj])
    else ([.pack waiting], [obj])

/-- The parts that pieces make, and the small files that wait behind them. -/
def partsFrom (maxblksize : Nat) (waiting : List SavedObj) :
    List Piece → List Part × List SavedObj
  | [] => ([], waiting)
  | piece :: rest =>
    let added := addPiece maxblksize waiting piece
    let later := partsFrom maxblksize added.2 rest
    (added.1 ++ later.1, later.2)

/-- All parts, with the last pack. -/
def allParts (maxblksize : Nat) (pieces : List Piece) : List Part :=
  let added := partsFrom maxblksize [] pieces
  added.1 ++ if added.2 = [] then [] else [.pack added.2]

/-- A small file is added. -/
theorem Waiting.add {waiting : List SavedObj} (waits : Waiting md5 opts waiting) {obj : SavedObj}
    (packed : obj.Packed md5) (fits : obj.contents.length ≤ min opts.datablocksize maxBlkSize)
    (fsid : UInt16) :
    let added := addPiece (min opts.datablocksize maxBlkSize) waiting (.later obj)
    addEntry (min opts.datablocksize maxBlkSize) (waiting.map SavedObj.packEntry) obj.packEntry =
        (added.1.map Part.packet, added.2.map SavedObj.packEntry) ∧
      (∀ part ∈ added.1, part.WellMade md5 fsid) ∧ Waiting md5 opts added.2 ∧
      partObjs added.1 ++ added.2 = waiting ++ [obj] := by
  have alone : Waiting md5 opts [obj] :=
    ⟨by simpa using packed, by rw [List.length_singleton]; decide,
      by simpa [SavedObj.packEntry] using fits⟩
  intro added
  by_cases room : waiting.length < maxSmallFileCount ∧
      ((waiting.map SavedObj.packEntry).flatMap Prod.snd).length + obj.contents.length ≤
        min opts.datablocksize maxBlkSize
  · have waits' : added = ([], waiting ++ [obj]) := if_pos room
    have entry : addEntry (min opts.datablocksize maxBlkSize) (waiting.map SavedObj.packEntry)
        obj.packEntry = ([], waiting.map SavedObj.packEntry ++ [obj.packEntry]) :=
      if_pos (by rw [List.length_map]; exact room)
    rw [waits', entry]
    refine ⟨by simp, by simp, ⟨?_, ?_, ?_⟩, rfl⟩
    · intro other member
      rcases List.mem_append.mp member with member | member
      · exact waits.packed other member
      · exact List.mem_singleton.mp member ▸ packed
    · rw [List.length_append, List.length_singleton]
      omega
    · rw [List.map_append, List.flatMap_append, List.length_append]
      simpa [SavedObj.packEntry] using room.2
  · have full : added = ([.pack waiting], [obj]) := if_neg room
    have entry : addEntry (min opts.datablocksize maxBlkSize) (waiting.map SavedObj.packEntry)
        obj.packEntry = ([.pack (waiting.map SavedObj.packEntry)], [obj.packEntry]) :=
      if_neg (by rw [List.length_map]; exact room)
    have nonempty : waiting ≠ [] := by
      rintro rfl
      exact room ⟨by decide, by simpa using fits⟩
    rw [full, entry]
    exact ⟨rfl, by simpa using waits.pack nonempty fsid, alone, by simp [partObjs, Part.objs]⟩

/-- What calls add is made of parts. -/
theorem parts_packetsFrom {fsid : UInt16} {calls : List SaveCall}
    (makes : ∀ call ∈ calls, call.Makes md5 opts) (fsids : ∀ call ∈ calls, call.save.fsid = fsid)
    {waiting : List SavedObj} (waits : Waiting md5 opts waiting) :
    let added := partsFrom (min opts.datablocksize maxBlkSize) waiting
      (calls.map (SaveCall.piece md5 opts))
    packetsFrom (min opts.datablocksize maxBlkSize) (waiting.map SavedObj.packEntry)
        (calls.map fun call => (call.produced md5 opts).1) =
          (added.1.map Part.packet, added.2.map SavedObj.packEntry) ∧
      (∀ part ∈ added.1, part.WellMade md5 fsid) ∧ Waiting md5 opts added.2 ∧
      SameOrder (partObjs added.1 ++ added.2)
        (waiting ++ calls.filterMap (SaveCall.object md5 opts)) := by
  induction calls generalizing waiting with
  | nil => exact ⟨rfl, by simp [partsFrom], waits, by simpa [partsFrom, partObjs] using SameOrder.refl waiting⟩
  | cons call calls ih =>
    have here := makes call List.mem_cons_self
    have own := fsids call List.mem_cons_self
    have onward {waiting : List SavedObj} (waits : Waiting md5 opts waiting) :=
      ih (fun call member => makes call (List.mem_cons_of_mem _ member))
        (fun call member => fsids call (List.mem_cons_of_mem _ member)) waits
    unfold SaveCall.Makes at here
    simp only [List.map_cons, packetsFrom, partsFrom]
    cases piece : call.piece md5 opts with
    | nothing =>
      rw [piece] at here
      obtain ⟨same, wellMade, waits', order⟩ := onward waits
      have none : call.object md5 opts = none := by
        unfold SaveCall.object
        rw [piece]
        rfl
      rw [show (call.produced md5 opts).1 = .nothing from here]
      simp only [addProduced, addPiece, same, List.nil_append]
      refine ⟨trivial, wellMade, waits', ?_⟩
      rw [List.filterMap_cons_none none]
      exact order
    | now part =>
      rw [piece] at here
      obtain ⟨made, partMade, obj, objs, object, large⟩ := here
      obtain ⟨same, wellMade, waits', order⟩ := onward waits
      rw [own] at partMade
      rw [made]
      simp only [addProduced, addPiece, same, List.singleton_append]
      refine ⟨rfl, List.forall_mem_cons.mpr ⟨partMade, wellMade⟩, waits', ?_⟩
      rw [partObjs_cons, objs, List.filterMap_cons_some object, List.append_assoc]
      have overtake : SameOrder ([obj] ++ waiting) (waiting ++ [obj]) :=
        SameOrder.overtake waits.small (by simpa [SavedObj.small] using large)
      refine ((SameOrder.refl [obj]).append order).trans ?_
      have whole := overtake.append (SameOrder.refl (calls.filterMap (SaveCall.object md5 opts)))
      simpa using whole
    | later obj =>
      rw [piece] at here
      obtain ⟨made, packed, fits⟩ := here
      obtain ⟨added, firstMade, waits₁, all⟩ := waits.add packed fits fsid
      obtain ⟨same, wellMade, waits', order⟩ := onward waits₁
      have object : call.object md5 opts = some obj := by
        unfold SaveCall.object
        rw [piece]
        rfl
      rw [made]
      simp only [addProduced, added, same, List.map_append, true_and]
      refine ⟨?_, waits', ?_⟩
      · intro part member
        exact (List.mem_append.mp member).elim (firstMade part) (wellMade part)
      · rw [partObjs_append, List.filterMap_cons_some object, List.append_assoc]
        refine ((SameOrder.refl (partObjs _)).append order).trans ?_
        rw [← List.append_assoc, all, List.append_assoc]
        exact SameOrder.refl _

/-- All packets of a walk are those of its parts. -/
theorem parts_allPackets {fsid : UInt16} {calls : List SaveCall}
    (makes : ∀ call ∈ calls, call.Makes md5 opts) (fsids : ∀ call ∈ calls, call.save.fsid = fsid) :
    let parts := allParts (min opts.datablocksize maxBlkSize) (calls.map (SaveCall.piece md5 opts))
    allPackets (min opts.datablocksize maxBlkSize)
        (calls.map fun call => (call.produced md5 opts).1) = parts.map Part.packet ∧
      (∀ part ∈ parts, part.WellMade md5 fsid) ∧
      SameOrder (partObjs parts) (calls.filterMap (SaveCall.object md5 opts)) := by
  obtain ⟨same, wellMade, waits, order⟩ := parts_packetsFrom makes fsids Waiting.nil
  rw [List.map_nil] at same
  unfold allPackets allParts
  rw [same]
  by_cases none : (partsFrom (min opts.datablocksize maxBlkSize) []
      (calls.map (SaveCall.piece md5 opts))).2 = []
  · simp only [none, List.map_nil, ↓reduceIte, List.append_nil] at order ⊢
    exact ⟨trivial, wellMade, order⟩
  · simp only [none, List.map_eq_nil_iff, ↓reduceIte, List.map_append, List.map_singleton]
    refine ⟨rfl, ?_, ?_⟩
    · intro part member
      rcases List.mem_append.mp member with member | member
      · exact wellMade part member
      · exact List.mem_singleton.mp member ▸ waits.pack none fsid
    · rw [partObjs_append]
      simpa [partObjs, Part.objs] using order

variable {mem : Mem} {visits : List Visit} {save : Savear}

/-- A walk stays in its filesystem. -/
theorem fsid_savedCalls (sizes : opts.FromCmdline) {files : List PackEntry}
    (pends : Pends opts save files) {call : SaveCall}
    (member : call ∈ savedCalls mem md5 opts false visits save) : call.save.fsid = save.fsid := by
  induction visits generalizing save files with
  | nil => cases member
  | cons visit rest ih =>
    cases visit with
    | stop => cases member
    | object relpath st calls =>
      obtain ⟨-, visited⟩ := @createarSaveFile_adds mem md5 _ _ _ pends sizes relpath st calls
      rcases List.mem_cons.mp member with rfl | member
      · rfl
      · cases ran : createarSaveFile mem md5 opts save relpath st calls false with
        | mk ok save' =>
          rw [ran] at visited member
          cases ok with
          | false => cases member
          | true => exact (ih visited.pends member).trans visited.fsid

/-- The calls of a walk are sound. -/
theorem sound_savedCalls (empty : save.dichardlinks = []) (fit : PathsFit (visitedPaths visits))
    (fromKernel : ∀ object ∈ savedObjects false visits, object.calls.FromKernel) :
    ∀ call ∈ savedCalls mem md5 opts false visits save, call.Sound := by
  intro call member
  have object : call.toSavedObject ∈ savedObjects false visits := by
    rw [← @savedCalls_objects mem md5 opts false visits save]
    exact List.mem_map_of_mem member
  obtain ⟨before, after, split⟩ := List.append_of_mem member
  have path := (savedObjects_paths false visits).subset (List.mem_map_of_mem object)
  exact ⟨fromKernel _ object, fit _ path, fun target => linkTarget_fits empty fit split⟩

/-- The objects of a walk in the order of its visits. -/
def walkObjs (mem : Mem) (md5 : Md5) (opts : SaveOptions) (visits : List Visit) (save : Savear) :
    List SavedObj :=
  (savedCalls mem md5 opts false visits (walkStart opts save)).filterMap (SaveCall.object md5 opts)

/-- The parts of a walk in the order of the archive. -/
def walkParts (mem : Mem) (md5 : Md5) (opts : SaveOptions) (visits : List Visit) (save : Savear) :
    List Part :=
  allParts (min opts.datablocksize maxBlkSize)
    ((savedCalls mem md5 opts false visits (walkStart opts save)).map (SaveCall.piece md5 opts))

/-- What visits put on the queue, together with the last pack, is made of parts. -/
theorem parts_visits (sizes : opts.FromCmdline) (save : Savear)
    (fit : PathsFit (visitedPaths visits))
    (fromKernel : ∀ object ∈ savedObjects false visits, object.calls.FromKernel) :
    let walked := (saveVisits mem md5 opts false visits (walkStart opts save)).2
    let parts := walkParts mem md5 opts visits save
    (walked.push (regmultiSaveEnqueue mem walked.regmulti walked.fsid).1).pushed =
        save.pushed ++ packetItems md5 save.fsid (parts.map Part.packet) ∧
      (∀ part ∈ parts, part.WellMade md5 save.fsid) ∧
      SameOrder (partObjs parts) (walkObjs mem md5 opts visits save) := by
  have sound := @sound_savedCalls md5 opts mem _ (walkStart opts save) rfl fit fromKernel
  obtain ⟨same, wellMade, order⟩ := @parts_allPackets md5 opts _ _
      (fun call member => (sound call member).makes sizes)
      (fun call member => fsid_savedCalls sizes (pends_walkStart opts save) member)
  refine ⟨?_, wellMade, order⟩
  rw [(saveVisits_packets sizes visits save).2, visitsProduced_eq, List.map_map]
  exact congrArg (save.pushed ++ packetItems md5 save.fsid ·) same

end Made

end FsArchiver
