import FsArchiver.SaveWalk

/-!
# Headers of objects

What `createar_item_stdattr` and `createar_save_file` do in one formula each, and what can be
read from the headers they make. An item of a header stays what it is when more is added, so
that the standard attributes are those of the first eight calls, whatever follows.
-/
namespace FsArchiver

open Lib

/-! ## Targets of symbolic links -/

/-- What is left of a path is its end. -/
theorem dropComponent_suffix (path : Path) : dropComponent path <:+ path := by
  unfold dropComponent
  refine (List.dropWhile_suffix _).trans ?_
  split
  · exact List.tail_suffix path
  · exact List.suffix_refl path

/-- The target of a link without its directory is the end of it. -/
theorem fixLinkTarget_suffix (target : Path) : fixLinkTarget target <:+ target := by
  unfold fixLinkTarget
  split
  · have third := dropComponent_suffix (dropComponent (dropComponent target))
    have second := dropComponent_suffix (dropComponent target)
    exact third.trans (second.trans (dropComponent_suffix target))
  · exact List.suffix_refl target

/-- A target stays what it is unless it lies below `/tmp/fsa/`. -/
theorem fixLinkTarget_eq_self (target : Path) :
    fixLinkTarget target = target ↔ target.take 9 ≠ tmpFsa := by
  unfold fixLinkTarget
  split
  · rename_i below
    refine ⟨fun same => ?_, fun other => absurd below other⟩
    exfalso
    -- the slash in front goes away, and nothing is added
    cases target with
    | nil => cases below
    | cons first rest =>
      have isSlash : first = slash := by
        have heads := congrArg List.head? below
        simpa [tmpFsa, slash] using heads
      have shorter : dropComponent (first :: rest) <:+ rest := by
        unfold dropComponent
        rw [if_pos (by rw [isSlash]; rfl), List.tail_cons]
        exact List.dropWhile_suffix _
      have second := dropComponent_suffix (dropComponent (first :: rest))
      have third := dropComponent_suffix (dropComponent (dropComponent (first :: rest)))
      have short := (third.trans (second.trans shorter)).length_le
      rw [same, List.length_cons] at short
      omega
  · rename_i other
    exact ⟨fun _ => other, fun _ => rfl⟩

/-! ## Standard attributes -/

/-- The earlier link to a file, if the table has one. -/
def linkTarget (save : Savear) (st : Stat) : Option Path :=
  if st.nlink > 1 then dichlGet save.dichardlinks st.rdev st.ino else none

/-- The type `createar_item_stdattr` finds for an object. -/
def objectType (opts : SaveOptions) (save : Savear) (st : Stat) : ObjType :=
  match st.fileType with
  | .dir => .dir
  | .lnk => .symlink
  | .reg => if (linkTarget save st).isSome then .hardlink else regfileType opts st
  | .chr => .chardev
  | .blk => .blockdev
  | .fifo => .fifo
  | .sock => .socket
  | .other => .null

/-- The table of links after `createar_item_stdattr`. -/
def linksAfter (save : Savear) (relpath : Path) (st : Stat) : List DichlItem :=
  if st.fileType = .reg ∧ st.nlink > 1 ∧ linkTarget save st = none then
    dichlAdd save.dichardlinks st.rdev st.ino relpath
  else save.dichardlinks

/-- Whether `createar_item_stdattr` succeeds. -/
def stdattrOk (st : Stat) (calls : ObjectCalls) : Bool :=
  match st.fileType with
  | .lnk => calls.readlink.isSome
  | .other => false
  | _ => true

/-- The items of a header that depend on the type of the object. -/
def typeCalls (save : Savear) (st : Stat) (calls : ObjectCalls) : List DicoCall :=
  match st.fileType with
  | .lnk =>
    match calls.readlink with
    | none => []
    | some target => symlinkCalls save.fstype target calls.linkTarget
  | .reg =>
    match linkTarget save st with
    | some target => [dicoAddString Section.stdattr ItemKey.hardlink target]
    | none => []
  | .chr | .blk | .fifo | .sock => [dicoAddU64 Section.stdattr ItemKey.rdev st.rdev]
  | .dir | .other => []

/-- The flags of an object. -/
def objectFlags (save : Savear) (st : Stat) : UInt64 :=
  if st.fileType = .reg ∧ linkTarget save st = none then regfileFlags st else 0

/-- All calls of `createar_item_stdattr` behind the attributes that every object has. -/
def moreCalls (opts : SaveOptions) (save : Savear) (st : Stat) (calls : ObjectCalls) :
    List DicoCall :=
  if stdattrOk st calls then
    typeCalls save st calls ++ objtypeCalls (objectType opts save st) (objectFlags save st)
  else []

/-- The header of an object without its extended attributes. -/
def stdattrDico (opts : SaveOptions) (save : Savear) (relpath : Path) (st : Stat)
    (calls : ObjectCalls) : Dico :=
  dicoAddAll (dicoAddAll Dico.alloc (stdattrCalls save.objectid relpath st))
    (moreCalls opts save st calls)

/-- The cost of an object. -/
def objectCost (save : Savear) (st : Stat) : UInt64 :=
  if st.fileType = .reg ∧ linkTarget save st = none then costPerFile + st.size else costPerFile

/-- The pairs of the attributes that every object has are all different. -/
theorem stdattrCalls_distinct (objectid : UInt64) (relpath : Path) (st : Stat) :
    (Dico.alloc.items ++ (stdattrCalls objectid relpath st).map DicoCall.item).map
      DicoItem.name |>.Nodup := by
  have names : (Dico.alloc.items ++ (stdattrCalls objectid relpath st).map DicoCall.item).map
      DicoItem.name =
      [1, 2, 8, 7, 9, 10, 11, 12].map fun key : UInt16 => (Section.stdattr, key) := rfl
  rw [names]
  decide

/-- `createar_item_stdattr` in one formula. -/
theorem createarItemStdattr_eq (opts : SaveOptions) (save : Savear) (relpath : Path) (st : Stat)
    (calls : ObjectCalls) :
    createarItemStdattr opts save relpath st calls =
      (⟨stdattrOk st calls, stdattrDico opts save relpath st calls, objectType opts save st,
        objectCost save st⟩,
        { save with
          objectid := save.objectid + 1
          dichardlinks := linksAfter save relpath st }) := by
  have each := dicoAddEach_of_fresh (stdattrCalls_distinct save.objectid relpath st)
  unfold createarItemStdattr
  simp only [each]
  cases type : st.fileType with
  | lnk =>
    cases link : calls.readlink with
    | none =>
      simp [stdattrOk, stdattrDico, moreCalls, objectType, objectCost, linksAfter, type, link,
        dicoAddAll]
    | some target =>
      simp [stdattrOk, stdattrDico, moreCalls, typeCalls, objectFlags, objectType, objectCost,
        linksAfter, type, link]
  | reg =>
    cases seen : linkTarget save st with
    | some target =>
      have several : (if st.nlink > 1 then dichlGet save.dichardlinks st.rdev st.ino else none) =
          some target := seen
      simp [stdattrOk, stdattrDico, moreCalls, typeCalls, objectFlags, objectType, objectCost,
        linksAfter, type, seen, several]
    | none =>
      have several : (if st.nlink > 1 then dichlGet save.dichardlinks st.rdev st.ino else none) =
          none := seen
      simp only [several]
      by_cases more : st.nlink > 1 <;>
        simp [stdattrOk, stdattrDico, moreCalls, typeCalls, objectFlags, objectType, objectCost,
          linksAfter, type, seen, more]
  | dir | chr | blk | fifo | sock | other =>
    simp [stdattrOk, stdattrDico, moreCalls, typeCalls, objectFlags, objectType, objectCost,
      linksAfter, type, dicoAddAll]

section Search

variable (opts : SaveOptions) (save : Savear) (relpath : Path) (st : Stat) (calls : ObjectCalls)

/-- The attributes that every object has are found in its header. -/
theorem find_stdattrDico {call : DicoCall} (member : call ∈ stdattrCalls save.objectid relpath st) :
    (stdattrDico opts save relpath st calls).find call.sect call.key = some call.item :=
  find_dicoAddAll_kept (Dico.find_of_call
    (items_dicoAddAll (stdattrCalls_distinct save.objectid relpath st)) member)

/-- The keys of the items that depend on the type of the object. -/
def typeKeys : List UInt16 :=
  [ItemKey.symlink, ItemKey.hardlink, ItemKey.rdev, ItemKey.linktargettype]

/-- The calls that depend on the type of the object have these keys. -/
theorem key_of_typeCalls {call : DicoCall} (member : call ∈ typeCalls save st calls) :
    call.key ∈ typeKeys := by
  unfold typeCalls at member
  cases type : st.fileType with
  | lnk =>
    cases link : calls.readlink with
    | none => simp [type, link] at member
    | some target =>
      simp only [type, link, symlinkCalls, List.mem_cons] at member
      rcases member with rfl | member
      · simp [typeKeys, dicoAddString]
      · split at member
        · split at member
          · rw [List.mem_singleton.mp member]
            simp [typeKeys, dicoAddU64]
          · rw [List.mem_singleton.mp member]
            simp [typeKeys, dicoAddU64]
          · cases member
        · cases member
  | reg =>
    cases seen : linkTarget save st with
    | none => simp [type, seen] at member
    | some target =>
      simp only [type, seen, List.mem_singleton] at member
      rw [member]
      simp [typeKeys, dicoAddString]
  | chr | blk | fifo | sock =>
    simp only [type, List.mem_singleton] at member
    rw [member]
    simp [typeKeys, dicoAddU64]
  | dir | other => simp [type] at member

/-- Keys that `createar_item_stdattr` uses behind the attributes that every object has. -/
def moreKeys : List UInt16 := ItemKey.objtype :: ItemKey.flags :: typeKeys

/-- The further calls have these keys. -/
theorem key_of_moreCalls {call : DicoCall} (member : call ∈ moreCalls opts save st calls) :
    call.key ∈ moreKeys := by
  unfold moreCalls at member
  split at member
  · rcases List.mem_append.mp member with member | member
    · exact List.mem_cons_of_mem _ (List.mem_cons_of_mem _ (key_of_typeCalls save st calls member))
    · unfold objtypeCalls at member
      split at member
      · simp only [List.mem_cons, List.not_mem_nil, or_false] at member
        rcases member with rfl | rfl <;> simp [moreKeys, dicoAddU32, dicoAddU64]
      · rw [List.mem_singleton.mp member]
        simp [moreKeys, dicoAddU32]
  · cases member

/-- Other keys are found only among the attributes that every object has. -/
theorem find_stdattrDico_other {key : UInt16} (other : key ∉ moreKeys) :
    (stdattrDico opts save relpath st calls).find Section.stdattr key =
      ((stdattrCalls save.objectid relpath st).find? fun call =>
        call.key = key ∧ call.sect = Section.stdattr).map DicoCall.item := by
  unfold stdattrDico
  rw [find_dicoAddAll_other, find_dicoAddAll]
  · rfl
  · intro call member same
    exact other (same.1 ▸ key_of_moreCalls opts save st calls member)

/-- Keys that not every object has are found only among the further calls. -/
theorem find_stdattrDico_more {key : UInt16} (own : key ∈ moreKeys) :
    (stdattrDico opts save relpath st calls).find Section.stdattr key =
      ((moreCalls opts save st calls).find? fun call =>
        call.key = key ∧ call.sect = Section.stdattr).map DicoCall.item := by
  have absent : (stdattrCalls save.objectid relpath st).find? (fun call =>
      call.key = key ∧ call.sect = Section.stdattr) = none := by
    have keys : (stdattrCalls save.objectid relpath st).map DicoCall.key =
        [1, 2, 8, 7, 9, 10, 11, 12] := rfl
    have apart : ∀ key ∈ moreKeys, key ∉ ([1, 2, 8, 7, 9, 10, 11, 12] : List UInt16) := by
      simp [moreKeys, typeKeys, ItemKey.objtype, ItemKey.flags, ItemKey.symlink, ItemKey.hardlink,
        ItemKey.rdev, ItemKey.linktargettype]
    rw [List.find?_eq_none]
    intro call member found
    simp only [decide_eq_true_eq] at found
    exact apart key own (keys ▸ found.1 ▸ List.mem_map_of_mem member)
  unfold stdattrDico
  rw [find_dicoAddAll, find_dicoAddAll, absent]
  rfl

/-- An item that depends on the type of the object is found in its header. -/
theorem find_stdattrDico_type (ok : stdattrOk st calls = true) {key : UInt16}
    (own : key ∈ typeKeys) {call : DicoCall}
    (first : (typeCalls save st calls).find? (fun call => call.key = key ∧
      call.sect = Section.stdattr) = some call) :
    (stdattrDico opts save relpath st calls).find Section.stdattr key = some call.item := by
  have more : key ∈ moreKeys := List.mem_cons_of_mem _ (List.mem_cons_of_mem _ own)
  rw [find_stdattrDico_more opts save relpath st calls more]
  unfold moreCalls
  rw [if_pos ok, List.find?_append, first]
  rfl

/-- An item that depends on the type of the object is missing in its header. -/
theorem find_stdattrDico_absent (ok : stdattrOk st calls = true) {key : UInt16}
    (own : key ∈ typeKeys)
    (absent : (typeCalls save st calls).find? (fun call => call.key = key ∧
      call.sect = Section.stdattr) = none) :
    (stdattrDico opts save relpath st calls).find Section.stdattr key = none := by
  have more : key ∈ moreKeys := List.mem_cons_of_mem _ (List.mem_cons_of_mem _ own)
  have others : (objtypeCalls (objectType opts save st) (objectFlags save st)).find?
      (fun call => call.key = key ∧ call.sect = Section.stdattr) = none := by
    have apart : key ≠ ItemKey.objtype ∧ key ≠ ItemKey.flags := by
      simp only [typeKeys, List.mem_cons, List.not_mem_nil, or_false] at own
      rcases own with rfl | rfl | rfl | rfl <;> decide
    obtain ⟨notType, notFlags⟩ := apart
    unfold objtypeCalls
    split <;> simp [dicoAddU32, dicoAddU64, notType.symm, notFlags.symm]
  rw [find_stdattrDico_more opts save relpath st calls more]
  unfold moreCalls
  rw [if_pos ok, List.find?_append, absent, others]
  rfl

/-- The type of an object is found in its header. -/
theorem find_stdattrDico_objtype (ok : stdattrOk st calls = true) :
    (stdattrDico opts save relpath st calls).find Section.stdattr ItemKey.objtype =
      some (dicoAddU32 Section.stdattr ItemKey.objtype (objectType opts save st).code).item := by
  have before : (typeCalls save st calls).find? (fun call =>
      call.key = ItemKey.objtype ∧ call.sect = Section.stdattr) = none := by
    rw [List.find?_eq_none]
    intro call member found
    simp only [decide_eq_true_eq] at found
    have among := found.1 ▸ key_of_typeCalls save st calls member
    exact absurd among (by decide)
  rw [find_stdattrDico_more opts save relpath st calls List.mem_cons_self]
  unfold moreCalls
  rw [if_pos ok, List.find?_append, before, Option.none_or]
  rfl

/-- The target of a hard link is found in its header. -/
theorem find_stdattrDico_hardlink {target : Path} (isReg : st.fileType = .reg)
    (seen : linkTarget save st = some target) :
    (stdattrDico opts save relpath st calls).find Section.stdattr ItemKey.hardlink =
      some (dicoAddString Section.stdattr ItemKey.hardlink target).item := by
  have ok : stdattrOk st calls = true := by simp [stdattrOk, isReg]
  rw [find_stdattrDico_more opts save relpath st calls (by decide)]
  simp only [moreCalls, ok, ↓reduceIte, typeCalls, isReg, seen]
  rfl

end Search

/-! ## Extended attributes -/

/-- The loop over the extended attributes leaves the other sections alone. -/
theorem find_createarItemXattr (d : Dico) (attrcnt : Nat) (xattrs : List (List UInt8 × AttrCalls))
    {sect : UInt8} (other : sect ≠ Section.xattr) (key : UInt16) :
    (createarItemXattr d attrcnt xattrs).2.find sect key = d.find sect key := by
  induction xattrs generalizing d attrcnt with
  | nil => rfl
  | cons xattr rest ih =>
    obtain ⟨name, calls⟩ := xattr
    simp only [createarItemXattr]
    split
    · exact ih d attrcnt
    · split
      · rw [ih, find_dicoAddAll_other]
        simp only [List.mem_cons, List.not_mem_nil, or_false, forall_eq_or_imp, forall_eq]
        exact ⟨fun same => other same.2.symm, fun same => other same.2.symm⟩
      · exact ih d attrcnt
      · exact ih d attrcnt

/-- The loop over the attributes of ntfs leaves the other sections alone. -/
theorem find_createarItemWinattr (calls : List UInt8 → AttrCalls) (d : Dico) (attrcnt : Nat)
    (names : List (List UInt8)) {sect : UInt8} (other : sect ≠ Section.winattr) (key : UInt16) :
    (createarItemWinattr calls d attrcnt names).2.find sect key = d.find sect key := by
  induction names generalizing d attrcnt with
  | nil => rfl
  | cons name rest ih =>
    simp only [createarItemWinattr]
    split
    · exact ih d attrcnt
    · exact ih d attrcnt
    · split
      · exact ih d attrcnt
      · split
        · rw [ih, find_dicoAddAll_other]
          simp only [List.mem_cons, List.not_mem_nil, or_false, forall_eq_or_imp, forall_eq]
          exact ⟨fun same => other same.2.symm, fun same => other same.2.symm⟩
        · exact ih d attrcnt
        · exact ih d attrcnt

/-- Whether the loop over the extended attributes succeeds: none is too long, and each can be
read or is not there. -/
def xattrsOk (xattrs : List (List UInt8 × AttrCalls)) : Bool :=
  xattrs.all fun xattr => decide (xattr.2.size.toOption.getD 0 ≤ 65535) &&
    match xattr.2.value with
    | .error .other => false
    | _ => true

/-- Whether the loop over the attributes of ntfs succeeds. -/
def winattrsOk (calls : List UInt8 → AttrCalls) (names : List (List UInt8)) : Bool :=
  names.all fun name =>
    match (calls name).size with
    | .error .noattr => true
    | .error .other => false
    | .ok size => decide (size ≤ 65535) &&
      match (calls name).value with
      | .error .other => false
      | _ => true

theorem createarItemXattr_ok (d : Dico) (attrcnt : Nat) (xattrs : List (List UInt8 × AttrCalls)) :
    (createarItemXattr d attrcnt xattrs).1 = xattrsOk xattrs := by
  induction xattrs generalizing d attrcnt with
  | nil => rfl
  | cons xattr rest ih =>
    obtain ⟨name, calls⟩ := xattr
    have onward : xattrsOk ((name, calls) :: rest) =
        (decide (calls.size.toOption.getD 0 ≤ 65535) &&
          (match calls.value with
            | .error .other => false
            | _ => true) && xattrsOk rest) := rfl
    simp only [createarItemXattr, onward]
    by_cases long : calls.size.toOption.getD 0 > 65535
    · rw [if_pos long, decide_eq_false (by omega), Bool.false_and, Bool.false_and]
    · rw [if_neg long, decide_eq_true (by omega), Bool.true_and]
      cases calls.value with
      | ok value => exact ih _ _
      | error error =>
        cases error with
        | noattr => exact ih _ _
        | other => rfl

theorem createarItemWinattr_ok (calls : List UInt8 → AttrCalls) (d : Dico) (attrcnt : Nat)
    (names : List (List UInt8)) :
    (createarItemWinattr calls d attrcnt names).1 = winattrsOk calls names := by
  induction names generalizing d attrcnt with
  | nil => rfl
  | cons name rest ih =>
    simp only [createarItemWinattr, winattrsOk, List.all_cons]
    cases (calls name).size with
    | error error =>
      cases error with
      | noattr => exact ih _ _
      | other => rfl
    | ok size =>
      by_cases long : size > 65535
      · simp [long]
      · simp only [long, ↓reduceIte, show size ≤ 65535 by omega, decide_true, Bool.true_and]
        cases (calls name).value with
        | ok value => exact ih _ _
        | error error =>
          cases error with
          | noattr => exact ih _ _
          | other => rfl

/-- The attributes of ntfs that are read for an object; the root needs no short name. -/
def winattrNamesOf (relpath : Path) : List (List UInt8) :=
  winattrNames.take (if relpath = [slash] then 4 else 5)

/-- The header of an object with its extended attributes. -/
def objectDico (opts : SaveOptions) (save : Savear) (relpath : Path) (st : Stat)
    (calls : ObjectCalls) : Dico :=
  let std := stdattrDico opts save relpath st calls
  let d := if save.fstype.supportForXattr then (createarItemXattr std 0 calls.xattrs).2 else std
  if save.fstype.winattr then
    (createarItemWinattr calls.winattrs d 0 (winattrNamesOf relpath)).2
  else d

/-- Whether all attributes of an object can be read. -/
def attrsOk (fstype : Filesys) (relpath : Path) (st : Stat) (calls : ObjectCalls) : Bool :=
  stdattrOk st calls && (!fstype.supportForXattr || xattrsOk calls.xattrs) &&
    (!fstype.winattr || winattrsOk calls.winattrs (winattrNamesOf relpath))

/-- The extended attributes leave the standard ones alone. -/
theorem find_objectDico (opts : SaveOptions) (save : Savear) (relpath : Path) (st : Stat)
    (calls : ObjectCalls) (key : UInt16) :
    (objectDico opts save relpath st calls).find Section.stdattr key =
      (stdattrDico opts save relpath st calls).find Section.stdattr key := by
  unfold objectDico
  dsimp only
  have xattr : (if save.fstype.supportForXattr then
      (createarItemXattr (stdattrDico opts save relpath st calls) 0 calls.xattrs).2
      else stdattrDico opts save relpath st calls).find Section.stdattr key =
      (stdattrDico opts save relpath st calls).find Section.stdattr key := by
    split
    · exact find_createarItemXattr _ _ _ (by decide) key
    · rfl
  split
  · rw [find_createarItemWinattr _ _ _ _ (by decide) key, xattr]
  · exact xattr

section ObjectHeader

variable (opts : SaveOptions) (save : Savear) (relpath : Path) (st : Stat) (calls : ObjectCalls)

/-- The attributes that every object has are found in its header. -/
theorem find_objectDico_std (call : DicoCall)
    (member : call ∈ stdattrCalls save.objectid relpath st) :
    (objectDico opts save relpath st calls).find Section.stdattr call.key = some call.item := by
  have sect : call.sect = Section.stdattr := by
    simp only [stdattrCalls, List.mem_cons, List.not_mem_nil, or_false] at member
    rcases member with rfl | rfl | rfl | rfl | rfl | rfl | rfl | rfl <;> rfl
  rw [find_objectDico, ← find_stdattrDico opts save relpath st calls member, sect]

/-- Keys that are added later are not in the header of an object. -/
theorem find_objectDico_later {key : UInt16}
    (later : key ∈ [ItemKey.md5sum, ItemKey.multifilescount, ItemKey.multifilesoffset]) :
    (objectDico opts save relpath st calls).find Section.stdattr key = none := by
  simp only [List.mem_cons, List.not_mem_nil, or_false] at later
  rcases later with rfl | rfl | rfl <;>
    (rw [find_objectDico, find_stdattrDico_other opts save relpath st calls (by decide)]; rfl)

/-- The type of an object is found in its header. -/
theorem find_objectDico_objtype (ok : stdattrOk st calls = true) :
    (objectDico opts save relpath st calls).find Section.stdattr ItemKey.objtype =
      some (dicoAddU32 Section.stdattr ItemKey.objtype (objectType opts save st).code).item := by
  rw [find_objectDico, find_stdattrDico_objtype opts save relpath st calls ok]

end ObjectHeader

/-- The state once the attributes of an object are read. -/
def afterStdattr (save : Savear) (relpath : Path) (st : Stat) : Savear :=
  { save with objectid := save.objectid + 1, dichardlinks := linksAfter save relpath st }

/-- `createar_save_file` for contents or a header alone, once all attributes are read. -/
def saveContents (mem : Mem) (md5 : Md5) (opts : SaveOptions) (save : Savear) (objtype : ObjType)
    (d : Dico) (st : Stat) (calls : ObjectCalls) : Bool × Savear :=
  match objtype with
  | .regfileunique => createarObjRegfileUnique opts md5 save d calls.openFile st.size.toNat
  | .regfilemulti => createarObjRegfileMulti mem md5 save d calls.openFile st.size.toNat
  | _ => (true, save.push [.header ⟨.objt, save.fsid, d⟩])

/-- `createar_save_file` in one formula, when more than the cost is asked for. -/
theorem createarSaveFile_eq (mem : Mem) (md5 : Md5) (opts : SaveOptions) (save : Savear)
    (relpath : Path) (st : Stat) (calls : ObjectCalls) :
    createarSaveFile mem md5 opts save relpath st calls false =
      if calls.isCurvol then (true, { save with stats := save.stats.fail .regfileunique })
      else
        let after := afterStdattr save relpath st
        let objtype := objectType opts save st
        if objtype = .null then (false, after)
        else if !attrsOk save.fstype relpath st calls then
          (true, { after with stats := after.stats.fail objtype })
        else
          let saved := saveContents mem md5 opts after objtype
            (objectDico opts save relpath st calls) st calls
          (true, { saved.2 with stats :=
            if saved.1 then saved.2.stats.count objtype else saved.2.stats.fail objtype }) := by
  unfold createarSaveFile
  rw [createarItemStdattr_eq]
  cases curvol : calls.isCurvol with
  | true => rfl
  | false =>
    unfold objectDico attrsOk afterStdattr winattrNamesOf
    cases xattr : save.fstype.supportForXattr <;> cases winattr : save.fstype.winattr <;>
      simp only [xattr, winattr, Bool.false_eq_true, ↓reduceIte, Bool.not_true, Bool.not_false,
        Bool.true_or, Bool.false_or, Bool.and_true, createarItemXattr_ok, createarItemWinattr_ok] <;>
      rfl

end FsArchiver
