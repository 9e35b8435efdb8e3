import FsArchiver.RestoreFiles
import FsArchiver.LinkTargets

/-!
# Saved headers read back

All attributes that were saved can be read when an object is restored: the standard ones come
from the first eight calls, and the extended ones stand in pairs of a name and a value, numbered
without a gap.
-/
namespace FsArchiver

open Lib

/-! ## Sections -/

/-- Calls in other sections do not count. -/
theorem count_dicoAddAll_other {d : Dico} {calls : List DicoCall} {sect : UInt8}
    (other : ∀ call ∈ calls, call.sect ≠ sect) :
    dicoCountOneSection (dicoAddAll d calls) sect = dicoCountOneSection d sect := by
  induction calls generalizing d with
  | nil => rfl
  | cons call calls ih =>
    have onward := @ih ((dicoAddGeneric d call.sect call.key call.data call.type).getD d)
      fun call member => other call (List.mem_cons_of_mem _ member)
    refine onward.trans ?_
    cases added : dicoAddGeneric d call.sect call.key call.data call.type with
    | none => rfl
    | some d' =>
      have items : d'.items = d.items ++ [call.item] := (dicoAddGeneric_eq_some.mp added).2
      have apart : call.item.sect ≠ sect := other call List.mem_cons_self
      rw [Option.getD_some, dicoCountOneSection, items, List.countP_append]
      simp [dicoCountOneSection, apart]

/-- A section holds these attributes in this order, each a name and a value that fit the buffers of a
restoration, and nothing else. -/
structure AttrsStored (d : Dico) (sect : UInt8) (attrs : List (List UInt8 × List UInt8)) : Prop where
  /-- Nothing else is in the section. -/
  count : dicoCountOneSection d sect = 2 * attrs.length
  /-- The next keys are free. -/
  free : ∀ item ∈ d.items, item.sect = sect → item.key.toNat < 2 * attrs.length
  /-- Each has its name under an even key and its value under the next. -/
  found : ∀ i (inside : i < attrs.length),
    d.find sect (UInt16.ofNat (2 * i)) =
        some (dicoAddString sect (UInt16.ofNat (2 * i)) attrs[i].1).item ∧
      d.find sect (UInt16.ofNat (2 * i + 1)) =
        some (dicoAddData sect (UInt16.ofNat (2 * i + 1)) attrs[i].2).item
  /-- The names and values. -/
  short : ∀ attr ∈ attrs, attr.1.length < 2048 ∧ attr.2.length ≤ 65535

section Stored

variable {d : Dico} {sect : UInt8} {attrs : List (List UInt8 × List UInt8)}

/-- A dico without items of a section has no attributes there. -/
theorem attrsStored_nil (none : dicoCountOneSection d sect = 0) : AttrsStored d sect [] where
  count := none
  free item member own := by
    have absent := List.countP_eq_zero.mp none item member
    simp [own] at absent
  found i inside := absurd inside (Nat.not_lt_zero i)
  short := List.forall_mem_nil _

/-- Calls in other sections leave attributes alone. -/
theorem AttrsStored.other (stored : AttrsStored d sect attrs) {calls : List DicoCall}
    (other : ∀ call ∈ calls, call.sect ≠ sect) : AttrsStored (dicoAddAll d calls) sect attrs where
  count := (count_dicoAddAll_other other).trans stored.count
  free item member own := by
    have found := Dico.find_of_mem member
    rw [find_dicoAddAll_other fun call among same => other call among (same.2.trans own)] at found
    exact stored.free item (Dico.mem_of_find found).1 own
  found i inside := (stored.found i inside).imp find_dicoAddAll_kept find_dicoAddAll_kept
  short := stored.short

/-- The keys of the next attribute are free, so that its items are appended. -/
theorem AttrsStored.items_add (stored : AttrsStored d sect attrs) (room : attrs.length < 32768)
    (name value : List UInt8) :
    (dicoAddAll d [dicoAddString sect (UInt16.ofNat (2 * attrs.length)) name,
      dicoAddData sect (UInt16.ofNat (2 * attrs.length + 1)) value]).items =
      d.items ++ [(dicoAddString sect (UInt16.ofNat (2 * attrs.length)) name).item,
        (dicoAddData sect (UInt16.ofNat (2 * attrs.length + 1)) value).item] := by
  have even : (UInt16.ofNat (2 * attrs.length)).toNat = 2 * attrs.length :=
    Nat.mod_eq_of_lt (by omega)
  have odd : (UInt16.ofNat (2 * attrs.length + 1)).toNat = 2 * attrs.length + 1 :=
    Nat.mod_eq_of_lt (by omega)
  apply items_dicoAddAll
  rw [List.map_append, List.nodup_append]
  refine ⟨d.distinct, ?_, ?_⟩
  · change List.Nodup [(sect, UInt16.ofNat (2 * attrs.length)),
      (sect, UInt16.ofNat (2 * attrs.length + 1))]
    simp
  · rintro pair taken pair' new rfl
    obtain ⟨item, member, rfl⟩ := List.mem_map.mp taken
    change (item.sect, item.key) ∈ [(sect, UInt16.ofNat (2 * attrs.length)),
      (sect, UInt16.ofNat (2 * attrs.length + 1))] at new
    simp only [List.mem_cons, List.not_mem_nil, or_false, Prod.mk.injEq] at new
    rcases new with ⟨own, key⟩ | ⟨own, key⟩
    · have less := stored.free item member own
      rw [key, even] at less
      omega
    · have less := stored.free item member own
      rw [key, odd] at less
      omega

/-- One attribute more. -/
theorem AttrsStored.add (stored : AttrsStored d sect attrs) (room : attrs.length < 32768)
    {name value : List UInt8} (shortName : name.length < 2048) (shortValue : value.length ≤ 65535) :
    AttrsStored (dicoAddAll d [dicoAddString sect (UInt16.ofNat (2 * attrs.length)) name,
      dicoAddData sect (UInt16.ofNat (2 * attrs.length + 1)) value]) sect
      (attrs ++ [(name, value)]) := by
  have even : (UInt16.ofNat (2 * attrs.length)).toNat = 2 * attrs.length :=
    Nat.mod_eq_of_lt (by omega)
  have odd : (UInt16.ofNat (2 * attrs.length + 1)).toNat = 2 * attrs.length + 1 :=
    Nat.mod_eq_of_lt (by omega)
  have length : (attrs ++ [(name, value)]).length = attrs.length + 1 := List.length_append
  let calls := [dicoAddString sect (UInt16.ofNat (2 * attrs.length)) name,
    dicoAddData sect (UInt16.ofNat (2 * attrs.length + 1)) value]
  have items : (dicoAddAll d calls).items = d.items ++ calls.map DicoCall.item :=
    stored.items_add room name value
  constructor
  case count =>
    have before := stored.count
    unfold dicoCountOneSection at before ⊢
    rw [items, List.countP_append, before, length]
    have two : (calls.map DicoCall.item).countP (fun item => item.sect = sect) = 2 := by
      simp [calls, DicoCall.item, DicoItem.make, dicoAddString, dicoAddData]
    rw [two]
    omega
  case free =>
    intro item member own
    rw [items, List.mem_append] at member
    rw [length]
    rcases member with member | member
    · have less := stored.free item member own
      omega
    · simp only [calls, List.map_cons, List.map_nil, List.mem_cons, List.not_mem_nil,
        or_false] at member
      rcases member with rfl | rfl
      · change (UInt16.ofNat (2 * attrs.length)).toNat < _
        omega
      · change (UInt16.ofNat (2 * attrs.length + 1)).toNat < _
        omega
  case found =>
    intro i inside
    rw [length] at inside
    by_cases last : i = attrs.length
    · subst last
      rw [List.getElem_concat_length rfl]
      have among : ∀ call ∈ calls, (dicoAddAll d calls).find call.sect call.key = some call.item := by
        intro call member
        refine @Dico.find_of_mem _ call.item ?_
        rw [items]
        exact List.mem_append_right _ (List.mem_map_of_mem member)
      exact ⟨among _ List.mem_cons_self, among _ (List.mem_cons_of_mem _ (List.mem_singleton_self _))⟩
    · have before : i < attrs.length := by omega
      rw [List.getElem_append_left before]
      exact (stored.found i before).imp find_dicoAddAll_kept find_dicoAddAll_kept
  case short =>
    exact List.forall_mem_append.mpr
      ⟨stored.short, List.forall_mem_singleton.mpr ⟨shortName, shortValue⟩⟩

/-- Two items that are found are an attribute. Its name is read as a C string. -/
theorem readAttr_of_find {key : Nat} {name value : List UInt8} (shortName : name.length < 2048)
    (shortValue : value.length ≤ 65535)
    (foundName : d.find sect (UInt16.ofNat key) =
      some (dicoAddString sect (UInt16.ofNat key) name).item)
    (foundValue : d.find sect (UInt16.ofNat (key + 1)) =
      some (dicoAddData sect (UInt16.ofNat (key + 1)) value).item) :
    readAttr d sect key = some (cString name, value) := by
  have length : (name ++ [0]).length = name.length + 1 := List.length_append
  have nameData : (dicoAddString sect (UInt16.ofNat key) name).item.data = name ++ [0] := by
    apply sizedData_of_lt
    show (name ++ [0]).length < 65536
    omega
  have valueData : (dicoAddData sect (UInt16.ofNat (key + 1)) value).item.data = value := by
    apply sizedData_of_lt
    show value.length < 65536
    omega
  have roomName : (dicoAddString sect (UInt16.ofNat key) name).item.data.length ≤ 2048 := by
    rw [nameData]
    omega
  have roomValue : (dicoAddData sect (UInt16.ofNat (key + 1)) value).item.data.length ≤ 65535 := by
    rw [valueData]
    exact shortValue
  unfold readAttr dicoGetString dicoGetData
  rw [dicoGetGeneric_of_find foundName (by decide) roomName,
    dicoGetGeneric_of_find foundValue (by decide) roomValue, nameData, valueData]
  show some (cString (stringBuffer 2048 (name ++ [0])), value) = _
  rw [cString_stringBuffer]

/-- The attributes of a section are read one by one. -/
theorem AttrsStored.read (stored : AttrsStored d sect attrs) :
    (evenKeys (dicoCountOneSection d sect)).map (readAttr d sect) =
      attrs.map fun attr => some (cString attr.1, attr.2) := by
  have count : (2 * attrs.length + 1) / 2 = attrs.length := by omega
  unfold evenKeys
  rw [stored.count, count]
  apply List.ext_getElem
  · simp
  · intro i inside _
    have less : i < attrs.length := by simpa using inside
    obtain ⟨shortName, shortValue⟩ := stored.short _ (List.getElem_mem less)
    have read : readAttr d sect (2 * i) = some (cString attrs[i].1, attrs[i].2) :=
      readAttr_of_find shortName shortValue (stored.found i less).1 (stored.found i less).2
    simpa using read

/-- All attributes of a section can be read. -/
theorem AttrsStored.readable (stored : AttrsStored d sect attrs) :
    ∀ key ∈ evenKeys (dicoCountOneSection d sect), (readAttr d sect key).isSome := by
  intro key member
  have among := List.mem_map_of_mem (f := readAttr d sect) member
  rw [stored.read] at among
  obtain ⟨attr, -, same⟩ := List.mem_map.mp among
  rw [← same]
  rfl

end Stored

/-! ## Extended attributes -/

/-- The attribute has a value of at most this many bytes, if it has one. -/
def AttrCalls.Fits (calls : AttrCalls) : Prop :=
  ∀ value, calls.value = .ok value → ∃ size, calls.size = .ok size ∧ value.length ≤ size

/-- What the kernel promises of the answers to the calls on one object. -/
structure ObjectCalls.FromKernel (calls : ObjectCalls) : Prop where
  /-- `readlink` fills a buffer of `PATH_MAX` bytes that was cleared, and leaves its end. -/
  readlink : ∀ target, calls.readlink = some target → target.length < pathMax
  /-- `llistxattr` fills a buffer of 4095 bytes with names that end in NUL. -/
  listed : (calls.xattrs.map fun xattr => xattr.1.length + 1).sum ≤ 4095
  /-- A name has at most `XATTR_NAME_MAX` characters. -/
  names : ∀ xattr ∈ calls.xattrs, xattr.1.length ≤ 255
  /-- A value fits the buffer that `lgetxattr` is given, whose size the first call told. -/
  xattrs : ∀ xattr ∈ calls.xattrs, xattr.2.Fits
  winattrs : ∀ name ∈ winattrNames, (calls.winattrs name).Fits

/-- There are not more names than characters. -/
theorem ObjectCalls.FromKernel.few {calls : ObjectCalls} (fromKernel : calls.FromKernel) :
    calls.xattrs.length ≤ 4095 := by
  have listed := fromKernel.listed
  have each : ∀ xattrs : List (List UInt8 × AttrCalls),
      xattrs.length ≤ (xattrs.map fun xattr => xattr.1.length + 1).sum := by
    intro xattrs
    induction xattrs with
    | nil => exact Nat.le_refl 0
    | cons xattr rest ih =>
      rw [List.length_cons, List.map_cons, List.sum_cons]
      omega
  exact (each calls.xattrs).trans listed

/-- The attributes that `createar_item_xattr` stores. -/
def storedXattrs (xattrs : List (List UInt8 × AttrCalls)) : List (List UInt8 × List UInt8) :=
  xattrs.filterMap fun (name, calls) =>
    if calls.size.toOption.getD 0 > 65535 then none else calls.value.toOption.map (name, ·)

/-- The attributes that `createar_item_winattr` stores. -/
def storedWinattrs (calls : List UInt8 → AttrCalls) (names : List (List UInt8)) :
    List (List UInt8 × List UInt8) :=
  names.filterMap fun name =>
    match (calls name).size with
    | .error _ => none
    | .ok size => if size > 65535 then none else (calls name).value.toOption.map (name, ·)

/-- The loop over the extended attributes numbers them without a gap. -/
theorem createarItemXattr_stored {xattrs : List (List UInt8 × AttrCalls)}
    (names : ∀ xattr ∈ xattrs, xattr.1.length ≤ 255)
    (fits : ∀ xattr ∈ xattrs, ∀ value, ¬xattr.2.size.toOption.getD 0 > 65535 →
      xattr.2.value = .ok value → value.length ≤ 65535)
    {d : Dico} {attrs : List (List UInt8 × List UInt8)} (stored : AttrsStored d Section.xattr attrs)
    (few : attrs.length + xattrs.length < 32768) :
    AttrsStored (createarItemXattr d attrs.length xattrs).2 Section.xattr
      (attrs ++ storedXattrs xattrs) := by
  induction xattrs generalizing d attrs with
  | nil =>
    rw [storedXattrs, List.filterMap_nil, List.append_nil]
    exact stored
  | cons xattr rest ih =>
    obtain ⟨name, calls⟩ := xattr
    obtain ⟨nameHere, namesRest⟩ := List.forall_mem_cons.mp names
    obtain ⟨fitsHere, fitsRest⟩ := List.forall_mem_cons.mp fits
    rw [List.length_cons] at few
    have skip := ih namesRest fitsRest stored (by omega)
    simp only [createarItemXattr, storedXattrs, List.filterMap_cons]
    by_cases long : calls.size.toOption.getD 0 > 65535
    · rw [if_pos long, if_pos long]
      exact skip
    · rw [if_neg long, if_neg long]
      cases got : calls.value with
      | error error =>
        cases error with
        | noattr => exact skip
        | other => exact skip
      | ok value =>
        have added := stored.add (by omega) (Nat.lt_of_le_of_lt nameHere (by decide))
          (fitsHere value long got)
        have onward := ih namesRest fitsRest added (by rw [List.length_append]; simp; omega)
        rw [List.length_append, List.append_assoc] at onward
        exact onward

/-- So does the loop over the attributes of ntfs. -/
theorem createarItemWinattr_stored {calls : List UInt8 → AttrCalls} {names : List (List UInt8)}
    (short : ∀ name ∈ names, name.length ≤ 255) (fits : ∀ name ∈ names, (calls name).Fits)
    {d : Dico} {attrs : List (List UInt8 × List UInt8)}
    (stored : AttrsStored d Section.winattr attrs) (few : attrs.length + names.length < 32768) :
    AttrsStored (createarItemWinattr calls d attrs.length names).2 Section.winattr
      (attrs ++ storedWinattrs calls names) := by
  induction names generalizing d attrs with
  | nil =>
    rw [storedWinattrs, List.filterMap_nil, List.append_nil]
    exact stored
  | cons name rest ih =>
    obtain ⟨shortHere, shortRest⟩ := List.forall_mem_cons.mp short
    obtain ⟨fitsHere, fitsRest⟩ := List.forall_mem_cons.mp fits
    rw [List.length_cons] at few
    have skip := ih shortRest fitsRest stored (by omega)
    simp only [createarItemWinattr, storedWinattrs, List.filterMap_cons]
    cases sized : (calls name).size with
    | error error =>
      cases error with
      | noattr => exact skip
      | other => exact skip
    | ok size =>
      dsimp only
      by_cases long : size > 65535
      · rw [if_pos long, if_pos long]
        exact skip
      · rw [if_neg long, if_neg long]
        cases got : (calls name).value with
        | error error =>
          cases error with
          | noattr => exact skip
          | other => exact skip
        | ok value =>
          obtain ⟨size', sized', fit⟩ := fitsHere value got
          rw [sized, Except.ok.injEq] at sized'
          have added := stored.add (by omega) (Nat.lt_of_le_of_lt shortHere (by decide))
            (show value.length ≤ 65535 by omega)
          have onward := ih shortRest fitsRest added (by rw [List.length_append]; simp; omega)
          rw [List.length_append, List.append_assoc] at onward
          exact onward

/-- The loop over the extended attributes leaves those of the other sections alone. -/
theorem AttrsStored.createarItemXattr {d : Dico} {sect : UInt8}
    {attrs : List (List UInt8 × List UInt8)} (stored : AttrsStored d sect attrs)
    (other : sect ≠ Section.xattr) (attrcnt : Nat) (xattrs : List (List UInt8 × AttrCalls)) :
    AttrsStored (createarItemXattr d attrcnt xattrs).2 sect attrs := by
  induction xattrs generalizing d attrcnt with
  | nil => exact stored
  | cons xattr rest ih =>
    obtain ⟨name, calls⟩ := xattr
    simp only [FsArchiver.createarItemXattr]
    split
    · exact ih stored attrcnt
    · split
      · refine ih (stored.other ?_) (attrcnt + 1)
        simp only [List.mem_cons, List.not_mem_nil, or_false, forall_eq_or_imp, forall_eq]
        exact ⟨fun same => other same.symm, fun same => other same.symm⟩
      · exact ih stored attrcnt
      · exact ih stored attrcnt

/-- So does the loop over the attributes of ntfs. -/
theorem AttrsStored.createarItemWinattr {d : Dico} {sect : UInt8}
    {attrs : List (List UInt8 × List UInt8)} (stored : AttrsStored d sect attrs)
    (other : sect ≠ Section.winattr) (calls : List UInt8 → AttrCalls) (attrcnt : Nat)
    (names : List (List UInt8)) :
    AttrsStored (createarItemWinattr calls d attrcnt names).2 sect attrs := by
  induction names generalizing d attrcnt with
  | nil => exact stored
  | cons name rest ih =>
    simp only [FsArchiver.createarItemWinattr]
    split
    · exact ih stored attrcnt
    · exact ih stored attrcnt
    · split
      · exact ih stored attrcnt
      · split
        · refine ih (stored.other ?_) (attrcnt + 1)
          simp only [List.mem_cons, List.not_mem_nil, or_false, forall_eq_or_imp, forall_eq]
          exact ⟨fun same => other same.symm, fun same => other same.symm⟩
        · exact ih stored attrcnt
        · exact ih stored attrcnt

section Header

variable {opts : SaveOptions} {save : Savear} {relpath : Path} {st : Stat} {calls : ObjectCalls}

/-- All calls of `createar_item_stdattr` are for the section of standard attributes. -/
theorem sect_of_stdattr {call : DicoCall} (member : call ∈ stdattrCalls save.objectid relpath st ∨
    call ∈ moreCalls opts save st calls) : call.sect = Section.stdattr := by
  rcases member with member | member
  · simp only [stdattrCalls, List.mem_cons, List.not_mem_nil, or_false] at member
    rcases member with rfl | rfl | rfl | rfl | rfl | rfl | rfl | rfl <;> rfl
  · unfold moreCalls at member
    split at member
    · rcases List.mem_append.mp member with member | member
      · unfold typeCalls at member
        cases type : st.fileType with
        | lnk =>
          cases link : calls.readlink with
          | none => simp [type, link] at member
          | some target =>
            simp only [type, link, symlinkCalls, List.mem_cons] at member
            rcases member with rfl | member
            · rfl
            · split at member
              · split at member
                · exact List.mem_singleton.mp member ▸ rfl
                · exact List.mem_singleton.mp member ▸ rfl
                · cases member
              · cases member
        | reg =>
          cases seen : linkTarget save st with
          | none => simp [type, seen] at member
          | some target =>
            simp only [type, seen, List.mem_singleton] at member
            exact member ▸ rfl
        | chr | blk | fifo | sock =>
          simp only [type, List.mem_singleton] at member
          exact member ▸ rfl
        | dir | other => simp [type] at member
      · unfold objtypeCalls at member
        split at member
        · simp only [List.mem_cons, List.not_mem_nil, or_false] at member
          rcases member with rfl | rfl <;> rfl
        · exact List.mem_singleton.mp member ▸ rfl
    · cases member

/-- The standard attributes leave the other sections empty. -/
theorem count_stdattrDico {sect : UInt8} (other : sect ≠ Section.stdattr) :
    dicoCountOneSection (stdattrDico opts save relpath st calls) sect = 0 := by
  unfold stdattrDico
  rw [count_dicoAddAll_other, count_dicoAddAll_other]
  · rfl
  · intro call member same
    exact other (same.symm.trans (@sect_of_stdattr opts _ _ _ calls _ (.inl member)))
  · intro call member same
    exact other (same.symm.trans (@sect_of_stdattr _ _ relpath _ _ _ (.inr member)))

/-- The extended attributes of a saved object. -/
def savedXattrs (fstype : Filesys) (calls : ObjectCalls) : List (List UInt8 × List UInt8) :=
  if fstype.supportForXattr then storedXattrs calls.xattrs else []

/-- Its attributes of ntfs. -/
def savedWinattrs (fstype : Filesys) (relpath : Path) (calls : ObjectCalls) :
    List (List UInt8 × List UInt8) :=
  if fstype.winattr then storedWinattrs calls.winattrs (winattrNamesOf relpath) else []

/-- Every attribute that has a value is saved, if all can be read. -/
theorem mem_savedXattrs {fstype : Filesys} (support : fstype.supportForXattr = true)
    (ok : xattrsOk calls.xattrs = true) {xattr : List UInt8 × AttrCalls}
    (member : xattr ∈ calls.xattrs) {value : List UInt8} (got : xattr.2.value = .ok value) :
    (xattr.1, value) ∈ savedXattrs fstype calls := by
  have own := List.all_eq_true.mp ok xattr member
  rw [Bool.and_eq_true, decide_eq_true_eq] at own
  rw [savedXattrs, if_pos support]
  refine List.mem_filterMap.mpr ⟨xattr, member, ?_⟩
  simp only [if_neg (Nat.not_lt.mpr own.1), got]
  rfl

theorem mem_savedWinattrs {fstype : Filesys} (support : fstype.winattr = true)
    (ok : winattrsOk calls.winattrs (winattrNamesOf relpath) = true) {name : List UInt8}
    (member : name ∈ winattrNamesOf relpath) {size : Nat}
    (sized : (calls.winattrs name).size = .ok size) {value : List UInt8}
    (got : (calls.winattrs name).value = .ok value) :
    (name, value) ∈ savedWinattrs fstype relpath calls := by
  have own := List.all_eq_true.mp ok name member
  simp only [sized, Bool.and_eq_true, decide_eq_true_eq] at own
  rw [savedWinattrs, if_pos support]
  refine List.mem_filterMap.mpr ⟨name, member, ?_⟩
  simp only [sized, if_neg (Nat.not_lt.mpr own.1), got]
  rfl

/-- All attributes of a saved object are in its header. -/
theorem attrsStored_objectDico (fromKernel : calls.FromKernel) :
    AttrsStored (objectDico opts save relpath st calls) Section.xattr
        (savedXattrs save.fstype calls) ∧
      AttrsStored (objectDico opts save relpath st calls) Section.winattr
        (savedWinattrs save.fstype relpath calls) := by
  let std := stdattrDico opts save relpath st calls
  let withXattrs := if save.fstype.supportForXattr then (createarItemXattr std 0 calls.xattrs).2
    else std
  have few := fromKernel.few
  have noXattr : AttrsStored std Section.xattr [] := attrsStored_nil (count_stdattrDico (by decide))
  have noWinattr : AttrsStored std Section.winattr [] :=
    attrsStored_nil (count_stdattrDico (by decide))
  have fits : ∀ xattr ∈ calls.xattrs, ∀ value, ¬xattr.2.size.toOption.getD 0 > 65535 →
      xattr.2.value = .ok value → value.length ≤ 65535 := by
    intro xattr member value small got
    obtain ⟨size, sized, short⟩ := fromKernel.xattrs xattr member value got
    rw [sized] at small
    have bound : ¬size > 65535 := small
    omega
  have xattrs : AttrsStored withXattrs Section.xattr (savedXattrs save.fstype calls) ∧
      AttrsStored withXattrs Section.winattr [] := by
    unfold savedXattrs
    by_cases support : save.fstype.supportForXattr = true
    · rw [show withXattrs = (createarItemXattr std 0 calls.xattrs).2 from if_pos support,
        if_pos support]
      have stored := createarItemXattr_stored fromKernel.names fits noXattr (by simp; omega)
      exact ⟨stored, noWinattr.createarItemXattr (by decide) 0 calls.xattrs⟩
    · rw [show withXattrs = std from if_neg support, if_neg support]
      exact ⟨noXattr, noWinattr⟩
  have short : ∀ name ∈ winattrNames, name.length ≤ 255 := by decide
  have names : ∀ name ∈ winattrNamesOf relpath, name ∈ winattrNames := fun name member =>
    List.mem_of_mem_take member
  have fewer : (winattrNamesOf relpath).length ≤ 5 := by
    have all : winattrNames.length = 5 := rfl
    rw [← all]
    exact List.length_take_le' _ _
  obtain ⟨xattr, noWinattr⟩ := xattrs
  unfold savedWinattrs
  by_cases support : save.fstype.winattr = true
  · have whole : objectDico opts save relpath st calls =
        (createarItemWinattr calls.winattrs withXattrs 0 (winattrNamesOf relpath)).2 := if_pos support
    rw [whole, if_pos support]
    refine ⟨xattr.createarItemWinattr (by decide) calls.winattrs 0 _, ?_⟩
    exact createarItemWinattr_stored (fun name member => short name (names name member))
      (fun name member => fromKernel.winattrs name (names name member)) noWinattr (by simp; omega)
  · have whole : objectDico opts save relpath st calls = withXattrs := if_neg support
    rw [whole, if_neg support]
    exact ⟨xattr, noWinattr⟩

end Header

/-! ## What belongs to a type -/

/-- What is kept about the target of a symbolic link: its type, where the filesystem asks for it. -/
def symlinkTargettype (fstype : Filesys) (linkTarget : Option Stat) : Option ObjType :=
  if fstype.savesymtargettype then
    match linkTarget.map Stat.fileType with
    | some .dir => some .dir
    | some .reg => some .regfileunique
    | _ => none
  else none

/-- The target is a directory or a regular file, if anything is kept. -/
theorem symlinkTargettype_cases (fstype : Filesys) (linkTarget : Option Stat) :
    symlinkTargettype fstype linkTarget = none ∨ symlinkTargettype fstype linkTarget = some .dir ∨
      symlinkTargettype fstype linkTarget = some .regfileunique := by
  unfold symlinkTargettype
  split
  · split
    · exact .inr (.inl rfl)
    · exact .inr (.inr rfl)
    · exact .inl rfl
  · exact .inl rfl

/-- The items of a symbolic link are its target and what is kept about it. -/
theorem symlinkCalls_eq (fstype : Filesys) (target : Path) (linkTarget : Option Stat) :
    symlinkCalls fstype target linkTarget =
      dicoAddString Section.stdattr ItemKey.symlink (fixLinkTarget target) ::
        (symlinkTargettype fstype linkTarget).toList.map fun type =>
          dicoAddU64 Section.stdattr ItemKey.linktargettype type.code.toUInt64 := by
  unfold symlinkCalls symlinkTargettype
  cases fstype.savesymtargettype with
  | false => rfl
  | true =>
    cases linkTarget.map Stat.fileType with
    | none => rfl
    | some type => cases type <;> rfl

section OfType

variable {opts : SaveOptions} {save : Savear} {relpath : Path} {st : Stat} {calls : ObjectCalls}

/-- The target of a symbolic link is read back as it was fixed. -/
theorem readTarget_symlink (type : st.fileType = .lnk) {target : Path}
    (link : calls.readlink = some target) (short : target.length < pathMax) :
    readTarget (stdattrDico opts save relpath st calls) ItemKey.symlink =
      some (cString (fixLinkTarget target)) := by
  have ok : stdattrOk st calls = true := by simp [stdattrOk, type, link]
  have first : (typeCalls save st calls).find? (fun call => call.key = ItemKey.symlink ∧
      call.sect = Section.stdattr) =
      some (dicoAddString Section.stdattr ItemKey.symlink (fixLinkTarget target)) := by
    simp [typeCalls, type, link, symlinkCalls, dicoAddString]
  have found := find_stdattrDico_type opts save relpath st calls ok (by decide) first
  have length := (fixLinkTarget_suffix target).length_le
  exact readTarget_text found (by omega)

/-- So is what is kept about it. -/
theorem dicoGetU64_targettype (mem : Mem) (type : st.fileType = .lnk) {target : Path}
    (link : calls.readlink = some target) :
    dicoGetU64 mem (stdattrDico opts save relpath st calls) Section.stdattr ItemKey.linktargettype =
      (symlinkTargettype save.fstype calls.linkTarget).map fun type => type.code.toUInt64 := by
  have ok : stdattrOk st calls = true := by simp [stdattrOk, type, link]
  have own : typeCalls save st calls = symlinkCalls save.fstype target calls.linkTarget := by
    simp [typeCalls, type, link]
  rw [symlinkCalls_eq] at own
  have apart : ItemKey.symlink ≠ ItemKey.linktargettype := by decide
  cases kept : symlinkTargettype save.fstype calls.linkTarget with
  | none =>
    have absent : (typeCalls save st calls).find? (fun call => call.key = ItemKey.linktargettype ∧
        call.sect = Section.stdattr) = none := by
      simp [own, kept, dicoAddString, apart]
    have missing := find_stdattrDico_absent opts save relpath st calls ok (by decide) absent
    unfold dicoGetU64 dicoGetWord dicoGetData dicoGetGeneric
    rw [missing]
    rfl
  | some targettype =>
    have first : (typeCalls save st calls).find? (fun call => call.key = ItemKey.linktargettype ∧
        call.sect = Section.stdattr) =
        some (dicoAddU64 Section.stdattr ItemKey.linktargettype targettype.code.toUInt64) := by
      simp [own, kept, dicoAddString, dicoAddU64, apart]
    have found := find_stdattrDico_type opts save relpath st calls ok (by decide) first
    exact dicoGetU64_of_find found
      (show sizedData (leBytes 8 targettype.code.toUInt64.toNat) = _ from sizedData_of_lt (by simp))

/-- The device of a special file is read back. -/
theorem dicoGetU64_rdev (mem : Mem) (special : st.fileType ∈ [FileType.chr, .blk, .fifo, .sock]) :
    dicoGetU64 mem (stdattrDico opts save relpath st calls) Section.stdattr ItemKey.rdev =
      some st.rdev := by
  have stored : stdattrOk st calls = true ∧
      typeCalls save st calls = [dicoAddU64 Section.stdattr ItemKey.rdev st.rdev] := by
    unfold stdattrOk typeCalls
    simp only [List.mem_cons, List.not_mem_nil, or_false] at special
    rcases special with type | type | type | type <;> simp [type]
  have first : (typeCalls save st calls).find? (fun call => call.key = ItemKey.rdev ∧
      call.sect = Section.stdattr) = some (dicoAddU64 Section.stdattr ItemKey.rdev st.rdev) := by
    rw [stored.2]
    rfl
  have found := find_stdattrDico_type opts save relpath st calls stored.1 (by decide) first
  exact dicoGetU64_of_find found
    (show sizedData (leBytes 8 st.rdev.toNat) = _ from sizedData_of_lt (by simp))

end OfType

/-! ## What a restoration reads -/

/-- The standard attributes of a saved object. Its times were cut to 32 bits. -/
def savedAttr (st : Stat) : StdAttr where
  mode := st.mode
  uid := st.uid
  gid := st.gid
  atime := st.atime.toUInt32.toUInt64
  mtime := st.mtime.toUInt32.toUInt64

/-- The standard attributes are read back. -/
theorem readStdAttr_of_find {d : Dico} {objectid : UInt64} {relpath : Path} {st : Stat}
    (found : ∀ call ∈ stdattrCalls objectid relpath st,
      d.find Section.stdattr call.key = some call.item) (mem : Mem) :
    readStdAttr mem d = some (savedAttr st) := by
  have word (key : UInt16) (value : UInt32)
      (member : dicoAddU32 Section.stdattr key value ∈ stdattrCalls objectid relpath st) :
      dicoGetU32 mem d Section.stdattr key = some value :=
    dicoGetU32_of_find (found _ member)
      (show sizedData (leBytes 4 value.toNat) = _ from sizedData_of_lt (by simp))
  have long (key : UInt16) (value : UInt64)
      (member : dicoAddU64 Section.stdattr key value ∈ stdattrCalls objectid relpath st) :
      dicoGetU64 mem d Section.stdattr key = some value :=
    dicoGetU64_of_find (found _ member)
      (show sizedData (leBytes 8 value.toNat) = _ from sizedData_of_lt (by simp))
  unfold readStdAttr
  rw [word ItemKey.mode st.mode (by simp [stdattrCalls]),
    word ItemKey.uid st.uid (by simp [stdattrCalls]),
    word ItemKey.gid st.gid (by simp [stdattrCalls]),
    long ItemKey.atime st.atime.toUInt32.toUInt64 (by simp [stdattrCalls]),
    long ItemKey.mtime st.mtime.toUInt32.toUInt64 (by simp [stdattrCalls])]
  rfl

/-- A header of a saved object, maybe with more standard attributes. -/
structure SavedHeader (d : Dico) (relpath : Path) (objtype : ObjType) (st : Stat) : Prop where
  /-- The attributes that every object has. -/
  std : ∃ objectid, ∀ call ∈ stdattrCalls objectid relpath st,
    d.find Section.stdattr call.key = some call.item
  /-- The type. -/
  type : d.find Section.stdattr ItemKey.objtype =
    some (dicoAddU32 Section.stdattr ItemKey.objtype objtype.code).item
  /-- The extended attributes. -/
  attrs : ∀ sect ∈ [Section.xattr, Section.winattr], ∃ attrs, AttrsStored d sect attrs

/-- The header of an object whose attributes were read. -/
theorem savedHeader_objectDico {opts : SaveOptions} {save : Savear} {relpath : Path} {st : Stat}
    {calls : ObjectCalls} (ok : stdattrOk st calls = true) (fromKernel : calls.FromKernel) :
    SavedHeader (objectDico opts save relpath st calls) relpath (objectType opts save st) st where
  std := ⟨save.objectid, find_objectDico_std opts save relpath st calls⟩
  type := find_objectDico_objtype opts save relpath st calls ok
  attrs := by
    obtain ⟨xattr, winattr⟩ := @attrsStored_objectDico opts save relpath st calls fromKernel
    exact List.forall_mem_cons.mpr ⟨⟨_, xattr⟩, List.forall_mem_singleton.mpr ⟨_, winattr⟩⟩

namespace SavedHeader

variable {d : Dico} {relpath : Path} {objtype : ObjType} {st : Stat}

/-- More standard attributes. -/
theorem add (header : SavedHeader d relpath objtype st) {calls : List DicoCall}
    (stdattr : ∀ call ∈ calls, call.sect = Section.stdattr) :
    SavedHeader (dicoAddAll d calls) relpath objtype st where
  std := by
    obtain ⟨objectid, found⟩ := header.std
    exact ⟨objectid, fun call member => find_dicoAddAll_kept (found call member)⟩
  type := find_dicoAddAll_kept header.type
  attrs sect member := by
    obtain ⟨attrs, stored⟩ := header.attrs sect member
    refine ⟨attrs, stored.other fun call among => ?_⟩
    rw [stdattr call among]
    simp only [List.mem_cons, List.not_mem_nil, or_false] at member
    rcases member with rfl | rfl
    · decide
    · decide

/-- A place in a pack. -/
theorem place (header : SavedHeader d relpath objtype st) (count offset : UInt32) :
    SavedHeader (placedHeader count offset d) relpath objtype st :=
  header.add fun call member => by
    simp only [List.mem_cons, List.not_mem_nil, or_false] at member
    rcases member with rfl | rfl <;> rfl

/-- The path is read back. -/
theorem readPath (header : SavedHeader d relpath objtype st) (short : relpath.length < pathMax)
    (clean : 0 ∉ relpath) (mem : Mem) : readPath mem d ItemKey.path = some relpath := by
  obtain ⟨objectid, found⟩ := header.std
  have stored := found (dicoAddString Section.stdattr ItemKey.path relpath) (by simp [stdattrCalls])
  exact readPath_of_find stored short clean

/-- The type is read back. -/
theorem headerType (header : SavedHeader d relpath objtype st) (mem : Mem) :
    headerType mem d = some objtype.code :=
  dicoGetU32_of_find header.type
    (show sizedData (leBytes 4 objtype.code.toNat) = _ from sizedData_of_lt (by simp))

/-- The size is read back. -/
theorem size (header : SavedHeader d relpath objtype st) (mem : Mem) :
    dicoGetU64 mem d Section.stdattr ItemKey.size = some st.size := by
  obtain ⟨objectid, found⟩ := header.std
  have stored := found (dicoAddU64 Section.stdattr ItemKey.size st.size) (by simp [stdattrCalls])
  exact dicoGetU64_of_find stored
    (show sizedData (leBytes 8 st.size.toNat) = _ from sizedData_of_lt (by simp))

/-- The permissions are read back. -/
theorem mode (header : SavedHeader d relpath objtype st) (mem : Mem) :
    dicoGetU32 mem d Section.stdattr ItemKey.mode = some st.mode := by
  obtain ⟨objectid, found⟩ := header.std
  have stored := found (dicoAddU32 Section.stdattr ItemKey.mode st.mode) (by simp [stdattrCalls])
  exact dicoGetU32_of_find stored
    (show sizedData (leBytes 4 st.mode.toNat) = _ from sizedData_of_lt (by simp))

/-- All attributes can be read. -/
theorem readable (header : SavedHeader d relpath objtype st) (ctx : Context) : Readable ctx d where
  std := by
    obtain ⟨objectid, found⟩ := header.std
    rw [readStdAttr_of_find found]
    rfl
  xattrs sect member := by
    obtain ⟨attrs, stored⟩ := header.attrs sect member
    exact stored.readable

end SavedHeader

end FsArchiver
