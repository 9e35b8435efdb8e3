import FsArchiver.RestoreChecked
import FsArchiver.SavedHeaders

/-!
# Extended attributes of a file

`createar_item_xattr` walks the buffer of names that `llistxattr` fills and asks for each value
twice, once for its size. A list that does not fit the buffer and calls that fail are part of the
model, and so is the buffer for a value, which has one byte more than the first call told.
-/
namespace FsArchiver

open Lib

/-- An extended attribute of a file, and which of the two calls of `lgetxattr` for it fail. -/
structure Xattr where
  /-- Name. -/
  name : List UInt8
  /-- Value. -/
  value : List UInt8
  /-- The call that asks for the size fails, not with `ENOATTR`. -/
  sizeFails : Bool
  /-- The call that asks for the value fails, not with `ENOATTR`. -/
  valueFails : Bool
  /-- A name is not empty. -/
  name_pos : 0 < name.length
  /-- `XATTR_NAME_MAX`. -/
  name_le : name.length ≤ 255
  /-- A name has no NUL. -/
  clean : 0 ∉ name
  /-- `XATTR_SIZE_MAX`. -/
  value_le : value.length ≤ 65536

/-- A file with its extended attributes, in the order in which they are listed. -/
structure XattrFile where
  /-- The attributes. -/
  attrs : List Xattr
  /-- No two have the same name. -/
  distinct : (attrs.map Xattr.name).Nodup

/-! ## System calls -/

/-- The names as `llistxattr` lists them, each with a NUL behind it. -/
def nameList (attrs : List Xattr) : List UInt8 := attrs.flatMap fun attr => attr.name ++ [0]

/-- `llistxattr` for a buffer of this size; `none` is -1. -/
def llistxattr (file : XattrFile) (size : Nat) : Option (List UInt8) :=
  if (nameList file.attrs).length ≤ size then some (nameList file.attrs) else none

/-- The two calls of `lgetxattr` for an attribute. -/
def Xattr.calls (attr : Xattr) : AttrCalls where
  size := if attr.sizeFails then .error .other else .ok attr.value.length
  value := if attr.valueFails then .error .other else .ok attr.value

/-- `lgetxattr`. -/
def lgetxattr (file : XattrFile) (name : List UInt8) : AttrCalls :=
  match file.attrs.find? fun attr => attr.name = name with
  | some attr => attr.calls
  | none => ⟨.error .noattr, .error .noattr⟩

/-- Bytes that `malloc(attrsize+1)` gives to a value: `attrsize` is -1 if the first call failed. -/
def AttrCalls.valbufSize (calls : AttrCalls) : Nat :=
  match calls.size with
  | .ok attrsize => attrsize + 1
  | .error _ => 0

/-! ## The walk over the names -/

/-- The loop of `createar_item_xattr` from a position in the buffer on; `none` if a value is
copied behind the end of its buffer. -/
def createarItemXattrFrom (getxattr : List UInt8 → AttrCalls) (buffer : List UInt8) (listlen : Int)
    (d : Dico) (ret : Bool) (attrcnt pos : Nat) : Option (Bool × Dico) :=
  if _inside : pos < listlen ∧ pos < buffer.length then
    let name := cString (buffer.drop pos)
    let len := name.length + 1
    let calls := getxattr name
    if calls.size.toOption.getD 0 > 65535 then
      createarItemXattrFrom getxattr buffer listlen d false attrcnt (pos + len)
    else
      match calls.value with
      | .ok value =>
        if calls.valbufSize < value.length then none
        else
          let d := dicoAddAll d [dicoAddString Section.xattr (UInt16.ofNat (2 * attrcnt)) name,
            dicoAddData Section.xattr (UInt16.ofNat (2 * attrcnt + 1)) value]
          createarItemXattrFrom getxattr buffer listlen d ret (attrcnt + 1) (pos + len)
      | .error .noattr =>
        createarItemXattrFrom getxattr buffer listlen d ret attrcnt (pos + len)
      | .error .other =>
        createarItemXattrFrom getxattr buffer listlen d false attrcnt (pos + len)
  else some (ret, d)
termination_by buffer.length - pos

/-- `createar_item_xattr`: whether it returns 0, and the dico. -/
def createarItemXattrOf (file : XattrFile) (d : Dico) : Option (Bool × Dico) :=
  let zeros := fun used : Nat => List.replicate (4096 - used) (0 : UInt8)
  match llistxattr file 4095 with
  | some list => createarItemXattrFrom (lgetxattr file) (list ++ zeros list.length) list.length d
      true 0 0
  | none => createarItemXattrFrom (lgetxattr file) (zeros 0) (-1) d true 0 0

variable {file : XattrFile} {attr : Xattr} {attrs : List Xattr} {d : Dico}

theorem nameList_cons (attr : Xattr) (attrs : List Xattr) :
    nameList (attr :: attrs) = (attr.name ++ [0]) ++ nameList attrs :=
  List.flatMap_cons

/-- Names tell attributes apart. -/
theorem lgetxattr_of_mem (member : attr ∈ file.attrs) : lgetxattr file attr.name = attr.calls := by
  unfold lgetxattr
  cases found : file.attrs.find? fun other => other.name = attr.name with
  | none =>
    have absent := List.find?_eq_none.mp found attr member
    exact absurd (decide_eq_true rfl) absent
  | some other =>
    have name : other.name = attr.name := by simpa using List.find?_some found
    have same : other = attr := List.inj_on_of_nodup_map file.distinct
      (List.mem_of_find?_eq_some found) member name
    rw [same]

/-- The name at a position. -/
theorem cString_nameList (attr : Xattr) (before rest tail : List UInt8) :
    cString ((before ++ ((attr.name ++ [0]) ++ rest) ++ tail).drop before.length) = attr.name := by
  have split : (before ++ ((attr.name ++ [0]) ++ rest) ++ tail).drop before.length =
      attr.name ++ 0 :: (rest ++ tail) := by
    rw [List.append_assoc before, List.drop_left]
    simp
  rw [split]
  exact cString_buffer attr.clean (rest ++ tail)

/-- A value is copied behind the end of its buffer. -/
def Xattr.Overruns (attr : Xattr) : Prop :=
  attr.sizeFails = true ∧ attr.valueFails = false ∧ attr.value ≠ []

instance overrunsDecidable (attr : Xattr) : Decidable attr.Overruns :=
  inferInstanceAs (Decidable (_ ∧ _ ∧ _))

/-- The attributes as the loop over a list sees them. -/
def xattrCalls (attrs : List Xattr) : List (List UInt8 × AttrCalls) :=
  attrs.map fun attr => (attr.name, attr.calls)

/-- A value that is taken fits its buffer unless it overruns it. -/
theorem valbufSize_lt_iff (value : List UInt8) (got : attr.calls.value = .ok value) :
    attr.calls.valbufSize < value.length ↔ attr.Overruns := by
  unfold Xattr.calls at got
  unfold AttrCalls.valbufSize Xattr.calls Xattr.Overruns
  cases fails : attr.valueFails with
  | true =>
    rw [fails] at got
    cases got
  | false =>
    rw [fails] at got
    obtain rfl : attr.value = value := by
      injection got
    cases attr.sizeFails with
    | true => simp [List.length_pos_iff]
    | false =>
      simp

/-- The walk over the buffer takes the attributes one by one, up to a value that overruns its
buffer. -/
theorem createarItemXattrFrom_eq (before tail : List UInt8) (listlen : Int) (d : Dico) (ret : Bool)
    (attrcnt : Nat) (whole : (before ++ nameList attrs).length = listlen)
    (known : ∀ attr ∈ attrs, lgetxattr file attr.name = attr.calls) :
    createarItemXattrFrom (lgetxattr file) (before ++ nameList attrs ++ tail) listlen d ret attrcnt
        before.length =
      if ∃ attr ∈ attrs, attr.Overruns then none
      else some (ret && (createarItemXattr d attrcnt (xattrCalls attrs)).1,
        (createarItemXattr d attrcnt (xattrCalls attrs)).2) := by
  induction attrs generalizing before d ret attrcnt with
  | nil =>
    unfold createarItemXattrFrom
    have outside : ¬((before.length : Int) < listlen ∧
        before.length < (before ++ nameList [] ++ tail).length) := by
      rw [← whole]
      simp [nameList]
    rw [dif_neg outside]
    simp [xattrCalls, createarItemXattr]
  | cons attr attrs ih =>
    have onward : before ++ nameList (attr :: attrs) = (before ++ (attr.name ++ [0])) ++
        nameList attrs := by
      rw [nameList_cons, ← List.append_assoc]
    have inside : (before.length : Int) < listlen ∧
        before.length < (before ++ nameList (attr :: attrs) ++ tail).length := by
      rw [← whole, nameList_cons]
      simp only [List.length_append, List.length_singleton]
      omega
    have next : before.length + (attr.name.length + 1) =
        (before ++ (attr.name ++ [0])).length := by
      simp
    have rest := fun d ret attrcnt => ih (before ++ (attr.name ++ [0])) d ret attrcnt
      (by rw [← onward]; exact whole)
      (fun other member => known other (List.mem_cons_of_mem _ member))
    have skip : ¬attr.Overruns → ((∃ other ∈ attr :: attrs, other.Overruns) ↔
        ∃ other ∈ attrs, other.Overruns) := by
      intro fits
      rw [List.exists_mem_cons_iff]
      exact or_iff_right fits
    rw [createarItemXattrFrom, dif_pos inside]
    rw [nameList_cons, cString_nameList, ← nameList_cons]
    simp only [known attr List.mem_cons_self, onward, next, rest]
    simp only [xattrCalls, List.map_cons, createarItemXattr]
    by_cases long : attr.calls.size.toOption.getD 0 > 65535
    · have fits : ¬attr.Overruns := by
        intro overruns
        rw [show attr.calls.size = .error .other from if_pos overruns.1] at long
        exact absurd long (by decide)
      simp only [if_pos long, skip fits, Bool.false_and, Bool.and_false]
    · simp only [if_neg long]
      cases got : attr.calls.value with
      | ok value =>
        by_cases overruns : attr.Overruns
        · have found : ∃ other ∈ attr :: attrs, other.Overruns :=
            ⟨attr, List.mem_cons_self, overruns⟩
          simp only [if_pos ((valbufSize_lt_iff value got).mpr overruns), if_pos found]
        · have fits : ¬attr.calls.valbufSize < value.length :=
            fun less => overruns ((valbufSize_lt_iff value got).mp less)
          simp only [if_neg fits, skip overruns]
      | error error =>
        have fits : ¬attr.Overruns := by
          intro overruns
          simp [Xattr.calls, overruns.2.1] at got
        cases error with
        | noattr => simp only [skip fits]
        | other => simp only [skip fits, Bool.false_and, Bool.and_false]

/-- `createar_item_xattr` on a list of names that fits. -/
theorem createarItemXattrOf_of_fits (fits : (nameList file.attrs).length ≤ 4095) (d : Dico) :
    createarItemXattrOf file d =
      if ∃ attr ∈ file.attrs, attr.Overruns then none
      else some (createarItemXattr d 0 (xattrCalls file.attrs)) := by
  unfold createarItemXattrOf llistxattr
  rw [if_pos fits]
  have walk := createarItemXattrFrom_eq [] (List.replicate (4096 - (nameList file.attrs).length) 0)
    (nameList file.attrs).length d true 0 rfl fun attr member => lgetxattr_of_mem member
  simp only [List.nil_append, List.length_nil, Bool.true_and] at walk
  exact walk

/-- A list that does not fit is not looked at. -/
theorem createarItemXattrOf_of_long (long : ¬(nameList file.attrs).length ≤ 4095) (d : Dico) :
    createarItemXattrOf file d = some (true, d) := by
  unfold createarItemXattrOf llistxattr
  rw [if_neg long]
  unfold createarItemXattrFrom
  exact dif_neg fun inside => absurd inside.1 (by omega)

/-! ## What is restored -/

/-- The names and values of attributes. -/
def xattrPairs (attrs : List Xattr) : List (List UInt8 × List UInt8) :=
  attrs.map fun attr => (attr.name, attr.value)

/-- A dico without extended attributes. -/
theorem xattrsStored_nil (fresh : ∀ item ∈ d.items, item.sect ≠ Section.xattr) :
    AttrsStored d Section.xattr [] :=
  attrsStored_nil (List.countP_eq_zero.mpr fun item member own =>
    fresh item member (of_decide_eq_true own))

/-- Stored attributes are read one by one. -/
theorem read_xattrPairs (stored : AttrsStored d Section.xattr (xattrPairs attrs)) :
    (evenKeys (dicoCountOneSection d Section.xattr)).map (readAttr d Section.xattr) =
      attrs.map fun attr => some (attr.name, attr.value) := by
  rw [stored.read, xattrPairs, List.map_map]
  apply List.map_congr_left
  intro attr _
  simp only [Function.comp_apply, cString_eq_self attr.clean]

/-- An attribute that can be read and does not overrun its buffer is short. -/
theorem Xattr.stored (fits : ¬attr.Overruns)
    (ok : xattrsOk (xattrCalls [attr]) = true) :
    attr.calls.value = .ok attr.value ∧ ¬attr.calls.size.toOption.getD 0 > 65535 ∧
      attr.value.length ≤ 65535 := by
  have okHead := List.all_eq_true.mp ok (attr.name, attr.calls) List.mem_cons_self
  have reads : attr.valueFails = false := by
    by_contra fails
    rw [Bool.not_eq_false] at fails
    simp [Xattr.calls, fails] at okHead
  have got : attr.calls.value = .ok attr.value := by
    simp [Xattr.calls, reads]
  have small : ¬attr.calls.size.toOption.getD 0 > 65535 := by
    rw [Bool.and_eq_true, decide_eq_true_eq] at okHead
    exact Nat.not_lt.mpr okHead.1
  refine ⟨got, small, ?_⟩
  cases size : attr.sizeFails with
  | true =>
    have empty : attr.value = [] := by
      by_contra nonempty
      exact fits ⟨size, reads, nonempty⟩
    rw [empty]
    exact Nat.zero_le 65535
  | false =>
    rw [show attr.calls.size = .ok attr.value.length from if_neg (by simp [size])] at small
    exact Nat.not_lt.mp small

/-- All attributes are stored where none is left out. -/
theorem storedXattrs_xattrCalls (fits : ∀ attr ∈ attrs, ¬attr.Overruns)
    (ok : xattrsOk (xattrCalls attrs) = true) : storedXattrs (xattrCalls attrs) = xattrPairs attrs := by
  unfold storedXattrs xattrCalls xattrPairs
  rw [List.filterMap_map, ← List.filterMap_eq_map]
  apply List.filterMap_congr
  intro attr member
  have own : xattrsOk (xattrCalls [attr]) = true := List.all_eq_true.mpr fun xattr among => by
    rw [List.mem_singleton.mp among]
    exact List.all_eq_true.mp ok _ (List.mem_map_of_mem member)
  obtain ⟨got, small, -⟩ := Xattr.stored (fits attr member) own
  simp only [Function.comp_apply, if_neg small, got]
  rfl

/-- The loop of `createar_item_xattr` where no attribute is left out. -/
theorem createarItemXattr_whole (fresh : ∀ item ∈ d.items, item.sect ≠ Section.xattr)
    (few : attrs.length < 32768) (fits : ∀ attr ∈ attrs, ¬attr.Overruns)
    (ok : xattrsOk (xattrCalls attrs) = true) :
    AttrsStored (createarItemXattr d 0 (xattrCalls attrs)).2 Section.xattr (xattrPairs attrs) := by
  rw [← storedXattrs_xattrCalls fits ok]
  refine createarItemXattr_stored ?_ ?_ (xattrsStored_nil fresh) ?_
  · intro xattr member
    obtain ⟨attr, -, rfl⟩ := List.mem_map.mp member
    exact attr.name_le
  · intro xattr member value small got
    obtain ⟨attr, among, rfl⟩ := List.mem_map.mp member
    have own : xattrsOk (xattrCalls [attr]) = true := List.all_eq_true.mpr fun other inside => by
      rw [List.mem_singleton.mp inside]
      exact List.all_eq_true.mp ok _ member
    obtain ⟨same, -, short⟩ := Xattr.stored (fits attr among) own
    rw [same, Except.ok.injEq] at got
    rw [← got]
    exact short
  · simp only [List.length_nil, Nat.zero_add, xattrCalls, List.length_map]
    exact few

/-- The calls of a restoration, whatever their results. -/
theorem restoreAttrs_calls (ctx : Context) (path : Path) {sect : UInt8} {keys : List Nat}
    (read : keys.map (readAttr d sect) = attrs.map fun attr => some (attr.name, attr.value))
    (log : Log) :
    ∃ made, ((restoreAttrs ctx sect path d keys).run log).2 = log ++ made ∧
      made.map Prod.fst = attrs.map fun attr => .lsetxattr path attr.name attr.value := by
  induction keys generalizing attrs log with
  | nil =>
    rw [List.map_nil] at read
    have empty : attrs = [] := List.map_eq_nil_iff.mp read.symm
    rw [empty]
    exact ⟨[], (List.append_nil log).symm, rfl⟩
  | cons key keys ih =>
    cases attrs with
    | nil => exact absurd read (List.cons_ne_nil _ _)
    | cons attr attrs =>
      rw [List.map_cons, List.map_cons, List.cons.injEq] at read
      obtain ⟨made, added, calls⟩ := ih read.2 (log ++ [(.lsetxattr path attr.name attr.value,
        ctx.os.answer log (.lsetxattr path attr.name attr.value))])
      refine ⟨(.lsetxattr path attr.name attr.value,
        ctx.os.answer log (.lsetxattr path attr.name attr.value)) :: made, ?_, ?_⟩
      · unfold restoreAttrs
        rw [read.1]
        rw [List.append_assoc] at added
        exact added
      · rw [List.map_cons, List.map_cons, calls]

/-- The restoration sets these attributes in this order, and nothing else. -/
def RestoresXattrs (ctx : Context) (path : Path) (d : Dico) (attrs : List Xattr) : Prop :=
  ∀ log, ∃ made, ((extractarRestoreAttrXattr ctx path d).run log).2 = log ++ made ∧
    made.map Prod.fst = attrs.map fun attr => .lsetxattr path attr.name attr.value

/-- Stored attributes are set. -/
theorem restores_xattrPairs (stored : AttrsStored d Section.xattr (xattrPairs attrs)) (ctx : Context)
    (path : Path) : RestoresXattrs ctx path d attrs :=
  restoreAttrs_calls ctx path (read_xattrPairs stored)

/-! ## Complete, or an error -/

/-- `createar_item_xattr` reports an error, or a restoration of the dico it leaves behind sets all
attributes of the file. -/
def XattrsSaved (ctx : Context) (path : Path) (file : XattrFile) (d : Dico) : Prop :=
  match createarItemXattrOf file d with
  | none => False
  | some (ok, saved) => ok = false ∨ RestoresXattrs ctx path saved file.attrs

/-- The length of the list is made of the lengths of the names. -/
theorem length_nameList (attrs : List Xattr) :
    (nameList attrs).length = (attrs.map fun attr => attr.name.length + 1).sum := by
  induction attrs with
  | nil => rfl
  | cons attr attrs ih =>
    rw [nameList_cons, List.length_append, ih, List.map_cons, List.sum_cons, List.length_append,
      List.length_singleton]

/-- There are not more attributes than bytes in the list. -/
theorem length_le_nameList (attrs : List Xattr) : attrs.length ≤ (nameList attrs).length := by
  induction attrs with
  | nil => exact Nat.le_refl 0
  | cons attr attrs ih =>
    rw [nameList_cons, List.length_append, List.length_append, List.length_singleton,
      List.length_cons]
    omega

/-- On a list that does not fit, the attributes are lost without an error. -/
theorem not_saved_of_long (ctx : Context) (path : Path)
    (fresh : ∀ item ∈ d.items, item.sect ≠ Section.xattr)
    (long : ¬(nameList file.attrs).length ≤ 4095) : ¬XattrsSaved ctx path file d := by
  unfold XattrsSaved
  rw [createarItemXattrOf_of_long long]
  rintro (failed | restores)
  · exact absurd failed Bool.noConfusion
  · obtain ⟨made, added, calls⟩ := restores []
    obtain ⟨made', added', calls'⟩ := @restores_xattrPairs [] _ (xattrsStored_nil fresh) ctx path []
    rw [added] at added'
    rw [List.append_cancel_left added', calls'] at calls
    have empty : file.attrs = [] := List.map_eq_nil_iff.mp calls.symm
    rw [empty] at long
    exact long (Nat.zero_le 4095)

/-- The attributes of a file are saved or an error is reported exactly if the list of their names
fits its buffer, and no value is asked for whose size could not be told. -/
theorem xattrs_saved_iff (ctx : Context) (path : Path) (file : XattrFile) (d : Dico)
    (fresh : ∀ item ∈ d.items, item.sect ≠ Section.xattr) :
    XattrsSaved ctx path file d ↔
      (file.attrs.map fun attr => attr.name.length + 1).sum ≤ 4095 ∧
        ∀ attr ∈ file.attrs, ¬attr.Overruns := by
  rw [← length_nameList]
  constructor
  · intro saved
    have fits : (nameList file.attrs).length ≤ 4095 := by
      by_contra long
      exact not_saved_of_long ctx path fresh long saved
    refine ⟨fits, ?_⟩
    intro attr member overruns
    unfold XattrsSaved at saved
    rw [createarItemXattrOf_of_fits fits, if_pos ⟨attr, member, overruns⟩] at saved
    exact saved
  · rintro ⟨fits, inside⟩
    have empty : ¬∃ attr ∈ file.attrs, attr.Overruns := by
      rintro ⟨attr, member, overruns⟩
      exact inside attr member overruns
    unfold XattrsSaved
    rw [createarItemXattrOf_of_fits fits, if_neg empty]
    cases ok : xattrsOk (xattrCalls file.attrs) with
    | false =>
      left
      rw [createarItemXattr_ok]
      exact ok
    | true =>
      right
      have few := length_le_nameList file.attrs
      exact restores_xattrPairs (createarItemXattr_whole fresh (by omega) inside ok) ctx path

/-- Two attributes, the second of them empty. -/
def twoXattrs : XattrFile where
  attrs := [⟨[0x61], [1, 0], false, false, by decide, by decide, by decide, by decide⟩,
    ⟨[0x62], [], true, false, by decide, by decide, by decide, by decide⟩]
  distinct := by decide

theorem xattrs_saved_two : XattrsSaved plainContext [0x66] twoXattrs Dico.alloc :=
  (xattrs_saved_iff plainContext [0x66] twoXattrs Dico.alloc
    (fun _ member => absurd member List.not_mem_nil)).mpr (by decide)

/-- An attribute with a long name. -/
def longXattr (i : Fin 17) : Xattr where
  name := List.replicate (239 + i) 0x61
  value := [1]
  sizeFails := false
  valueFails := false
  name_pos := by rw [List.length_replicate]; omega
  name_le := by rw [List.length_replicate]; omega
  clean member := absurd (List.eq_of_mem_replicate member) (by decide)
  value_le := by decide

/-- A list of 4216 bytes. -/
def longXattrs : XattrFile where
  attrs := (List.finRange 17).map longXattr
  distinct := by
    rw [List.map_map]
    apply List.Nodup.map _ (List.nodup_finRange 17)
    intro i j same
    have lengths := congrArg List.length same
    simp only [Function.comp_apply, longXattr, List.length_replicate] at lengths
    omega

/-- No call fails, and no attribute is restored. -/
theorem xattrs_lost_long : ¬XattrsSaved plainContext [0x66] longXattrs Dico.alloc := by
  apply not_saved_of_long
  · intro item member
    exact absurd member List.not_mem_nil
  · rw [length_nameList]
    simp only [longXattrs, List.map_map, Function.comp_def, longXattr, List.length_replicate]
    decide

end FsArchiver
