import Mathlib.Data.List.Nodup
import FsArchiver.Const
import FsArchiver.Lib.Bytes

/-!
# Dictionaries

`dico.c`: a dico is a list of typed items in insertion order, at most one for each pair of a
section and a key. Its two invariants are fields, the 16-bit size of an item and the
distinctness of the pairs, so a dico that the C functions could not have built does not
exist here. Memory allocation succeeds throughout.
-/
namespace FsArchiver

open Lib

/-- `s_dicoitem`: an item with its payload; the 16-bit `size` is the length of the payload. -/
structure DicoItem where
  /-- `DICTYPE_*`. -/
  type : UInt8
  /-- `DICO_OBJ_SECTION_*`. -/
  sect : UInt8
  /-- Key within the section. -/
  key : UInt16
  /-- Payload. -/
  data : List UInt8
  /-- The size field has 16 bits. -/
  size_lt : data.length < 65536
  deriving DecidableEq

/-- The pair a dico is searched for. -/
def DicoItem.name (item : DicoItem) : UInt8 × UInt16 := (item.sect, item.key)

/-- `s_dico`. -/
structure Dico where
  /-- The linked list from `head`. -/
  items : List DicoItem
  /-- `dico_add_generic` refuses a pair that is already there. -/
  distinct : (items.map DicoItem.name).Nodup
  deriving DecidableEq

namespace Dico

/-- `dico_alloc`. -/
def alloc : Dico := ⟨[], List.nodup_nil⟩

@[ext] theorem ext {left right : Dico} (h : left.items = right.items) : left = right := by
  cases left
  cases right
  cases h
  rfl

end Dico

/-- The bytes `dico_add_generic` copies: its `size` parameter keeps 16 bits of the length. -/
def sizedData (data : List UInt8) : List UInt8 := data.take (data.length % 65536)

/-- The copy is as long as the size field says. -/
theorem length_sizedData (data : List UInt8) : (sizedData data).length = data.length % 65536 := by
  simp only [sizedData, List.length_take]
  exact Nat.min_eq_left (Nat.mod_le _ _)

/-- Data whose length fits the size field is copied whole. -/
theorem sizedData_of_lt {data : List UInt8} (fits : data.length < 65536) :
    sizedData data = data := by
  rw [sizedData, Nat.mod_eq_of_lt fits, List.take_length]

/-- The item that `dico_add_generic` links. -/
def DicoItem.make (sect : UInt8) (key : UInt16) (data : List UInt8) (type : UInt8) : DicoItem where
  type := type
  sect := sect
  key := key
  data := sizedData data
  size_lt := by rw [length_sizedData]; exact Nat.mod_lt _ (by decide)

/-- `dico_add_generic`: append an item, or fail when its pair is taken. -/
def dicoAddGeneric (d : Dico) (sect : UInt8) (key : UInt16) (data : List UInt8) (type : UInt8) :
    Option Dico :=
  if fresh : (sect, key) ∉ d.items.map DicoItem.name then
    some
      { items := d.items ++ [DicoItem.make sect key data type]
        distinct := by
          rw [List.map_append, List.nodup_append]
          refine ⟨d.distinct, by simp, ?_⟩
          rintro left member right last rfl
          simp only [List.map_cons, List.map_nil, List.mem_singleton] at last
          subst last
          exact fresh member }
  else none

/-- A successful addition appends exactly the new item, whose pair was free. -/
theorem dicoAddGeneric_eq_some {d added : Dico} {sect : UInt8} {key : UInt16}
    {data : List UInt8} {type : UInt8} :
    dicoAddGeneric d sect key data type = some added ↔
      (sect, key) ∉ d.items.map DicoItem.name ∧
        added.items = d.items ++ [DicoItem.make sect key data type] := by
  unfold dicoAddGeneric
  split
  · rename_i fresh
    simp only [Option.some.injEq, fresh, not_false_eq_true, true_and]
    constructor
    · rintro rfl
      rfl
    · exact fun same => Dico.ext same.symm
  · rename_i taken
    exact ⟨fun h => by simp at h, fun h => absurd h.1 taken⟩

/-- A call of one of the `dico_add_*` functions: the arguments it passes to
`dico_add_generic`. -/
structure DicoCall where
  /-- Section. -/
  sect : UInt8
  /-- Key. -/
  key : UInt16
  /-- Data with its size. -/
  data : List UInt8
  /-- `DICTYPE_*`. -/
  type : UInt8

/-- `dico_add_data`. -/
def dicoAddData (sect : UInt8) (key : UInt16) (data : List UInt8) : DicoCall :=
  ⟨sect, key, data, DicType.data⟩

/-- `dico_add_u16`. -/
def dicoAddU16 (sect : UInt8) (key : UInt16) (value : UInt16) : DicoCall :=
  ⟨sect, key, leBytes 2 value.toNat, DicType.u16⟩

/-- `dico_add_u32`. -/
def dicoAddU32 (sect : UInt8) (key : UInt16) (value : UInt32) : DicoCall :=
  ⟨sect, key, leBytes 4 value.toNat, DicType.u32⟩

/-- `dico_add_u64`. -/
def dicoAddU64 (sect : UInt8) (key : UInt16) (value : UInt64) : DicoCall :=
  ⟨sect, key, leBytes 8 value.toNat, DicType.u64⟩

/-- `dico_add_string`: the characters and the terminating NUL. -/
def dicoAddString (sect : UInt8) (key : UInt16) (szstring : List UInt8) : DicoCall :=
  ⟨sect, key, szstring ++ [0], DicType.string⟩

/-- The item a call adds. -/
def DicoCall.item (call : DicoCall) : DicoItem :=
  DicoItem.make call.sect call.key call.data call.type

/-- Calls in a row whose results are not looked at: a call that fails changes nothing. -/
def dicoAddAll (d : Dico) (calls : List DicoCall) : Dico :=
  calls.foldl (fun d call => (dicoAddGeneric d call.sect call.key call.data call.type).getD d) d

/-- Calls in a row up to the first one that fails. -/
def dicoAddEach (d : Dico) (calls : List DicoCall) : Option Dico :=
  calls.foldlM (fun d call => dicoAddGeneric d call.sect call.key call.data call.type) d

/-- `dico_count_one_section`. -/
def dicoCountOneSection (d : Dico) (sect : UInt8) : Nat :=
  d.items.countP fun item => item.sect = sect

/-- Calls with pairs of their own, none of them taken, add their items in order. -/
theorem items_dicoAddAll {d : Dico} {calls : List DicoCall}
    (fresh : (d.items ++ calls.map DicoCall.item).map DicoItem.name |>.Nodup) :
    (dicoAddAll d calls).items = d.items ++ calls.map DicoCall.item := by
  induction calls generalizing d with
  | nil => simp [dicoAddAll]
  | cons call calls ih =>
    have free : (call.sect, call.key) ∉ d.items.map DicoItem.name := by
      rw [List.map_append, List.nodup_append] at fresh
      exact fun taken => fresh.2.2 _ taken call.item.name (by simp) rfl
    have first : ((dicoAddGeneric d call.sect call.key call.data call.type).getD d).items =
        d.items ++ [call.item] := by
      rw [dicoAddGeneric, dif_pos free]
      rfl
    have rest := @ih ((dicoAddGeneric d call.sect call.key call.data call.type).getD d)
      (by rw [first]; simpa using fresh)
    rw [first] at rest
    simpa [dicoAddAll] using rest

/-- Bytes that no write has defined: what an automatic variable holds before it is set, and
what lies behind the end of an allocated buffer. Nothing is assumed about them. -/
structure Mem where
  /-- Contents of an uninitialised local variable. -/
  stack : Nat → UInt8
  /-- Bytes after the end of a heap buffer. -/
  heap : Nat → UInt8

/-- The item that the loop of `dico_get_generic` stops at. -/
def Dico.find (d : Dico) (sect : UInt8) (key : UInt16) : Option DicoItem :=
  d.items.find? fun item => item.key = key ∧ item.sect = sect

/-- `dico_get_generic`: the payload of an item of at most `maxsize` bytes. -/
def dicoGetGeneric (d : Dico) (sect : UInt8) (key : UInt16) (maxsize : Nat) :
    Option (List UInt8) :=
  if maxsize < 1 then none
  else match d.find sect key with
    | none => none
    | some item => if item.data.length > maxsize then none else some item.data

/-- `dico_get_data`. -/
def dicoGetData (d : Dico) (sect : UInt8) (key : UInt16) (maxsize : Nat) : Option (List UInt8) :=
  dicoGetGeneric d sect key maxsize

/-- The little-endian number in a `width`-byte local variable into which `dico_get_data`
copied a payload of at most that many bytes. -/
def dicoGetWord (mem : Mem) (width : Nat) (d : Dico) (sect : UInt8) (key : UInt16) : Option Nat :=
  (dicoGetData d sect key width).map fun data =>
    leNat (data ++ (List.range (width - data.length)).map fun i => mem.stack (data.length + i))

/-- `dico_get_u16`. -/
def dicoGetU16 (mem : Mem) (d : Dico) (sect : UInt8) (key : UInt16) : Option UInt16 :=
  (dicoGetWord mem 2 d sect key).map UInt16.ofNat

/-- `dico_get_u32`. -/
def dicoGetU32 (mem : Mem) (d : Dico) (sect : UInt8) (key : UInt16) : Option UInt32 :=
  (dicoGetWord mem 4 d sect key).map UInt32.ofNat

/-- `dico_get_u64`. -/
def dicoGetU64 (mem : Mem) (d : Dico) (sect : UInt8) (key : UInt16) : Option UInt64 :=
  (dicoGetWord mem 8 d sect key).map UInt64.ofNat

/-- `dico_get_string`. -/
def dicoGetString (d : Dico) (sect : UInt8) (key : UInt16) (bufsize : Nat) :
    Option (List UInt8) :=
  dicoGetData d sect key bufsize

/-- The buffer of `dico_get_string`, which is cleared before the payload is copied. -/
def stringBuffer (bufsize : Nat) (data : List UInt8) : List UInt8 :=
  data ++ List.replicate (bufsize - data.length) 0

/-- The characters of a buffer up to its first NUL. -/
def cString (buffer : List UInt8) : List UInt8 := buffer.takeWhile (· ≠ 0)

/-! ## Looking up what was added -/

/-- The search of an appended item: earlier items come first. -/
theorem Dico.find_append {d added : Dico} {item : DicoItem}
    (h : added.items = d.items ++ [item]) (sect : UInt8) (key : UInt16) :
    added.find sect key =
      (d.find sect key).or (if item.key = key ∧ item.sect = sect then some item else none) := by
  simp only [Dico.find, h, List.find?_append, List.find?_cons, List.find?_nil]
  congr 1
  split <;> simp_all

/-- An item of a dico is found under its own pair. -/
theorem Dico.find_of_mem {d : Dico} {item : DicoItem} (member : item ∈ d.items) :
    d.find item.sect item.key = some item := by
  cases found : d.find item.sect item.key with
  | none =>
    have absent := List.find?_eq_none.mp found item member
    simp at absent
  | some other =>
    have pair := List.find?_some found
    simp only [decide_eq_true_eq] at pair
    have same : other.name = item.name := Prod.ext pair.2 pair.1
    exact congrArg some
      (List.inj_on_of_nodup_map d.distinct (List.mem_of_find?_eq_some found) member same)

/-- A found item belongs to the dico and has the pair asked for. -/
theorem Dico.mem_of_find {d : Dico} {sect : UInt8} {key : UInt16} {item : DicoItem}
    (h : d.find sect key = some item) : item ∈ d.items ∧ item.sect = sect ∧ item.key = key := by
  have pair := List.find?_some h
  simp only [decide_eq_true_eq] at pair
  exact ⟨List.mem_of_find?_eq_some h, pair.2, pair.1⟩

/-- The payload of a found item that fits the buffer is what `dico_get_generic` returns. -/
theorem dicoGetGeneric_of_find {d : Dico} {sect : UInt8} {key : UInt16} {item : DicoItem}
    {maxsize : Nat} (found : d.find sect key = some item) (room : 0 < maxsize)
    (fits : item.data.length ≤ maxsize) : dicoGetGeneric d sect key maxsize = some item.data := by
  simp only [dicoGetGeneric, found, show ¬maxsize < 1 by omega, ↓reduceIte,
    show ¬item.data.length > maxsize by omega]

/-- A word whose payload has its full width does not depend on uninitialised memory. -/
theorem dicoGetWord_of_find {mem : Mem} {width : Nat} {d : Dico} {sect : UInt8} {key : UInt16}
    {item : DicoItem} (found : d.find sect key = some item) (room : 0 < width)
    (full : item.data.length = width) :
    dicoGetWord mem width d sect key = some (leNat item.data) := by
  simp [dicoGetWord, dicoGetData, dicoGetGeneric_of_find found room (Nat.le_of_eq full), full]

/-- A stored 16-bit item is read back. -/
theorem dicoGetU16_of_find {mem : Mem} {d : Dico} {sect : UInt8} {key : UInt16} {item : DicoItem}
    {value : UInt16} (found : d.find sect key = some item)
    (stored : item.data = leBytes 2 value.toNat) : dicoGetU16 mem d sect key = some value := by
  simp [dicoGetU16, dicoGetWord_of_find found (by decide : 0 < 2) (by simp [stored]), stored]

/-- A stored 32-bit item is read back. -/
theorem dicoGetU32_of_find {mem : Mem} {d : Dico} {sect : UInt8} {key : UInt16} {item : DicoItem}
    {value : UInt32} (found : d.find sect key = some item)
    (stored : item.data = leBytes 4 value.toNat) : dicoGetU32 mem d sect key = some value := by
  simp [dicoGetU32, dicoGetWord_of_find found (by decide : 0 < 4) (by simp [stored]), stored]

/-- A stored 64-bit item is read back. -/
theorem dicoGetU64_of_find {mem : Mem} {d : Dico} {sect : UInt8} {key : UInt16} {item : DicoItem}
    {value : UInt64} (found : d.find sect key = some item)
    (stored : item.data = leBytes 8 value.toNat) : dicoGetU64 mem d sect key = some value := by
  simp [dicoGetU64, dicoGetWord_of_find found (by decide : 0 < 8) (by simp [stored]), stored]

/-- In a dico made of calls, each call's item is found under its pair. -/
theorem Dico.find_of_call {d : Dico} {calls : List DicoCall}
    (items : d.items = calls.map DicoCall.item) {call : DicoCall} (member : call ∈ calls) :
    d.find call.sect call.key = some call.item :=
  @Dico.find_of_mem d call.item (items ▸ List.mem_map_of_mem member)

/-- A 16-bit word that a call added. -/
theorem dicoGetU16_of_call {mem : Mem} {d : Dico} {calls : List DicoCall} {sect : UInt8}
    {key : UInt16} {value : UInt16} (items : d.items = calls.map DicoCall.item)
    (member : dicoAddU16 sect key value ∈ calls) : dicoGetU16 mem d sect key = some value :=
  dicoGetU16_of_find (Dico.find_of_call items member)
    (show sizedData (leBytes 2 value.toNat) = _ from sizedData_of_lt (by simp))

/-- A 32-bit word that a call added. -/
theorem dicoGetU32_of_call {mem : Mem} {d : Dico} {calls : List DicoCall} {sect : UInt8}
    {key : UInt16} {value : UInt32} (items : d.items = calls.map DicoCall.item)
    (member : dicoAddU32 sect key value ∈ calls) : dicoGetU32 mem d sect key = some value :=
  dicoGetU32_of_find (Dico.find_of_call items member)
    (show sizedData (leBytes 4 value.toNat) = _ from sizedData_of_lt (by simp))

/-- A 64-bit word that a call added. -/
theorem dicoGetU64_of_call {mem : Mem} {d : Dico} {calls : List DicoCall} {sect : UInt8}
    {key : UInt16} {value : UInt64} (items : d.items = calls.map DicoCall.item)
    (member : dicoAddU64 sect key value ∈ calls) : dicoGetU64 mem d sect key = some value :=
  dicoGetU64_of_find (Dico.find_of_call items member)
    (show sizedData (leBytes 8 value.toNat) = _ from sizedData_of_lt (by simp))

/-- Data of a size that fits the buffer, which a call added. -/
theorem dicoGetData_of_call {d : Dico} {calls : List DicoCall} (call : DicoCall) {maxsize : Nat}
    (items : d.items = calls.map DicoCall.item) (member : call ∈ calls)
    (small : call.data.length < 65536) (room : 0 < maxsize) (fits : call.data.length ≤ maxsize) :
    dicoGetData d call.sect call.key maxsize = some call.data := by
  have same : call.item.data = call.data := sizedData_of_lt small
  rw [dicoGetData, dicoGetGeneric_of_find (Dico.find_of_call items member) room (by rwa [same]),
    same]

/-- A text without NUL is a C string as it is. -/
theorem cString_eq_self {text : List UInt8} (clean : 0 ∉ text) : cString text = text := by
  unfold cString
  induction text with
  | nil => rfl
  | cons char rest ih =>
    obtain ⟨other, restClean⟩ := not_or.mp (List.mem_cons.not.mp clean)
    rw [List.takeWhile_cons_of_pos (by simpa using Ne.symm other), ih restClean]

/-- What is behind a NUL does not matter. -/
theorem cString_nul (text tail : List UInt8) : cString (text ++ 0 :: tail) = cString text := by
  unfold cString
  induction text with
  | nil => simp
  | cons char rest ih =>
    by_cases nul : char = 0
    · simp [nul]
    · simp only [List.cons_append, List.takeWhile_cons, ne_eq, nul, not_false_eq_true, decide_true,
        ↓reduceIte, ih]

/-- A string in a buffer ends at its NUL. -/
theorem cString_buffer {text : List UInt8} (clean : 0 ∉ text) (tail : List UInt8) :
    cString (text ++ 0 :: tail) = text :=
  (cString_nul text tail).trans (cString_eq_self clean)

/-- So does one in a buffer that was cleared. -/
theorem cString_stringBuffer (bufsize : Nat) (text : List UInt8) :
    cString (stringBuffer bufsize (text ++ [0])) = cString text := by
  unfold stringBuffer
  rw [List.append_assoc]
  exact cString_nul text _

/-! ## Additions to a dico that is not empty -/

/-- The pair of an item is taken exactly when the search finds something. -/
theorem Dico.find_eq_none {d : Dico} {sect : UInt8} {key : UInt16} :
    d.find sect key = none ↔ (sect, key) ∉ d.items.map DicoItem.name := by
  simp only [Dico.find, List.find?_eq_none, List.mem_map, DicoItem.name, Prod.mk.injEq,
    decide_eq_true_eq, not_exists, not_and]
  exact ⟨fun absent item member sect key => absent item member key sect,
    fun absent item member key sect => absent item member sect key⟩

/-- One call: the search finds what it found before, or the new item. -/
theorem Dico.find_add (d : Dico) (call : DicoCall) (sect : UInt8) (key : UInt16) :
    Dico.find ((dicoAddGeneric d call.sect call.key call.data call.type).getD d) sect key =
      (d.find sect key).or (if call.key = key ∧ call.sect = sect then some call.item else none) := by
  cases added : dicoAddGeneric d call.sect call.key call.data call.type with
  | some d' => exact Dico.find_append (dicoAddGeneric_eq_some.mp added).2 sect key
  | none =>
    -- the pair is taken, so that the search for it finds the earlier item
    have taken : (call.sect, call.key) ∈ d.items.map DicoItem.name := by
      by_contra fresh
      rw [dicoAddGeneric, dif_pos fresh] at added
      cases added
    rw [Option.getD_none]
    split
    next same =>
      obtain ⟨rfl, rfl⟩ := same
      have found : d.find call.sect call.key ≠ none := fun absent => Dico.find_eq_none.mp absent taken
      obtain ⟨item, found⟩ := Option.ne_none_iff_exists'.mp found
      rw [found, Option.some_or]
    next => rw [Option.or_none]

/-- The search after calls in a row finds what it found before, or the first of them with the
pair. -/
theorem find_dicoAddAll (d : Dico) (calls : List DicoCall) (sect : UInt8) (key : UInt16) :
    (dicoAddAll d calls).find sect key = (d.find sect key).or
      ((calls.find? fun call => call.key = key ∧ call.sect = sect).map DicoCall.item) := by
  induction calls generalizing d with
  | nil => simp [dicoAddAll]
  | cons call calls ih =>
    have onward := ih ((dicoAddGeneric d call.sect call.key call.data call.type).getD d)
    rw [Dico.find_add, Option.or_assoc] at onward
    refine onward.trans ?_
    by_cases same : call.key = key ∧ call.sect = sect
    · simp [same]
    · simp [same]

/-- Calls with other pairs do not change what is found. -/
theorem find_dicoAddAll_other {d : Dico} {calls : List DicoCall} {sect : UInt8} {key : UInt16}
    (other : ∀ call ∈ calls, ¬(call.key = key ∧ call.sect = sect)) :
    (dicoAddAll d calls).find sect key = d.find sect key := by
  rw [find_dicoAddAll, List.find?_eq_none.mpr (by simpa using other)]
  simp

/-- What was found is still found after more calls. -/
theorem find_dicoAddAll_kept {d : Dico} {calls : List DicoCall} {sect : UInt8} {key : UInt16}
    {item : DicoItem} (found : d.find sect key = some item) :
    (dicoAddAll d calls).find sect key = some item := by
  rw [find_dicoAddAll, found, Option.some_or]

/-- Calls with pairs of their own, none of them taken, all succeed. -/
theorem dicoAddEach_of_fresh {d : Dico} {calls : List DicoCall}
    (fresh : (d.items ++ calls.map DicoCall.item).map DicoItem.name |>.Nodup) :
    dicoAddEach d calls = some (dicoAddAll d calls) := by
  induction calls generalizing d with
  | nil => rfl
  | cons call calls ih =>
    have free : (call.sect, call.key) ∉ d.items.map DicoItem.name := by
      rw [List.map_append, List.nodup_append] at fresh
      exact fun taken => fresh.2.2 _ taken call.item.name (by simp) rfl
    have first : dicoAddGeneric d call.sect call.key call.data call.type =
        some ((dicoAddGeneric d call.sect call.key call.data call.type).getD d) := by
      rw [dicoAddGeneric, dif_pos free]
      rfl
    have items : ((dicoAddGeneric d call.sect call.key call.data call.type).getD d).items =
        d.items ++ [call.item] := (dicoAddGeneric_eq_some.mp first).2
    have rest := @ih ((dicoAddGeneric d call.sect call.key call.data call.type).getD d)
      (by rw [items]; simpa using fresh)
    rw [dicoAddEach, List.foldlM_cons, first]
    exact rest

end FsArchiver
