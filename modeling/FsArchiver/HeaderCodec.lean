import FsArchiver.HeaderBounds
import FsArchiver.Lib.ByteOrder

/-!
# Headers between machines

The functions that write and read a header on a machine with a byte order of its own. Every word is
converted before it is copied to a buffer and after it is copied from one, so that the order of the
machine does not matter; the length of a header does, since it is counted in 32 bits.
-/
namespace FsArchiver

open Lib

/-! ## Functions that store words -/

/-- A word converted with `cpu_to_le*`, as it lies in memory. -/
def storedWord (order : ByteOrder) (width value : Nat) : List UInt8 :=
  nativeBytes order width (cpuToLe order width value)

/-- The word that `le*_to_cpu` gives for a variable with these bytes. -/
def loadedWord (order : ByteOrder) (bytes : List UInt8) : Nat :=
  leToCpu order bytes.length (nativeNat order bytes)

/-- `dico_add_u16`. -/
def dicoAddU16On (order : ByteOrder) (sect : UInt8) (key value : UInt16) : DicoCall :=
  ⟨sect, key, storedWord order 2 value.toNat, DicType.u16⟩

/-- `dico_add_u32`. -/
def dicoAddU32On (order : ByteOrder) (sect : UInt8) (key : UInt16) (value : UInt32) : DicoCall :=
  ⟨sect, key, storedWord order 4 value.toNat, DicType.u32⟩

/-- `dico_add_u64`. -/
def dicoAddU64On (order : ByteOrder) (sect : UInt8) (key : UInt16) (value : UInt64) : DicoCall :=
  ⟨sect, key, storedWord order 8 value.toNat, DicType.u64⟩

/-- An item as `writebuf_add_dico` copies it. -/
def DicoItem.encodeOn (order : ByteOrder) (item : DicoItem) : List UInt8 :=
  [item.type, item.sect] ++ storedWord order 2 item.key.toNat ++
    storedWord order 2 item.data.length ++ item.data

/-- What `writebuf_add_dico` copies to its buffer. -/
def Dico.encodeOn (order : ByteOrder) (d : Dico) : List UInt8 :=
  storedWord order 2 d.items.length ++ d.items.flatMap (DicoItem.encodeOn order)

/-- `writebuf_add_dico`; nothing is said of a run that copies items behind the end of the buffer,
which has `headerlen` bytes. -/
def writebufAddDicoOn (order : ByteOrder) (wb : List UInt8) (d : Dico) : Option (List UInt8) :=
  let buffer := d.encodeOn order
  if d.headerlen.toNat < buffer.length then none
  else do
    let wb ← writebufAddData wb (storedWord order 4 d.headerlen.toNat)
    let wb ← writebufAddData wb buffer
    writebufAddData wb (storedWord order 4 (fletcher32 buffer).toNat)

/-- `writebuf_add_header`. -/
def writebufAddHeaderOn (order : ByteOrder) (wb : List UInt8) (d : Dico) (magic : Magic)
    (archid : UInt32) (fsid : UInt16) : Option (List UInt8) := do
  let wb ← writebufAddData wb magic.bytes
  let wb ← writebufAddData wb (storedWord order 4 archid.toNat)
  let wb ← writebufAddData wb (storedWord order 2 fsid.toNat)
  writebufAddDicoOn order wb d

/-! ## Functions that load words -/

/-- The loop of `archreader_read_dico`. -/
def readItemsOn (order : ByteOrder) (mem : Mem) (buffer : List UInt8) :
    Nat → Nat → Dico → Option Dico
  | 0, _, d => some d
  | count + 1, pos, d =>
    let type := UInt8.ofNat (leNat (heapBytes mem buffer pos 1))
    let sect := UInt8.ofNat (leNat (heapBytes mem buffer (pos + 1) 1))
    let key := UInt16.ofNat (loadedWord order (heapBytes mem buffer (pos + 2) 2))
    let size := loadedWord order (heapBytes mem buffer (pos + 4) 2)
    match dicoAddGeneric d sect key (heapBytes mem buffer (pos + 6) size) type with
    | none => none
    | some d => readItemsOn order mem buffer count (pos + 6 + size) d

/-- `archreader_read_dico`. -/
def archreaderReadDicoOn (order : ByteOrder) (mem : Mem) (ai : ArchReader) : Read Dico :=
  let lenSize := if ai.filefmtver = 1 then 2 else 4
  if ai.filefmtver ≠ 1 ∧ ai.filefmtver ≠ 2 then .fatal
  else
    match archreaderReadData ai lenSize with
    | none => .fatal
    | some (len, ai) =>
      match archreaderReadData ai (loadedWord order len) with
      | none => .fatal
      | some (buffer, ai) =>
        match archreaderReadData ai 4 with
        | none => .fatal
        | some (origsum, ai) =>
          if (fletcher32 buffer).toNat ≠ loadedWord order origsum then .minor ai
          else
            match readItemsOn order mem buffer (loadedWord order (heapBytes mem buffer 0 2)) 2
              Dico.alloc with
            | none => .fatal
            | some d => .ok d ai

/-- `archreader_read_header` behind the magic. -/
def readHeaderAtOn (order : ByteOrder) (mem : Mem) (ai : ArchReader) (start : Nat) (magic : Magic) :
    Read HeaderRead :=
  match archreaderReadData { ai with pos := start + sizeofMagic } 4 with
  | none => .fatal
  | some (archid, ai) =>
    if ai.archid ≠ 0 ∧ loadedWord order archid ≠ ai.archid.toNat then .minor ai
    else
      match archreaderReadData ai 2 with
      | none => .fatal
      | some (fsid, ai) =>
        match archreaderReadDicoOn order mem ai with
        | .ok dico ai => .ok ⟨start, magic, UInt16.ofNat (loadedWord order fsid), dico⟩ ai
        | .minor ai => .minor ai
        | .fatal => .fatal

/-- `archreader_read_header`. -/
def archreaderReadHeaderOn (order : ByteOrder) (mem : Mem) (ai : ArchReader) (allowseek : Bool) :
    Read HeaderRead :=
  match findMagic (ai.file.drop ai.pos) with
  | none => .fatal
  | some (offset, magic) =>
    if offset ≠ 0 ∧ allowseek = false then .fatal
    else readHeaderAtOn order mem ai (ai.pos + offset) magic

/-- The number in a local variable of this width into which `dico_get_data` copied a payload. -/
def dicoGetWordOn (order : ByteOrder) (mem : Mem) (width : Nat) (d : Dico) (sect : UInt8)
    (key : UInt16) : Option Nat :=
  (dicoGetData d sect key width).map fun data =>
    loadedWord order
      (data ++ (List.range (width - data.length)).map fun i => mem.stack (data.length + i))

/-- `dico_get_u16`. -/
def dicoGetU16On (order : ByteOrder) (mem : Mem) (d : Dico) (sect : UInt8) (key : UInt16) :
    Option UInt16 :=
  (dicoGetWordOn order mem 2 d sect key).map UInt16.ofNat

/-- `dico_get_u32`. -/
def dicoGetU32On (order : ByteOrder) (mem : Mem) (d : Dico) (sect : UInt8) (key : UInt16) :
    Option UInt32 :=
  (dicoGetWordOn order mem 4 d sect key).map UInt32.ofNat

/-- `dico_get_u64`. -/
def dicoGetU64On (order : ByteOrder) (mem : Mem) (d : Dico) (sect : UInt8) (key : UInt16) :
    Option UInt64 :=
  (dicoGetWordOn order mem 8 d sect key).map UInt64.ofNat

/-! ## The byte order does not matter -/

variable {order : ByteOrder}

theorem storedWord_eq (width value : Nat) : storedWord order width value = leBytes width value :=
  nativeBytes_cpuToLe order width value

theorem loadedWord_eq : loadedWord order = leNat := by
  funext bytes
  exact leToCpu_nativeNat order bytes

theorem encodeOn_eq (d : Dico) : d.encodeOn order = d.encode := by
  have item : DicoItem.encodeOn order = DicoItem.encode := by
    funext item
    rw [DicoItem.encodeOn, storedWord_eq, storedWord_eq, DicoItem.encode]
  rw [Dico.encodeOn, storedWord_eq, item, Dico.encode]

/-- A header is written as on a machine with little-endian order, if its length has 32 bits. -/
theorem writebufAddHeaderOn_of_lt (wb : List UInt8) {d : Dico} (short : d.encode.length < 2 ^ 32)
    (magic : Magic) (archid : UInt32) (fsid : UInt16) :
    writebufAddHeaderOn order wb d magic archid fsid = writebufAddHeader wb d magic archid fsid := by
  have len : d.headerlen.toNat = d.encode.length := by
    rw [headerlen_eq, UInt32.toNat_ofNat', Nat.mod_eq_of_lt short]
  have inside : ¬d.headerlen.toNat < d.encode.length := by
    rw [len]
    exact Nat.lt_irrefl _
  have dico : ∀ wb, writebufAddDicoOn order wb d = writebufAddDico wb d := by
    intro wb
    simp only [writebufAddDicoOn, encodeOn_eq, if_neg inside, storedWord_eq, writebufAddDico]
    rw [len, List.take_length]
  simp only [writebufAddHeaderOn, storedWord_eq, dico, writebufAddHeader]

/-- Otherwise the items do not fit the buffer. -/
theorem writebufAddHeaderOn_of_ge (wb : List UInt8) {d : Dico} (long : 2 ^ 32 ≤ d.encode.length)
    (magic : Magic) (archid : UInt32) (fsid : UInt16) :
    writebufAddHeaderOn order wb d magic archid fsid = none := by
  have wraps : d.headerlen.toNat < d.encode.length :=
    Nat.lt_of_lt_of_le d.headerlen.toNat_lt long
  have dico : ∀ wb, writebufAddDicoOn order wb d = none := by
    intro wb
    simp only [writebufAddDicoOn, encodeOn_eq, if_pos wraps]
  simp [writebufAddHeaderOn, writebufAddData, dico, storedWord_eq, Magic.length_bytes]

theorem archreaderReadHeaderOn_eq (mem : Mem) (ai : ArchReader) (allowseek : Bool) :
    archreaderReadHeaderOn order mem ai allowseek = archreaderReadHeader mem ai allowseek := by
  have items : ∀ buffer count pos d,
      readItemsOn order mem buffer count pos d = readItems mem buffer count pos d := by
    intro buffer count
    induction count with
    | zero => exact fun _ _ => rfl
    | succ count ih =>
      intro pos d
      simp only [readItemsOn, loadedWord_eq, ih]
      rfl
  have dico : ∀ ai, archreaderReadDicoOn order mem ai = archreaderReadDico mem ai := by
    intro ai
    simp only [archreaderReadDicoOn, loadedWord_eq, items]
    rfl
  simp only [archreaderReadHeaderOn, readHeaderAtOn, loadedWord_eq, dico]
  rfl

theorem dicoGetWordOn_eq (mem : Mem) (width : Nat) (d : Dico) (sect : UInt8) (key : UInt16) :
    dicoGetWordOn order mem width d sect key = dicoGetWord mem width d sect key := by
  rw [dicoGetWordOn, loadedWord_eq, dicoGetWord]

/-! ## Sequences of additions -/

/-- A call of one of the `dico_add_*` functions. -/
inductive DicoAdd where
  | u16 (sect : UInt8) (key : UInt16) (value : UInt16)
  | u32 (sect : UInt8) (key : UInt16) (value : UInt32)
  | u64 (sect : UInt8) (key : UInt16) (value : UInt64)
  /-- A string without its NUL. -/
  | string (sect : UInt8) (key : UInt16) (szstring : List UInt8) (clean : 0 ∉ szstring)
    (short : szstring.length ≤ 65534)
  | data (sect : UInt8) (key : UInt16) (bytes : List UInt8) (short : bytes.length ≤ 65534)

namespace DicoAdd

/-- What the call passes to `dico_add_generic`. -/
def call (order : ByteOrder) : DicoAdd → DicoCall
  | u16 sect key value => dicoAddU16On order sect key value
  | u32 sect key value => dicoAddU32On order sect key value
  | u64 sect key value => dicoAddU64On order sect key value
  | string sect key szstring _ _ => dicoAddString sect key szstring
  | data sect key bytes _ => dicoAddData sect key bytes

/-- Section and key. -/
def pair : DicoAdd → UInt8 × UInt16
  | u16 sect key _ | u32 sect key _ | u64 sect key _ | string sect key _ _ _
  | data sect key _ _ => (sect, key)

/-- Size of the item. -/
def size : DicoAdd → Nat
  | u16 _ _ _ => 2
  | u32 _ _ _ => 4
  | u64 _ _ _ => 8
  | string _ _ szstring _ _ => szstring.length + 1
  | data _ _ bytes _ => bytes.length

/-- The function of its kind returns what the call added, for every buffer that is large enough. -/
def ReadBack (order : ByteOrder) (mem : Mem) (d : Dico) : DicoAdd → Prop
  | u16 sect key value => dicoGetU16On order mem d sect key = some value
  | u32 sect key value => dicoGetU32On order mem d sect key = some value
  | u64 sect key value => dicoGetU64On order mem d sect key = some value
  | string sect key szstring _ _ => ∀ bufsize, szstring.length < bufsize →
      (dicoGetString d sect key bufsize).map (stringBuffer bufsize) =
        some (szstring ++ List.replicate (bufsize - szstring.length) 0)
  | data sect key bytes _ => ∀ maxsize, 0 < maxsize → bytes.length ≤ maxsize →
      dicoGetData d sect key maxsize = some bytes

end DicoAdd

/-- No function of `dico_get_*` finds the pair. -/
def NotFound (order : ByteOrder) (mem : Mem) (d : Dico) (sect : UInt8) (key : UInt16) : Prop :=
  dicoGetU16On order mem d sect key = none ∧ dicoGetU32On order mem d sect key = none ∧
    dicoGetU64On order mem d sect key = none ∧ (∀ bufsize, dicoGetString d sect key bufsize = none) ∧
    ∀ maxsize, dicoGetData d sect key maxsize = none

/-- The header of a dico made of these calls goes from one machine to another: what is written is
read, no more and no less, whatever follows it, and everything that was added is found. -/
def HeaderCarried (writer reader : ByteOrder) (adds : List DicoAdd) (magic : Magic)
    (archid : UInt32) (fsid : UInt16) : Prop :=
  ∃ d, dicoAddEach Dico.alloc (adds.map (DicoAdd.call writer)) = some d ∧
    d.items = (adds.map (DicoAdd.call writer)).map DicoCall.item ∧
    ∀ wb, ∃ record, writebufAddHeaderOn writer wb d magic archid fsid = some (wb ++ record) ∧
      ∀ (mem : Mem) (ai : ArchReader) (rest : List UInt8) (allowseek : Bool), ai.filefmtver = 2 →
        (ai.archid = 0 ∨ ai.archid = archid) → ai.ahead = record ++ rest →
        ∃ d', archreaderReadHeaderOn reader mem ai allowseek =
            .ok ⟨ai.pos, magic, fsid, d'⟩ (ai.skip record.length) ∧
          d'.items = d.items ∧ (∀ add ∈ adds, add.ReadBack reader mem d') ∧
          ∀ sect key, (sect, key) ∉ adds.map DicoAdd.pair → NotFound reader mem d' sect key

variable {adds : List DicoAdd} {d : Dico}

/-- The arguments of a call do not depend on the machine. -/
theorem DicoAdd.call_eq (add : DicoAdd) (order : ByteOrder) :
    (add.call order).sect = add.pair.1 ∧ (add.call order).key = add.pair.2 ∧
      (add.call order).data.length = add.size := by
  cases add with
  | u16 sect key value => exact ⟨rfl, rfl, by simp [call, dicoAddU16On, storedWord_eq, size]⟩
  | u32 sect key value => exact ⟨rfl, rfl, by simp [call, dicoAddU32On, storedWord_eq, size]⟩
  | u64 sect key value => exact ⟨rfl, rfl, by simp [call, dicoAddU64On, storedWord_eq, size]⟩
  | string sect key szstring clean short => exact ⟨rfl, rfl, by simp [call, dicoAddString, size]⟩
  | data sect key bytes short => exact ⟨rfl, rfl, rfl⟩

theorem DicoAdd.size_string (sect : UInt8) (key : UInt16) (szstring : List UInt8)
    (clean : 0 ∉ szstring) (short : szstring.length ≤ 65534) :
    (DicoAdd.string sect key szstring clean short).size = szstring.length + 1 := rfl

/-- Every size fits the size field of an item. -/
theorem DicoAdd.size_lt (add : DicoAdd) : add.size < 65536 := by
  cases add with
  | u16 sect key value => exact (by decide : 2 < 65536)
  | u32 sect key value => exact (by decide : 4 < 65536)
  | u64 sect key value => exact (by decide : 8 < 65536)
  | string sect key szstring clean short =>
    show szstring.length + 1 < 65536
    omega
  | data sect key bytes short =>
    show bytes.length < 65536
    omega

/-- So an item holds all data of its call. -/
theorem DicoAdd.item_data (add : DicoAdd) (order : ByteOrder) :
    (add.call order).item.data = (add.call order).data := by
  apply sizedData_of_lt
  rw [(add.call_eq order).2.2]
  exact add.size_lt

/-- Pairs of the items are the pairs of the calls. -/
theorem names_of_adds (order : ByteOrder) (adds : List DicoAdd) :
    ((adds.map (DicoAdd.call order)).map DicoCall.item).map DicoItem.name =
      adds.map DicoAdd.pair := by
  rw [List.map_map, List.map_map]
  apply List.map_congr_left
  intro add _
  exact Prod.ext (add.call_eq order).1 (add.call_eq order).2.1

/-- Distinct pairs are all added. -/
theorem dicoAddEach_adds (order : ByteOrder) (distinct : (adds.map DicoAdd.pair).Nodup) :
    ∃ d, dicoAddEach Dico.alloc (adds.map (DicoAdd.call order)) = some d ∧
      d.items = (adds.map (DicoAdd.call order)).map DicoCall.item := by
  have fresh : ((Dico.alloc.items ++ (adds.map (DicoAdd.call order)).map DicoCall.item).map
      DicoItem.name).Nodup := by
    show (((adds.map (DicoAdd.call order)).map DicoCall.item).map DicoItem.name).Nodup
    rw [names_of_adds]
    exact distinct
  exact ⟨_, dicoAddEach_of_fresh fresh, items_dicoAddAll fresh⟩

/-- The length of the encoding. -/
theorem length_encode_adds (order : ByteOrder)
    (items : d.items = (adds.map (DicoAdd.call order)).map DicoCall.item) :
    d.encode.length = 2 + (adds.map fun add => 6 + add.size).sum := by
  have each : ∀ adds : List DicoAdd,
      (((adds.map (DicoAdd.call order)).map DicoCall.item).flatMap DicoItem.encode).length =
        (adds.map fun add => 6 + add.size).sum := by
    intro adds
    induction adds with
    | nil => rfl
    | cons add adds ih =>
      have size : (add.call order).item.data.length = add.size := by
        rw [add.item_data, (add.call_eq order).2.2]
      rw [List.map_cons, List.map_cons, List.flatMap_cons, List.length_append, ih, List.map_cons,
        List.sum_cons, length_encodeItem, size]
  rw [Dico.encode, items, List.length_append, length_leBytes, each]

/-- Everything that was added is found. -/
theorem readBack_of_items (writer reader : ByteOrder) (mem : Mem)
    (items : d.items = (adds.map (DicoAdd.call writer)).map DicoCall.item) :
    ∀ add ∈ adds, add.ReadBack reader mem d := by
  intro add member
  have among : add.call writer ∈ adds.map (DicoAdd.call writer) := List.mem_map_of_mem member
  have found := Dico.find_of_call items among
  have stored := add.item_data writer
  cases add with
  | u16 sect key value =>
    show dicoGetU16On reader mem d sect key = some value
    rw [dicoGetU16On, dicoGetWordOn_eq]
    exact dicoGetU16_of_find found (stored.trans (storedWord_eq 2 value.toNat))
  | u32 sect key value =>
    show dicoGetU32On reader mem d sect key = some value
    rw [dicoGetU32On, dicoGetWordOn_eq]
    exact dicoGetU32_of_find found (stored.trans (storedWord_eq 4 value.toNat))
  | u64 sect key value =>
    show dicoGetU64On reader mem d sect key = some value
    rw [dicoGetU64On, dicoGetWordOn_eq]
    exact dicoGetU64_of_find found (stored.trans (storedWord_eq 8 value.toNat))
  | string sect key szstring clean short =>
    intro bufsize room
    have length : (szstring ++ [0]).length = szstring.length + 1 := List.length_append
    have read : dicoGetData d sect key bufsize = some (szstring ++ [0]) :=
      dicoGetData_of_call (dicoAddString sect key szstring) items among
        (by show (szstring ++ [0]).length < 65536; omega) (by omega)
        (by show (szstring ++ [0]).length ≤ bufsize; omega)
    obtain ⟨zeros, count⟩ : ∃ zeros, bufsize - szstring.length = zeros + 1 :=
      ⟨bufsize - szstring.length - 1, by omega⟩
    rw [dicoGetString, read, Option.map_some, stringBuffer, length, count,
      show bufsize - (szstring.length + 1) = zeros by omega, List.replicate_succ, List.append_assoc]
    rfl
  | data sect key bytes short =>
    intro maxsize room fits
    exact dicoGetData_of_call (dicoAddData sect key bytes) items among
      (by show bytes.length < 65536; omega) room fits

/-- Nothing else is. -/
theorem notFound_of_items (writer reader : ByteOrder) (mem : Mem)
    (items : d.items = (adds.map (DicoAdd.call writer)).map DicoCall.item) {sect : UInt8}
    {key : UInt16} (other : (sect, key) ∉ adds.map DicoAdd.pair) :
    NotFound reader mem d sect key := by
  have absent : d.find sect key = none := by
    rw [Dico.find_eq_none, items, names_of_adds]
    exact other
  have read : ∀ maxsize, dicoGetData d sect key maxsize = none := by
    intro maxsize
    unfold dicoGetData dicoGetGeneric
    rw [absent]
    split <;> rfl
  refine ⟨?_, ?_, ?_, read, read⟩
  · rw [dicoGetU16On, dicoGetWordOn, read, Option.map_none, Option.map_none]
  · rw [dicoGetU32On, dicoGetWordOn, read, Option.map_none, Option.map_none]
  · rw [dicoGetU64On, dicoGetWordOn, read, Option.map_none, Option.map_none]

/-! ## From machine to machine -/

/-- A header that is too long is not carried. -/
theorem not_carried_of_long {writer reader : ByteOrder} {magic : Magic} {archid : UInt32}
    {fsid : UInt16} (long : ¬2 + (adds.map fun add => 6 + add.size).sum < 2 ^ 32) :
    ¬HeaderCarried writer reader adds magic archid fsid := by
  rintro ⟨d, -, items, written⟩
  rw [← length_encode_adds writer items] at long
  obtain ⟨record, wrote, -⟩ := written []
  rw [writebufAddHeaderOn_of_ge [] (Nat.le_of_not_lt long)] at wrote
  cases wrote

/-- Between any two machines the header of a dico is carried exactly if its length has 32 bits. -/
theorem header_carried_iff (writer reader : ByteOrder) (adds : List DicoAdd)
    (distinct : (adds.map DicoAdd.pair).Nodup) (few : adds.length < 65536) (magic : Magic)
    (archid : UInt32) (fsid : UInt16) :
    HeaderCarried writer reader adds magic archid fsid ↔
      2 + (adds.map fun add => 6 + add.size).sum < 2 ^ 32 := by
  constructor
  · intro carried
    by_contra long
    exact not_carried_of_long long carried
  · intro short
    obtain ⟨d, added, items⟩ := dicoAddEach_adds writer distinct
    have fits : d.Fits := by
      constructor
      · rw [items, List.length_map, List.length_map]
        exact few
      · rw [length_encode_adds writer items]
        exact short
    refine ⟨d, added, items, ?_⟩
    intro wb
    refine ⟨headerBytes magic archid fsid d, ?_, ?_⟩
    · rw [writebufAddHeaderOn_of_lt wb fits.length]
      exact writebufAddHeader_eq wb fits magic archid fsid
    · intro mem ai rest allowseek version known here
      refine ⟨d, ?_, rfl, readBack_of_items writer reader mem items, ?_⟩
      · rw [archreaderReadHeaderOn_eq]
        exact archreaderReadHeader_of_ahead mem allowseek version known fits here
      · intro sect key other
        exact notFound_of_items writer reader mem items other

/-- One call of each kind. -/
def fiveAdds : List DicoAdd :=
  [.u16 0 1 0x1234, .u32 0 2 0x12345678, .u64 1 1 0x123456789abcdef0,
    .string 0 3 [0x61, 0x62] (by decide) (by decide), .data 2 1 [] (by decide)]

theorem header_carried_five :
    HeaderCarried .big .little fiveAdds .objt 0x89abcdef 3 :=
  (header_carried_iff .big .little fiveAdds (by decide) (by decide) .objt 0x89abcdef 3).mpr
    (by decide)

/-- The longest string. -/
def longString (key : Nat) : DicoAdd :=
  .string 0 (UInt16.ofNat key) (List.replicate 65534 0x61)
    (fun member => absurd (List.eq_of_mem_replicate member) (by decide))
    (Nat.le_of_eq List.length_replicate)

theorem size_longString (key : Nat) : (longString key).size = 65535 :=
  (DicoAdd.size_string 0 (UInt16.ofNat key) _ _ _).trans
    (congrArg (· + 1) List.length_replicate)

/-- As many of them as a header may have. -/
def longAdds : List DicoAdd := (List.range 65535).map longString

/-- The length of items of one size. -/
theorem sum_replicate_size (count size : Nat) : (List.replicate count size).sum = count * size :=
  List.sum_replicate_nat

/-- Their header has 4295229437 bytes, of which the length field keeps 262141. -/
theorem header_lost_long :
    (longAdds.map DicoAdd.pair).Nodup ∧ longAdds.length < 65536 ∧
      ¬HeaderCarried .little .little longAdds .objt 1 0 := by
  refine ⟨?_, ?_, ?_⟩
  · unfold longAdds
    rw [List.map_map]
    apply List.Nodup.map_on _ List.nodup_range
    intro i inside j inside' same
    rw [List.mem_range] at inside inside'
    have keys : UInt16.ofNat i = UInt16.ofNat j := congrArg Prod.snd same
    have numbers := congrArg UInt16.toNat keys
    rw [UInt16.toNat_ofNat', UInt16.toNat_ofNat', Nat.mod_eq_of_lt (by omega),
      Nat.mod_eq_of_lt (by omega)] at numbers
    exact numbers
  · rw [longAdds, List.length_map, List.length_range]
    decide
  · apply not_carried_of_long
    have each : longAdds.map (fun add => 6 + add.size) = List.replicate 65535 65541 := by
      unfold longAdds
      rw [List.map_map, List.eq_replicate_iff]
      refine ⟨by rw [List.length_map, List.length_range], ?_⟩
      intro size member
      obtain ⟨key, -, same⟩ := List.mem_map.mp member
      rw [← same, Function.comp_apply, size_longString]
    rw [each, sum_replicate_size]
    decide

end FsArchiver
