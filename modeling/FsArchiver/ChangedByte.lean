import FsArchiver.Fletcher
import FsArchiver.Resync

/-!
# One changed byte in a header record

A header record is guarded by parts: the archive id by its value, the contents by their checksum,
the magic by the list of magics. Nothing guards the filesystem id, and the length is guarded only
by what happens to lie behind it.
-/
namespace FsArchiver

open Lib

/-- The items of a dico from the bytes between its length and its checksum. -/
def readBack (mem : Mem) (body : List UInt8) : Option Dico :=
  readItems mem body (leNat (heapBytes mem body 0 2)) 2 Dico.alloc

/-- The bytes behind a magic spell the rest of a header record: the archive id, a filesystem id,
and a dico with its length and its checksum. -/
structure Spells (mem : Mem) (archid : UInt32) (bytes : List UInt8) (fsid : UInt16) (d : Dico) :
    Prop where
  /-- The archive id. -/
  id : (bytes.drop 4).take 4 = leBytes 4 archid.toNat
  /-- The filesystem id. -/
  fsid : (bytes.drop 8).take 2 = leBytes 2 fsid.toNat
  /-- The volume does not end in the record. -/
  whole : 18 + leNat ((bytes.drop 10).take 4) ≤ bytes.length
  /-- The checksum of as many bytes as the length says. -/
  sum : (fletcher32 ((bytes.drop 14).take (leNat ((bytes.drop 10).take 4)))).toNat =
    leNat ((bytes.drop (14 + leNat ((bytes.drop 10).take 4))).take 4)
  /-- Their items. -/
  items : readBack mem ((bytes.drop 14).take (leNat ((bytes.drop 10).take 4))) = some d

variable {mem : Mem} {archid : UInt32} {ai : ArchReader} {bytes : List UInt8} {fsid : UInt16}
  {d : Dico}

/-- The reader takes what is spelled. -/
theorem headerAt_eq_ok {size : Nat} :
    headerAt mem archid bytes = .ok size fsid d ↔
      Spells mem archid bytes fsid d ∧ size = 18 + leNat ((bytes.drop 10).take 4) := by
  constructor
  · intro read
    unfold headerAt at read
    simp only at read
    split at read
    · exact absurd read (by simp)
    next wide =>
    split at read
    · exact absurd read (by simp)
    next id =>
    split at read
    · exact absurd read (by simp)
    next whole =>
    split at read
    · exact absurd read (by simp)
    next sum =>
    split at read
    · exact absurd read (by simp)
    next items =>
    simp only [HeaderAt.ok.injEq] at read
    obtain ⟨rfl, rfl, rfl⟩ := read
    have two : ((bytes.drop 8).take 2).length = 2 := by
      rw [List.length_take, List.length_drop]
      omega
    have word : leNat ((bytes.drop 8).take 2) < 65536 := by
      have bound := leNat_lt ((bytes.drop 8).take 2)
      rwa [two] at bound
    refine ⟨?_, rfl⟩
    exact {
      id := (id_eq_iff wide).mp (Decidable.not_not.mp id)
      fsid := by
        apply leNat_injective
        · rw [two, length_leBytes]
        · rw [leNat_leBytes_uint16, UInt16.toNat_ofNat', Nat.mod_eq_of_lt word]
      whole := Nat.le_of_not_lt whole
      sum := Decidable.not_not.mp sum
      items := items }
  · rintro ⟨spells, rfl⟩
    have whole := spells.whole
    have wide : ¬bytes.length < 8 := by omega
    have id : ¬leNat ((bytes.drop 4).take 4) ≠ archid.toNat :=
      fun differs => differs ((id_eq_iff wide).mpr spells.id)
    have items := spells.items
    unfold readBack at items
    simp only [headerAt, if_neg wide, if_neg id, if_neg (Nat.not_lt.mpr whole), spells.sum,
      ne_eq, not_true_eq_false, if_false, items, spells.fsid, leNat_leBytes_uint16,
      UInt16.ofNat_toNat]

/-- A header is delivered where the search finds a magic and the record is spelled. -/
theorem archreaderReadHeader_ok (known : ai.archid = archid) (nonzero : archid ≠ 0)
    (version : ai.filefmtver = 2) {allowseek : Bool} {head : HeaderRead} :
    (∃ after, archreaderReadHeader mem ai allowseek = .ok head after) ↔
      ∃ offset, findMagic ai.ahead = some (offset, head.magic) ∧
        (offset = 0 ∨ allowseek = true) ∧ head.start = ai.pos + offset ∧
        Spells mem archid (ai.ahead.drop offset) head.fsid head.dico := by
  cases found : findMagic ai.ahead with
  | none =>
    have failed : archreaderReadHeader mem ai allowseek = .fatal := by
      rw [archreaderReadHeader, ← ArchReader.ahead, found]
    simp [failed]
  | some place =>
    obtain ⟨offset, magic⟩ := place
    have four := four_le_of_magic (magic_of_findMagic found)
    rw [← ArchReader.ahead_skip_eq] at four
    have sought : archreaderReadHeader mem ai allowseek =
        if offset ≠ 0 ∧ allowseek = false then .fatal
        else readHeaderAt mem (ai.skip offset) (ai.skip offset).pos magic := by
      rw [archreaderReadHeader, ← ArchReader.ahead, found]
      rfl
    rw [sought, readHeaderAt_eq mem (show (ai.skip offset).archid = archid from known) nonzero
      version four, ArchReader.ahead_skip_eq]
    by_cases refused : offset ≠ 0 ∧ allowseek = false
    · rw [if_pos refused]
      constructor
      · rintro ⟨after, delivered⟩
        exact absurd delivered (by simp)
      · rintro ⟨offset', same, allowed, -⟩
        simp only [Option.some.injEq, Prod.mk.injEq] at same
        obtain ⟨rfl, rfl⟩ := same
        simp [refused] at allowed
    · rw [if_neg refused]
      constructor
      · rintro ⟨after, delivered⟩
        split at delivered
        · exact absurd delivered (by simp)
        · exact absurd delivered (by simp)
        next size fsid d spelled =>
        simp only [Read.ok.injEq] at delivered
        obtain ⟨rfl, -⟩ := delivered
        refine ⟨offset, rfl, ?_, rfl, (headerAt_eq_ok.mp spelled).1⟩
        simpa [Decidable.or_iff_not_imp_left] using refused
      · rintro ⟨offset', same, -, start, spelled⟩
        simp only [Option.some.injEq, Prod.mk.injEq] at same
        obtain ⟨rfl, rfl⟩ := same
        rw [headerAt_eq_ok.mpr ⟨spelled, rfl⟩]
        obtain ⟨place, magic, fsid, d⟩ := head
        subst start
        exact ⟨_, rfl⟩

/-! ## The record -/

/-- What `writebuf_add_dico` writes between the length and the checksum. -/
def Dico.body (d : Dico) : List UInt8 := d.encode.take d.headerlen.toNat

/-- The length that is written is the one of the contents. -/
theorem length_body (d : Dico) : d.body.length = d.headerlen.toNat := by
  rw [Dico.body, List.length_take, headerlen_eq, UInt32.toNat_ofNat']
  apply Nat.min_eq_left
  exact Nat.mod_le ..

/-- The record of a header, in its parts. -/
theorem writebufAddHeader_parts {magic : Magic} {record : List UInt8}
    (written : writebufAddHeader [] d magic archid fsid = some record) :
    record = magic.bytes ++ (leBytes 4 archid.toNat ++ (leBytes 2 fsid.toNat ++
      (leBytes 4 d.body.length ++ (d.body ++ leBytes 4 (fletcher32 d.body).toNat)))) := by
  simp only [writebufAddHeader, writebufAddDico, writebufAddData, Option.bind_eq_bind,
    Option.bind_eq_some_iff, Option.ite_none_left_eq_some, Option.some.injEq] at written
  obtain ⟨_, ⟨-, rfl⟩, _, ⟨-, rfl⟩, _, ⟨-, rfl⟩, _, ⟨-, rfl⟩, _, ⟨-, rfl⟩, -, rfl⟩ := written
  simp only [List.nil_append, List.append_assoc, length_body]
  rfl

/-- A record in its six parts. -/
def parts (magic id fsid len body sum : List UInt8) : List UInt8 :=
  magic ++ (id ++ (fsid ++ (len ++ (body ++ sum))))

/-- What the bytes of a record spell, part by part. -/
theorem spells_parts {magic id word len body sum rest : List UInt8} (magicSize : magic.length = 4)
    (idSize : id.length = 4) (wordSize : word.length = 2) (lenSize : len.length = 4) :
    Spells mem archid (parts magic id word len body sum ++ rest) fsid d ↔
      id = leBytes 4 archid.toNat ∧ word = leBytes 2 fsid.toNat ∧
        leNat len + 4 ≤ (body ++ sum ++ rest).length ∧
        (fletcher32 ((body ++ sum ++ rest).take (leNat len))).toNat =
          leNat (((body ++ sum ++ rest).drop (leNat len)).take 4) ∧
        readBack mem ((body ++ sum ++ rest).take (leNat len)) = some d := by
  generalize whole : parts magic id word len body sum ++ rest = bytes
  simp only [parts, List.append_assoc] at whole
  have atStart : bytes.drop 0 = magic ++ _ := whole.symm
  have atId := drop_add_of_drop atStart
  have atFsid := drop_add_of_drop atId
  have atLen := drop_add_of_drop atFsid
  have atBody := drop_add_of_drop atLen
  simp only [magicSize, idSize, wordSize, lenSize, Nat.reduceAdd] at atId atFsid atLen atBody
  have lenValue : (bytes.drop 10).take 4 = len := by rw [atLen, List.take_left' lenSize]
  have size : bytes.length = 14 + (body ++ (sum ++ rest)).length := by
    rw [← whole]
    simp only [List.length_append]
    omega
  have behind : bytes.drop (14 + leNat len) = (body ++ (sum ++ rest)).drop (leNat len) := by
    rw [← List.drop_drop, atBody]
  constructor
  · intro spells
    have idRead := spells.id
    have fsidRead := spells.fsid
    have whole := spells.whole
    have sumRead := spells.sum
    have items := spells.items
    rw [atId, List.take_left' idSize] at idRead
    rw [atFsid, List.take_left' wordSize] at fsidRead
    rw [lenValue] at whole sumRead items
    rw [atBody, behind] at sumRead
    rw [atBody] at items
    rw [List.append_assoc]
    exact ⟨idRead, fsidRead, by omega, sumRead, items⟩
  · rintro ⟨idRead, fsidRead, room, sumRead, items⟩
    rw [List.append_assoc] at room sumRead items
    exact {
      id := by rw [atId, List.take_left' idSize, idRead]
      fsid := by rw [atFsid, List.take_left' wordSize, fsidRead]
      whole := by rw [lenValue]; omega
      sum := by rw [lenValue, atBody, behind]; exact sumRead
      items := by rw [lenValue, atBody]; exact items }

/-- With the length of the contents, what is spelled are the contents, guarded by the
checksum. -/
theorem spells_length {magic id word len body sum rest : List UInt8} (magicSize : magic.length = 4)
    (idSize : id.length = 4) (wordSize : word.length = 2) (lenSize : len.length = 4)
    (sumSize : sum.length = 4) (count : leNat len = body.length) :
    Spells mem archid (parts magic id word len body sum ++ rest) fsid d ↔
      id = leBytes 4 archid.toNat ∧ word = leBytes 2 fsid.toNat ∧
        (fletcher32 body).toNat = leNat sum ∧ readBack mem body = some d := by
  rw [spells_parts magicSize idSize wordSize lenSize, count, List.append_assoc, List.take_left,
    List.drop_left, List.take_left' sumSize]
  constructor
  · rintro ⟨idRead, fsidRead, -, sumRead, items⟩
    exact ⟨idRead, fsidRead, sumRead, items⟩
  · rintro ⟨idRead, fsidRead, sumRead, items⟩
    refine ⟨idRead, fsidRead, ?_, sumRead, items⟩
    simp only [List.length_append]
    omega

/-- The part of a record that a change of one byte hits, and what stands there afterwards. -/
inductive Hit (magic id fsid len body sum : List UInt8) (i : Nat) (value : UInt8) :
    List UInt8 → Prop
  | magic {magic' : List UInt8} (place : i < 4) (other : magic' ≠ magic)
      (size : magic'.length = 4) : Hit _ _ _ _ _ _ i value (parts magic' id fsid len body sum)
  | id {id' : List UInt8} (place : 4 ≤ i ∧ i < 8) (other : id' ≠ id) (size : id'.length = 4) :
      Hit _ _ _ _ _ _ i value (parts magic id' fsid len body sum)
  | fsid {fsid' : List UInt8} (place : 8 ≤ i ∧ i < 10) (other : fsid' ≠ fsid)
      (size : fsid'.length = 2) : Hit _ _ _ _ _ _ i value (parts magic id fsid' len body sum)
  | len {len' : List UInt8} (place : 10 ≤ i ∧ i < 14) (size : len'.length = 4) :
      Hit _ _ _ _ _ _ i value (parts magic id fsid len' body sum)
  | body {j : Nat} (place : 14 ≤ i) (other : body.set j value ≠ body) :
      Hit _ _ _ _ _ _ i value (parts magic id fsid len (body.set j value) sum)
  | sum {sum' : List UInt8} (place : 14 ≤ i) (other : sum' ≠ sum)
      (size : sum'.length = sum.length) :
      Hit _ _ _ _ _ _ i value (parts magic id fsid len body sum')

/-- A change of one byte hits one part. -/
theorem hit_set {magic id fsid len body sum : List UInt8} (magicSize : magic.length = 4)
    (idSize : id.length = 4) (fsidSize : fsid.length = 2) (lenSize : len.length = 4) {i : Nat}
    {value : UInt8}
    (changes : (parts magic id fsid len body sum).set i value ≠
      parts magic id fsid len body sum) :
    Hit magic id fsid len body sum i value ((parts magic id fsid len body sum).set i value) := by
  -- A part that comes out as it was is no change of the record.
  unfold parts at changes ⊢
  rw [List.set_append] at changes ⊢
  split at changes
  next inside =>
    rw [if_pos inside]
    apply Hit.magic (by omega)
    · exact fun same => changes (by rw [same])
    · rw [List.length_set, magicSize]
  next behind =>
  rw [if_neg behind]
  rw [List.set_append] at changes ⊢
  split at changes
  next inside =>
    rw [if_pos inside]
    apply Hit.id (by omega)
    · exact fun same => changes (by rw [same])
    · rw [List.length_set, idSize]
  next behindId =>
  rw [if_neg behindId]
  rw [List.set_append] at changes ⊢
  split at changes
  next inside =>
    rw [if_pos inside]
    apply Hit.fsid (by omega)
    · exact fun same => changes (by rw [same])
    · rw [List.length_set, fsidSize]
  next behindFsid =>
  rw [if_neg behindFsid]
  rw [List.set_append] at changes ⊢
  split at changes
  next inside =>
    rw [if_pos inside]
    apply Hit.len (by omega)
    rw [List.length_set, lenSize]
  next behindLen =>
  rw [if_neg behindLen]
  rw [List.set_append] at changes ⊢
  split at changes
  next inside =>
    rw [if_pos inside]
    apply Hit.body (by omega)
    exact fun same => changes (by rw [same])
  next behindBody =>
    rw [if_neg behindBody]
    apply Hit.sum (by omega)
    · exact fun same => changes (by rw [same])
    · rw [List.length_set]

/-- The condition under which a change of the byte at a place does not go through, by the part of
the record that it hits: the archive id, the contents and the checksum are always guarded, the
filesystem id never is. -/
structure Caught (mem : Mem) (archid : UInt32) (magic : Magic) (fsid : UInt16) (d : Dico)
    (allowseek : Bool) (i : Nat) (record changed rest : List UInt8) : Prop where
  /-- Another valid magic stands for another header, if the contents can be read at all. -/
  byMagic : i < 4 → Magic.isMagicValid (changed.take sizeofMagic) → readBack mem d.body = none
  /-- Behind an invalid magic a search finds no other header in the record. -/
  bySearch : i < 4 → ¬Magic.isMagicValid (changed.take sizeofMagic) → allowseek = true →
    ∀ offset magic' fsid' d', findMagic (changed ++ rest) = some (offset, magic') →
      offset < record.length → Spells mem archid ((changed ++ rest).drop offset) fsid' d' →
      magic' = magic ∧ fsid' = fsid ∧ d' = d
  /-- Another filesystem id is not noticed, if the contents can be read at all. -/
  byFsid : 8 ≤ i → i < 10 → readBack mem d.body = none
  /-- As many bytes as the changed length says are not followed by their checksum, or they start
  with the same items. -/
  byLength : 10 ≤ i → i < 14 → ∀ d', Spells mem archid (changed ++ rest) fsid d' → d' = d

/-- What is delivered from a record whose magic still stands. -/
theorem delivers_iff (known : ai.archid = archid) (nonzero : archid ≠ 0)
    (version : ai.filefmtver = 2) {allowseek : Bool} {size : Nat} (some' : 0 < size)
    {magic magic' : Magic} (atMagic : findMagic ai.ahead = some (0, magic')) :
    (∀ head after, archreaderReadHeader mem ai allowseek = .ok head after →
        head.start < ai.pos + size → head.magic = magic ∧ head.fsid = fsid ∧ head.dico = d) ↔
      ∀ fsid' d', Spells mem archid ai.ahead fsid' d' → magic' = magic ∧ fsid' = fsid ∧ d' = d := by
  constructor
  · intro intact fsid' d' spells
    obtain ⟨after, read⟩ : ∃ after,
        archreaderReadHeader mem ai allowseek = .ok ⟨ai.pos, magic', fsid', d'⟩ after :=
      (archreaderReadHeader_ok known nonzero version).mpr ⟨0, atMagic, .inl rfl, rfl, spells⟩
    apply intact _ after read
    exact Nat.lt_add_of_pos_right some'
  · intro spelled head after read _
    obtain ⟨offset, found, -, -, spells⟩ :=
      (archreaderReadHeader_ok known nonzero version).mp ⟨after, read⟩
    rw [atMagic, Option.some.injEq, Prod.mk.injEq] at found
    obtain ⟨rfl, rfl⟩ := found
    exact spelled _ _ spells

/-- The places that are guarded whatever lies behind the record. -/
theorem Caught.of_guarded {magic : Magic} {allowseek : Bool} {i : Nat}
    {record changed rest : List UInt8} (guarded : 4 ≤ i ∧ i < 8 ∨ 14 ≤ i) :
    Caught mem archid magic fsid d allowseek i record changed rest where
  byMagic early := by omega
  bySearch early := by omega
  byFsid late early := by omega
  byLength late early := by omega

section Parts

variable {magic' word' id' len' sum' rest : List UInt8} {fsid' : UInt16} {d' : Dico}

/-- Nothing is spelled with another archive id. -/
theorem not_spells_of_id {word len body sum : List UInt8} (magicSize : magic'.length = 4)
    (idSize : id'.length = 4) (wordSize : word.length = 2) (lenSize : len.length = 4)
    (other : id' ≠ leBytes 4 archid.toNat) :
    ¬Spells mem archid (parts magic' id' word len body sum ++ rest) fsid' d' := by
  intro spells
  exact other ((spells_parts magicSize idSize wordSize lenSize).mp spells).1

/-- With the length, the contents and the checksum as they were written, the header is read back
under the filesystem id that stands there. -/
theorem spells_body (magicSize : magic'.length = 4) (wordSize : word'.length = 2) :
    Spells mem archid (parts magic' (leBytes 4 archid.toNat) word' (leBytes 4 d.body.length)
        d.body (leBytes 4 (fletcher32 d.body).toNat) ++ rest) fsid' d' ↔
      word' = leBytes 2 fsid'.toNat ∧ readBack mem d.body = some d' := by
  have count : leNat (leBytes 4 d.body.length) = d.body.length := by
    rw [length_body, leNat_leBytes_uint32]
  have sumValue : leNat (leBytes 4 (fletcher32 d.body).toNat) = (fletcher32 d.body).toNat :=
    leNat_leBytes_uint32 _
  rw [spells_length magicSize (length_leBytes ..) wordSize (length_leBytes ..) (length_leBytes ..)
    count, sumValue]
  simp only [true_and]

/-- Contents with one changed byte do not have the checksum that was written. -/
theorem not_spells_of_body {j : Nat} {value : UInt8} (magicSize : magic'.length = 4)
    (wordSize : word'.length = 2) (other : d.body.set j value ≠ d.body) :
    ¬Spells mem archid (parts magic' (leBytes 4 archid.toNat) word' (leBytes 4 d.body.length)
      (d.body.set j value) (leBytes 4 (fletcher32 d.body).toNat) ++ rest) fsid' d' := by
  have count : leNat (leBytes 4 d.body.length) = (d.body.set j value).length := by
    rw [length_body, leNat_leBytes_uint32, List.length_set, length_body]
  intro spells
  have read := (spells_length magicSize (length_leBytes ..) wordSize (length_leBytes ..)
    (length_leBytes ..) count).mp spells
  have same := read.2.2.1
  rw [leNat_leBytes_uint32] at same
  exact fletcher32_set_ne other (UInt32.toNat_inj.mp same)

/-- The contents do not have another checksum. -/
theorem not_spells_of_sum (magicSize : magic'.length = 4) (wordSize : word'.length = 2)
    (sumSize : sum'.length = 4) (other : sum' ≠ leBytes 4 (fletcher32 d.body).toNat) :
    ¬Spells mem archid (parts magic' (leBytes 4 archid.toNat) word' (leBytes 4 d.body.length)
      d.body sum' ++ rest) fsid' d' := by
  have count : leNat (leBytes 4 d.body.length) = d.body.length := by
    rw [length_body, leNat_leBytes_uint32]
  intro spells
  have read := (spells_length magicSize (length_leBytes ..) wordSize (length_leBytes ..) sumSize
    count).mp spells
  apply other
  apply leNat_injective
  · rw [sumSize, length_leBytes]
  · rw [leNat_leBytes_uint32, read.2.2.1]

/-- Two bytes are the bytes of a filesystem id. -/
theorem leBytes_leNat_word (size : word'.length = 2) :
    leBytes 2 (UInt16.ofNat (leNat word')).toNat = word' := by
  have bound : leNat word' < 2 ^ 16 := by simpa [size] using leNat_lt word'
  apply leNat_injective
  · rw [length_leBytes, size]
  · rw [leNat_leBytes_uint16, UInt16.toNat_ofNat', Nat.mod_eq_of_lt bound]

/-- The bytes of a filesystem id tell it. -/
theorem leBytes_word_injective {fsid fsid' : UInt16}
    (same : leBytes 2 fsid.toNat = leBytes 2 fsid'.toNat) : fsid = fsid' := by
  have values := congrArg leNat same
  rw [leNat_leBytes_uint16, leNat_leBytes_uint16] at values
  exact UInt16.toNat_inj.mp values

end Parts

/-- A changed magic: another valid one is taken for its own, behind an invalid one the search
goes on. -/
theorem intact_magic_iff (known : ai.archid = archid) (nonzero : archid ≠ 0)
    (version : ai.filefmtver = 2) {magic : Magic} {magic' record rest : List UInt8} {i : Nat}
    (size : magic'.length = 4) (other : magic' ≠ magic.bytes) (place : i < 4)
    (room : 0 < record.length)
    (here : ai.ahead = parts magic' (leBytes 4 archid.toNat) (leBytes 2 fsid.toNat)
      (leBytes 4 d.body.length) d.body (leBytes 4 (fletcher32 d.body).toNat) ++ rest)
    (allowseek : Bool) :
    (∀ head after, archreaderReadHeader mem ai allowseek = .ok head after →
        head.start < ai.pos + record.length →
        head.magic = magic ∧ head.fsid = fsid ∧ head.dico = d) ↔
      Caught mem archid magic fsid d allowseek i record
        (parts magic' (leBytes 4 archid.toNat) (leBytes 2 fsid.toNat) (leBytes 4 d.body.length)
          d.body (leBytes 4 (fletcher32 d.body).toNat)) rest := by
  have late : ¬4 ≤ i := Nat.not_le.mpr place
  have front : (parts magic' (leBytes 4 archid.toNat) (leBytes 2 fsid.toNat)
      (leBytes 4 d.body.length) d.body (leBytes 4 (fletcher32 d.body).toNat)).take sizeofMagic =
      magic' := List.take_left' size
  have ahead : ai.ahead.take sizeofMagic = magic' := by
    rw [here, parts, List.append_assoc]
    exact List.take_left' size
  cases valid : Magic.ofBytes magic' with
  | some found =>
    have atMagic : findMagic ai.ahead = some (0, found) := by
      apply findMagic_of_magic
      rw [ahead, valid]
    have differs : found ≠ magic := by
      rintro rfl
      exact other (Magic.bytes_of_ofBytes valid).symm
    rw [delivers_iff known nonzero version room atMagic, here]
    constructor
    · intro spelled
      exact {
        byMagic := fun _ _ => by
          cases items : readBack mem d.body with
          | none => rfl
          | some d' =>
            have same := spelled fsid d' ((spells_body size (length_leBytes ..)).mpr ⟨rfl, items⟩)
            exact absurd same.1 differs
        bySearch := fun _ invalid => by
          rw [front, Magic.isMagicValid, valid] at invalid
          exact absurd rfl invalid
        byFsid := fun beyond => absurd (Nat.le_trans (by decide) beyond) late
        byLength := fun beyond => absurd (Nat.le_trans (by decide) beyond) late }
    · intro caught fsid' d' spells
      have read := ((spells_body size (length_leBytes ..)).mp spells).2
      have isValid : Magic.isMagicValid magic' := by rw [Magic.isMagicValid, valid, Option.isSome_some]
      rw [caught.byMagic place (by rw [front]; exact isValid)] at read
      exact absurd read (by simp)
  | none =>
    have invalid : ¬Magic.isMagicValid magic' := by
      rw [Magic.isMagicValid, valid, Option.isSome_none]
      exact Bool.false_ne_true
    constructor
    · intro intact
      exact {
        byMagic := fun _ isValid => by
          rw [front] at isValid
          exact absurd isValid invalid
        bySearch := fun _ _ seeks offset magic'' fsid' d' found inside spells => by
          rw [← here] at found spells
          obtain ⟨after, read⟩ : ∃ after, archreaderReadHeader mem ai allowseek =
              .ok ⟨ai.pos + offset, magic'', fsid', d'⟩ after :=
            (archreaderReadHeader_ok known nonzero version).mpr
              ⟨offset, found, .inr seeks, rfl, spells⟩
          apply intact _ after read
          exact Nat.add_lt_add_left inside _
        byFsid := fun beyond => absurd (Nat.le_trans (by decide) beyond) late
        byLength := fun beyond => absurd (Nat.le_trans (by decide) beyond) late }
    · intro caught head after read inside
      obtain ⟨offset, found, allowed, start, spells⟩ :=
        (archreaderReadHeader_ok known nonzero version).mp ⟨after, read⟩
      have seeks : allowseek = true := by
        rcases allowed with rfl | seeks
        · have here := magic_of_findMagic found
          rw [List.drop_zero, ahead, valid] at here
          exact absurd here (by simp)
        · exact seeks
      have within : offset < record.length := by omega
      rw [here] at found spells
      exact caught.bySearch place (by rw [front]; exact invalid) seeks offset head.magic
        head.fsid head.dico found within spells

/-- A change of one byte of a header record has no effect on what is delivered, but that the
header may not be delivered at all, if and only if it is caught. -/
theorem header_intact_iff (mem : Mem) {archid : UInt32} (nonzero : archid ≠ 0) {magic : Magic}
    {fsid : UInt16} {d : Dico} {record : List UInt8}
    (written : writebufAddHeader [] d magic archid fsid = some record) {i : Nat} {value : UInt8}
    (changes : record.set i value ≠ record) {ai : ArchReader} (known : ai.archid = archid)
    (version : ai.filefmtver = 2) {rest : List UInt8}
    (here : ai.ahead = record.set i value ++ rest) (allowseek : Bool) :
    (∀ head after, archreaderReadHeader mem ai allowseek = .ok head after →
        head.start < ai.pos + record.length →
        head.magic = magic ∧ head.fsid = fsid ∧ head.dico = d) ↔
      Caught mem archid magic fsid d allowseek i record (record.set i value) rest := by
  have laidOut : record = parts magic.bytes (leBytes 4 archid.toNat) (leBytes 2 fsid.toNat)
      (leBytes 4 d.body.length) d.body (leBytes 4 (fletcher32 d.body).toNat) :=
    writebufAddHeader_parts written
  have room : 0 < record.length := by
    rw [laidOut, parts, List.length_append, Magic.length_bytes]
    omega
  have standing {id word len body sum : List UInt8}
      (stands : ai.ahead = parts magic.bytes id word len body sum ++ rest) :
      findMagic ai.ahead = some (0, magic) := by
    rw [stands, parts, List.append_assoc]
    exact findMagic_of_ahead ..
  have hit := hit_set (Magic.length_bytes magic) (length_leBytes 4 archid.toNat)
    (length_leBytes 2 fsid.toNat) (length_leBytes 4 d.body.length) (laidOut ▸ changes)
  rw [← laidOut] at hit
  generalize record.set i value = changed at hit here
  cases hit with
  | magic place other size =>
    exact intact_magic_iff known nonzero version size other place room here allowseek
  | id place other size =>
    rw [delivers_iff known nonzero version room (standing here), here]
    constructor
    · intro _
      exact .of_guarded (.inl place)
    · intro _ fsid' d' spells
      exact absurd spells (not_spells_of_id (Magic.length_bytes _) size (length_leBytes ..)
        (length_leBytes ..) other)
  | @fsid word' place other size =>
    rw [delivers_iff known nonzero version room (standing here), here]
    constructor
    · intro spelled
      exact {
        byMagic := fun early => by omega
        bySearch := fun early => by omega
        byFsid := fun _ _ => by
          cases items : readBack mem d.body with
          | none => rfl
          | some d' =>
            have word := leBytes_leNat_word size
            have same := spelled _ d' ((spells_body (Magic.length_bytes _) size).mpr
              ⟨word.symm, items⟩)
            rw [same.2.1] at word
            exact absurd word.symm other
        byLength := fun late => by omega }
    · intro caught fsid' d' spells
      have read := ((spells_body (Magic.length_bytes _) size).mp spells).2
      rw [caught.byFsid place.1 place.2] at read
      exact absurd read (by simp)
  | len place size =>
    rw [delivers_iff known nonzero version room (standing here), here]
    constructor
    · intro spelled
      exact {
        byMagic := fun early => by omega
        bySearch := fun early => by omega
        byFsid := fun _ late => by omega
        byLength := fun _ _ d' spells => (spelled fsid d' spells).2.2 }
    · intro caught fsid' d' spells
      have read := (spells_parts (Magic.length_bytes _) (length_leBytes ..) (length_leBytes ..)
        size).mp spells
      have same := leBytes_word_injective read.2.1
      subst same
      exact ⟨rfl, rfl, caught.byLength place.1 place.2 d' spells⟩
  | body place other =>
    rw [delivers_iff known nonzero version room (standing here), here]
    constructor
    · intro _
      exact .of_guarded (.inr place)
    · intro _ fsid' d' spells
      exact absurd spells (not_spells_of_body (Magic.length_bytes _) (length_leBytes ..) other)
  | sum place other size =>
    rw [length_leBytes] at size
    rw [delivers_iff known nonzero version room (standing here), here]
    constructor
    · intro _
      exact .of_guarded (.inr place)
    · intro _ fsid' d' spells
      exact absurd spells (not_spells_of_sum (Magic.length_bytes _) (length_leBytes ..) size other)

/-- The contents of a dico that fits its fields can be read. -/
theorem readBack_body (mem : Mem) {d : Dico} (fits : d.Fits) : readBack mem d.body = some d := by
  have whole : d.body = d.encode := by
    rw [Dico.body, headerlen_eq, UInt32.toNat_ofNat', Nat.mod_eq_of_lt fits.length,
      List.take_length]
  rw [readBack, whole, readItems_dico mem fits]

/-- So another filesystem id goes through with every dico that fits its fields. -/
theorem not_caught_fsid {magic : Magic} {allowseek : Bool} {i : Nat}
    {record changed rest : List UInt8} (fits : d.Fits) (place : 8 ≤ i ∧ i < 10) :
    ¬Caught mem archid magic fsid d allowseek i record changed rest := by
  intro caught
  have unreadable := caught.byFsid place.1 place.2
  rw [readBack_body mem fits] at unreadable
  exact absurd unreadable (by simp)

/-- The record of an object header without items, with archive id 1 and filesystem id 0. -/
def emptyRecord : List UInt8 :=
  Magic.objt.bytes ++ [1, 0, 0, 0, 0, 0, 2, 0, 0, 0, 0, 0, 0xff, 0xff, 0xff, 0xff]

/-- A reader of a volume that knows the archive id 1. -/
def readerOf (file : List UInt8) : ArchReader :=
  { archreaderInit with file, archid := 1, filefmtver := 2 }

/-- With another archive id the record is not taken for a header. -/
theorem emptyRecord_other_id : emptyRecord.set 4 2 ≠ emptyRecord ∧ ∀ head after,
    archreaderReadHeader ⟨fun _ => 0, fun _ => 0⟩ (readerOf (emptyRecord.set 4 2)) true =
        .ok head after → head.start < 0 + emptyRecord.length →
      head.magic = .objt ∧ head.fsid = 0 ∧ head.dico = Dico.alloc :=
  ⟨by decide, (header_intact_iff ⟨fun _ => 0, fun _ => 0⟩ (by decide)
    (show writebufAddHeader [] Dico.alloc .objt 1 0 = some emptyRecord from rfl)
    (show emptyRecord.set 4 2 ≠ emptyRecord by decide)
    (show (readerOf (emptyRecord.set 4 2)).archid = 1 from rfl) rfl
    (show (readerOf (emptyRecord.set 4 2)).ahead = emptyRecord.set 4 2 ++ [] from rfl)
    true).mpr (.of_guarded (by decide))⟩

/-- With another filesystem id it is delivered under that id. -/
theorem emptyRecord_other_fsid :
    writebufAddHeader [] Dico.alloc .objt 1 0 = some emptyRecord ∧
      emptyRecord.set 8 1 ≠ emptyRecord ∧ ∃ head after,
        archreaderReadHeader ⟨fun _ => 0, fun _ => 0⟩ (readerOf (emptyRecord.set 8 1)) false =
          .ok head after ∧ head.fsid ≠ 0 :=
  ⟨rfl, by decide, _, _, rfl, by decide⟩

end FsArchiver
