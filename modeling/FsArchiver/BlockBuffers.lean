import FsArchiver.ThreadComp

/-!
# The buffers of decompression

Three sizes of a block come from the archive, and only the real size is checked when the block is
read. The copy of a block without compression takes the stored size, decryption takes the stored
size, and the size that a library reports is not compared with anything. So the buffers are
respected, and the result is complete, exactly for blocks whose sizes agree.
-/
namespace FsArchiver

/-- A run that kept to its buffers, and whose result, if it returns 0, has this many bytes, all of
them written. -/
def Filled.Complete (size : Nat) : Filled Buffer → Prop
  | .overflow => False
  | .error => True
  | .done buffer => buffer.length = size ∧ none ∉ buffer

/-- The block is not encrypted, or a password was given. -/
def BlockInfo.Readable (options : Options) (blkinfo : BlockInfo) : Prop :=
  blkinfo.blkcryptalgo = encryptNone ∨ options.encryptalgo = encryptBlowfish

/-- The stored bytes of the block hold this packed data: they are the data, or the cipher decrypts
them to it and the block says its size. -/
def BlockInfo.Holds (gcrypt : Gcrypt) (options : Options) (blkinfo : BlockInfo)
    (packed : List UInt8) : Prop :=
  if blkinfo.blkcryptalgo = encryptBlowfish then
    cryptoBlowfish gcrypt blkinfo.blkdata options.encryptpass 0 =
        some (blkinfo.blkdata.length, packed) ∧
      blkinfo.blkarsize = blkinfo.blkcompsize
  else packed = blkinfo.blkdata

/-- The sizes of a block agree where its data passes from one buffer to another. -/
structure BlockInfo.SizesAgree (build : Build) (lib : Decompressors) (gcrypt : Gcrypt)
    (options : Options) (mem : Mem) (blkinfo : BlockInfo) : Prop where
  /-- What is decrypted fits into the buffer for it. -/
  decrypted : blkinfo.blkcryptalgo = encryptBlowfish →
    (cryptoBlowfish gcrypt blkinfo.blkdata options.encryptpass 0).isSome →
    blkinfo.blkarsize.toNat ≤ blkinfo.blkrealsize.toNat + 8
  /-- What is copied has the real size. -/
  copied : blkinfo.blkcompalgo = CompressAlgo.code .none →
    ∀ packed, blkinfo.Holds gcrypt options packed → blkinfo.blkarsize = blkinfo.blkrealsize
  /-- What decompresses has the real size. -/
  decompressed : ∀ packed data, blkinfo.Holds gcrypt options packed →
    uncompressSwitch build lib (heapBytes mem packed 0 blkinfo.blkcompsize.toNat)
      blkinfo.blkrealsize.toNat blkinfo.blkcompalgo = some (.ok data) →
    data.length = blkinfo.blkrealsize.toNat

/-- The cipher writes as many bytes as it reads. -/
def Gcrypt.KeepsSize (gcrypt : Gcrypt) : Prop :=
  ∀ {key iv data out}, gcrypt.cipherDecrypt key iv data = some out → out.length = data.length

variable {build : Build} {lib : Decompressors} {gcrypt : Gcrypt} {options : Options} {mem : Mem}
  {blkinfo : BlockInfo} {data out : List UInt8}

/-- No case of the `switch` writes past the buffer. -/
theorem length_uncompressSwitch (honour : lib.HonourSize) {size : Nat} {compalgo : UInt16}
    (succeeds : uncompressSwitch build lib data size compalgo = some (.ok out)) :
    out.length ≤ size := by
  unfold uncompressSwitch at succeeds
  cases algo : CompressAlgo.ofCode compalgo with
  | none => simp [algo] at succeeds
  | some algo' =>
    cases algo' with
    | none => simp [algo] at succeeds
    | lzo =>
      simp only [algo, Option.ite_none_right_eq_some, Option.some.injEq] at succeeds
      exact honour.lzo (LibResult.compressed_eq succeeds.2)
    | gzip =>
      simp only [algo, Option.some.injEq] at succeeds
      exact honour.gzip (LibResult.compressed_eq succeeds)
    | bzip2 =>
      simp only [algo, Option.some.injEq, uncompressBlockBzip2] at succeeds
      split at succeeds
      next produced =>
        simp only [Except.ok.injEq] at succeeds
        exact honour.bzip2 (succeeds ▸ produced)
      · exact absurd succeeds (by simp)
    | lzma =>
      simp only [algo, Option.ite_none_right_eq_some, Option.some.injEq,
        uncompressBlockLzma] at succeeds
      obtain ⟨-, succeeds⟩ := succeeds
      split at succeeds
      · obtain ⟨memlimit, decoded⟩ := lzmaCodeLoop_streamEnd succeeds
        exact honour.lzma decoded
      · exact absurd succeeds (by simp)
    | lz4 =>
      simp only [algo, Option.ite_none_right_eq_some, Option.some.injEq, uncompressBlockLz4]
        at succeeds
      obtain ⟨-, succeeds⟩ := succeeds
      split at succeeds
      · exact absurd succeeds (by simp)
      · exact absurd succeeds (by simp)
      next produced =>
        simp only [Except.ok.injEq] at succeeds
        exact honour.lz4 (succeeds ▸ produced)
    | zstd =>
      simp only [algo, Option.ite_none_right_eq_some, Option.some.injEq, uncompressBlockZstd]
        at succeeds
      obtain ⟨-, succeeds⟩ := succeeds
      split at succeeds
      · exact absurd succeeds (by simp)
      next produced =>
        simp only [Except.ok.injEq] at succeeds
        exact honour.zstd (succeeds ▸ produced)

/-- A decryption that succeeds reports the size of its input and writes as much. -/
theorem cryptoBlowfish_decrypted (keeps : gcrypt.KeepsSize) {password : List UInt8} {size : Nat}
    (succeeds : cryptoBlowfish gcrypt data password 0 = some (size, out)) :
    size = data.length ∧ out.length = data.length := by
  simp only [cryptoBlowfish, Option.ite_none_left_eq_some, Option.map_eq_some_iff,
    Prod.mk.injEq] at succeeds
  obtain ⟨-, -, -, -, out', decrypted, rfl, rfl⟩ := succeeds
  exact ⟨rfl, keeps decrypted⟩

/-- A copy fills the buffer exactly if it has the size of the buffer. -/
theorem complete_copy {size : Nat} :
    ((Buffer.malloc size).copy data).Complete size ↔ data.length = size := by
  constructor
  · intro complete
    rcases Nat.lt_or_ge size data.length with longer | room
    · rw [Buffer.copy_of_lt longer] at complete
      exact complete.elim
    · rw [Buffer.copy_of_le room] at complete
      apply Nat.le_antisymm room
      apply Nat.le_of_not_lt
      intro shorter
      apply complete.2
      rw [List.mem_append]
      right
      apply List.mem_replicate.mpr
      exact ⟨by omega, rfl⟩
  · intro count
    rw [Buffer.copy_malloc count]
    exact ⟨by rw [List.length_map, count], by simp⟩

/-- Zeros fill the buffer. -/
theorem complete_zeros (size : Nat) : (Filled.done (Buffer.malloc size).zeros).Complete size :=
  ⟨by simp [Buffer.zeros, Buffer.malloc], by simp [Buffer.zeros]⟩

/-- The last stage is complete for data that has the real size. -/
theorem complete_uncompressed (packed : List UInt8) :
    (blkinfo.uncompressed build lib mem packed).Complete blkinfo.blkrealsize.toNat ↔
      (blkinfo.blkcompalgo = CompressAlgo.code .none →
        blkinfo.blkarsize = blkinfo.blkrealsize) ∧
      ∀ data, uncompressSwitch build lib (heapBytes mem packed 0 blkinfo.blkcompsize.toNat)
        blkinfo.blkrealsize.toNat blkinfo.blkcompalgo = some (.ok data) →
        data.length = blkinfo.blkrealsize.toNat := by
  by_cases algo : blkinfo.blkcompalgo = CompressAlgo.code .none
  · have copied : (heapBytes mem packed 0 blkinfo.blkarsize.toNat).length =
        blkinfo.blkrealsize.toNat ↔ blkinfo.blkarsize = blkinfo.blkrealsize := by
      rw [heapBytes, List.length_map, List.length_range]
      exact UInt32.toNat_inj
    have noLibrary : uncompressSwitch build lib
        (heapBytes mem packed 0 blkinfo.blkcompsize.toNat) blkinfo.blkrealsize.toNat
        blkinfo.blkcompalgo = none := by
      simp only [uncompressSwitch, algo, CompressAlgo.ofCode_code]
    rw [BlockInfo.uncompressed, if_pos algo, complete_copy, copied, noLibrary]
    simp [algo]
  · rw [BlockInfo.uncompressed, if_neg algo]
    cases result : uncompressSwitch build lib
        (heapBytes mem packed 0 blkinfo.blkcompsize.toNat) blkinfo.blkrealsize.toNat
        blkinfo.blkcompalgo with
    | none => simp [algo, Filled.Complete]
    | some res =>
      cases res with
      | error err => simp [algo, complete_zeros]
      | ok data => simp [algo, complete_copy]

/-- A function that goes on with what was filled. -/
theorem complete_andThen {filled : Filled (List UInt8)} {next : List UInt8 → Filled Buffer}
    {size : Nat} :
    (filled.andThen next).Complete size ↔
      filled ≠ .overflow ∧ ∀ packed, filled = .done packed → (next packed).Complete size := by
  cases filled with
  | overflow => simp [Filled.Complete]
  | error => simp [Filled.Complete]
  | done value => simp

/-- What `archreader_read_block` delivers with a right checksum. -/
structure BlockInfo.Accepted (blkinfo : BlockInfo) : Prop where
  /-- All stored bytes were read. -/
  size : blkinfo.blkdata.length = blkinfo.blkarsize.toNat
  /-- They have the checksum of the header. -/
  sum : fletcher32 blkinfo.blkdata = blkinfo.blkarcsum
  /-- The real size is the only one that is checked. -/
  bound : blkinfo.blkrealsize.toNat ≤ maxBlkSize

/-- A reader returns as many bytes as it is asked for. -/
theorem length_of_archreaderReadData {ai after : ArchReader} {size : Nat}
    (read : archreaderReadData ai size = some (data, after)) : data.length = size := by
  simp only [archreaderReadData, Option.map_eq_some_iff, Prod.mk.injEq] at read
  obtain ⟨part, found, rfl, -⟩ := read
  exact (Lib.drop_of_readAt found).1

/-- The real size is checked when the header of a block is read. -/
theorem bound_of_readBlockHead {d : Dico} {head : BlockHead}
    (read : readBlockHead mem d = some head) : head.curblocksize.toNat ≤ maxBlkSize := by
  simp only [readBlockHead, Option.bind_eq_bind, Option.bind_eq_some_iff] at read
  obtain ⟨blockoffset, -, curblocksize, -, read⟩ := read
  split at read
  · exact absurd read (by simp)
  next bounded =>
    simp only [Option.bind_eq_some_iff, Option.some.injEq] at read
    obtain ⟨-, -, -, -, -, -, -, -, -, -, rfl⟩ := read
    exact Nat.le_of_not_lt bounded

/-- A block that is accepted has all its stored bytes and their checksum. -/
theorem accepted_of_archreaderReadBlock {ai after : ArchReader} {d : Dico}
    (read : archreaderReadBlock mem ai d false = some (some (blkinfo, true), after)) :
    blkinfo.Accepted := by
  simp only [archreaderReadBlock, Bool.false_eq_true, if_false, Option.bind_eq_bind,
    Option.bind_eq_some_iff] at read
  obtain ⟨head, headRead, ⟨buffer, behind⟩, dataRead, delivered⟩ := read
  split at delivered
  next right =>
    simp only [Option.some.injEq, Prod.mk.injEq, and_true] at delivered
    obtain ⟨rfl, rfl⟩ := delivered
    exact {
      size := length_of_archreaderReadData dataRead
      sum := right
      bound := bound_of_readBlockHead headRead }
  next => simp at delivered

/-- The stored bytes of an accepted block are its data. -/
theorem BlockInfo.Accepted.stored (accepted : blkinfo.Accepted) :
    blkinfo.stored mem = blkinfo.blkdata := by
  rw [BlockInfo.stored, ← accepted.size, heapBytes_all]

/-- Decryption writes past its buffer where the stored size is more than the real one and the
eight bytes that were allocated besides. -/
theorem decrypted_ne_overflow (accepted : blkinfo.Accepted) (keeps : gcrypt.KeepsSize) :
    blkinfo.decrypted gcrypt options mem ≠ .overflow ↔
      (blkinfo.blkcryptalgo = encryptBlowfish →
        (cryptoBlowfish gcrypt blkinfo.blkdata options.encryptpass 0).isSome →
        blkinfo.blkarsize.toNat ≤ blkinfo.blkrealsize.toNat + 8) := by
  by_cases encrypted : blkinfo.blkcryptalgo = encryptBlowfish
  · rw [BlockInfo.decrypted, if_pos encrypted, accepted.stored]
    cases crypted : cryptoBlowfish gcrypt blkinfo.blkdata options.encryptpass 0 with
    | none => simp [encrypted]
    | some found =>
      obtain ⟨clearsize, clear⟩ := found
      obtain ⟨rfl, count⟩ := cryptoBlowfish_decrypted keeps crypted
      rw [accepted.size] at count
      rcases Nat.lt_or_ge (blkinfo.blkrealsize.toNat + 8) clear.length with longer | room
      · simp only [Buffer.copy_of_lt longer, Filled.overflow_andThen]
        constructor
        · intro kept
          exact absurd rfl kept
        · intro fits
          have short := fits encrypted rfl
          omega
      · simp only [Buffer.copy_of_le room, Filled.done_andThen]
        constructor
        · intro _ _ _
          omega
        · intro _
          split <;> simp
  · simp [BlockInfo.decrypted, encrypted]

/-- Decryption that fits its buffer ends with what the block holds. -/
theorem decrypted_eq_done (accepted : blkinfo.Accepted) (keeps : gcrypt.KeepsSize)
    (fits : blkinfo.decrypted gcrypt options mem ≠ .overflow) (packed : List UInt8) :
    blkinfo.decrypted gcrypt options mem = .done packed ↔
      blkinfo.Holds gcrypt options packed := by
  unfold BlockInfo.Holds
  unfold BlockInfo.decrypted at fits ⊢
  split
  next encrypted =>
    rw [if_pos encrypted, accepted.stored] at fits
    rw [accepted.stored]
    cases crypted : cryptoBlowfish gcrypt blkinfo.blkdata options.encryptpass 0 with
    | none => simp
    | some found =>
      obtain ⟨clearsize, clear⟩ := found
      obtain ⟨rfl, count⟩ := cryptoBlowfish_decrypted keeps crypted
      simp only [crypted] at fits
      rcases Nat.lt_or_ge (blkinfo.blkrealsize.toNat + 8) clear.length with longer | room
      · rw [Buffer.copy_of_lt longer] at fits
        exact absurd rfl fits
      · have sizes : blkinfo.blkdata.length = blkinfo.blkcompsize.toNat ↔
            blkinfo.blkarsize = blkinfo.blkcompsize := by
          rw [accepted.size]
          exact UInt32.toNat_inj
        simp only [Buffer.copy_of_le room, Filled.done_andThen, ne_eq, sizes, Option.some.injEq,
          Prod.mk.injEq, true_and]
        by_cases same : blkinfo.blkarsize = blkinfo.blkcompsize
        · simp [same]
        · simp [same]
  next clear =>
    rw [Filled.done.injEq]
    exact eq_comm

/-- `decompress_block_generic` keeps to its buffers, and returns 0 only with all bytes of the
block, if and only if the sizes of the block agree or it cannot be read without a password. -/
theorem decompressBlockGeneric_complete_iff (build : Build) (lib : Decompressors)
    {gcrypt : Gcrypt} (keeps : gcrypt.KeepsSize) (options : Options) {mem : Mem}
    {ai after : ArchReader} {d : Dico} {blkinfo : BlockInfo}
    (read : archreaderReadBlock mem ai d false = some (some (blkinfo, true), after)) :
    (decompressBlockGeneric build lib gcrypt options mem blkinfo).Complete
        blkinfo.blkrealsize.toNat ↔
      (blkinfo.Readable options → blkinfo.SizesAgree build lib gcrypt options mem) := by
  have accepted := accepted_of_archreaderReadBlock read
  have sum : ¬fletcher32 (blkinfo.stored mem) ≠ blkinfo.blkarcsum := by
    rw [accepted.stored, accepted.sum]
    exact fun differs => differs rfl
  rw [decompressBlockGeneric, if_neg sum]
  by_cases readable : blkinfo.Readable options
  · have open' : ¬(blkinfo.blkcryptalgo ≠ encryptNone ∧ options.encryptalgo ≠ encryptBlowfish) := by
      rintro ⟨encrypted, noPassword⟩
      exact readable.elim encrypted noPassword
    rw [if_neg open', complete_andThen]
    constructor
    · rintro ⟨fits, complete⟩ -
      have stages packed (holds : blkinfo.Holds gcrypt options packed) :=
        complete_uncompressed packed |>.mp
          (complete packed ((decrypted_eq_done accepted keeps fits packed).mpr holds))
      exact {
        decrypted := (decrypted_ne_overflow accepted keeps).mp fits
        copied := fun algo packed holds => (stages packed holds).1 algo
        decompressed := fun packed data holds => (stages packed holds).2 data }
    · intro agree
      have fits : blkinfo.decrypted gcrypt options mem ≠ .overflow :=
        (decrypted_ne_overflow accepted keeps).mpr (agree readable).decrypted
      refine ⟨fits, fun packed done => ?_⟩
      have holds := (decrypted_eq_done accepted keeps fits packed).mp done
      apply (complete_uncompressed packed).mpr
      exact ⟨fun algo => (agree readable).copied algo packed holds,
        fun data => (agree readable).decompressed packed data holds⟩
  · have locked : blkinfo.blkcryptalgo ≠ encryptNone ∧ options.encryptalgo ≠ encryptBlowfish :=
      not_or.mp readable
    rw [if_pos locked]
    exact ⟨fun _ opened => absurd opened readable, fun _ => trivial⟩

/-- The last stage writes past the buffer only in the copy of a block without compression. -/
theorem uncompressed_eq_overflow (honour : lib.HonourSize) (packed : List UInt8) :
    blkinfo.uncompressed build lib mem packed = .overflow ↔
      blkinfo.blkcompalgo = CompressAlgo.code .none ∧
        blkinfo.blkrealsize < blkinfo.blkarsize := by
  by_cases algo : blkinfo.blkcompalgo = CompressAlgo.code .none
  · have count : (heapBytes mem packed 0 blkinfo.blkarsize.toNat).length =
        blkinfo.blkarsize.toNat := by
      rw [heapBytes, List.length_map, List.length_range]
    rw [BlockInfo.uncompressed, if_pos algo, UInt32.lt_iff_toNat_lt]
    rcases Nat.lt_or_ge blkinfo.blkrealsize.toNat blkinfo.blkarsize.toNat with longer | room
    · simp [Buffer.copy_of_lt (Nat.lt_of_lt_of_eq longer count.symm), algo, longer]
    · simp [Buffer.copy_of_le (Nat.le_trans (Nat.le_of_eq count) room), room]
  · rw [BlockInfo.uncompressed, if_neg algo]
    cases result : uncompressSwitch build lib
        (heapBytes mem packed 0 blkinfo.blkcompsize.toNat) blkinfo.blkrealsize.toNat
        blkinfo.blkcompalgo with
    | none => simp [algo]
    | some res =>
      cases res with
      | error err => simp [algo]
      | ok data => simp [algo, Buffer.copy_of_le (length_uncompressSwitch honour result)]

/-- A function that goes on with what was filled. -/
theorem andThen_eq_overflow {α β : Type} {filled : Filled α} {next : α → Filled β} :
    filled.andThen next = .overflow ↔
      filled = .overflow ∨ ∃ value, filled = .done value ∧ next value = .overflow := by
  cases filled with
  | overflow => simp
  | error => simp
  | done value => simp

/-- `decompress_block_generic` writes past a buffer exactly where the stored size is too large for
the copy of a block without compression or for its decryption. -/
theorem decompressBlockGeneric_overflow_iff (build : Build) {lib : Decompressors}
    (honour : lib.HonourSize) {gcrypt : Gcrypt} (keeps : gcrypt.KeepsSize) (options : Options)
    {mem : Mem} {ai after : ArchReader} {d : Dico} {blkinfo : BlockInfo}
    (read : archreaderReadBlock mem ai d false = some (some (blkinfo, true), after)) :
    decompressBlockGeneric build lib gcrypt options mem blkinfo = .overflow ↔
      blkinfo.Readable options ∧
        ((blkinfo.blkcryptalgo = encryptBlowfish ∧
            (cryptoBlowfish gcrypt blkinfo.blkdata options.encryptpass 0).isSome ∧
            blkinfo.blkrealsize.toNat + 8 < blkinfo.blkarsize.toNat) ∨
          (blkinfo.blkcompalgo = CompressAlgo.code .none ∧
            (∃ packed, blkinfo.Holds gcrypt options packed) ∧
            blkinfo.blkrealsize < blkinfo.blkarsize)) := by
  have accepted := accepted_of_archreaderReadBlock read
  have sum : ¬fletcher32 (blkinfo.stored mem) ≠ blkinfo.blkarcsum := by
    rw [accepted.stored, accepted.sum]
    exact fun differs => differs rfl
  rw [decompressBlockGeneric, if_neg sum]
  by_cases readable : blkinfo.Readable options
  · have opened : ¬(blkinfo.blkcryptalgo ≠ encryptNone ∧ options.encryptalgo ≠ encryptBlowfish) := by
      rintro ⟨encrypted, noPassword⟩
      exact readable.elim encrypted noPassword
    rw [if_neg opened, andThen_eq_overflow]
    have kept : blkinfo.decrypted gcrypt options mem ≠ .overflow ↔ _ :=
      decrypted_ne_overflow accepted keeps
    by_cases fits : blkinfo.decrypted gcrypt options mem = .overflow
    · have long : ¬(blkinfo.blkcryptalgo = encryptBlowfish →
          (cryptoBlowfish gcrypt blkinfo.blkdata options.encryptpass 0).isSome →
          blkinfo.blkarsize.toNat ≤ blkinfo.blkrealsize.toNat + 8) :=
        fun within => kept.mpr within fits
      simp only [Classical.not_imp, Nat.not_le] at long
      constructor
      · intro _
        exact ⟨readable, .inl long⟩
      · intro _
        exact .inl fits
    · constructor
      · rintro (overflow | ⟨packed, done, overflow⟩)
        · exact absurd overflow fits
        · obtain ⟨algo, longer⟩ := (uncompressed_eq_overflow honour packed).mp overflow
          have holds := (decrypted_eq_done accepted keeps fits packed).mp done
          exact ⟨readable, .inr ⟨algo, ⟨packed, holds⟩, longer⟩⟩
      · rintro ⟨-, ⟨encrypted, crypted, longer⟩ | ⟨algo, ⟨packed, holds⟩, longer⟩⟩
        · have within := kept.mp fits encrypted crypted
          omega
        · right
          exact ⟨packed, (decrypted_eq_done accepted keeps fits packed).mpr holds,
            (uncompressed_eq_overflow honour packed).mpr ⟨algo, longer⟩⟩
  · have locked : blkinfo.blkcryptalgo ≠ encryptNone ∧ options.encryptalgo ≠ encryptBlowfish :=
      not_or.mp readable
    rw [if_pos locked]
    constructor
    · intro ended
      exact absurd ended (by simp)
    · intro opened
      exact absurd opened.1 readable

/-- Two stored bytes without compression that claim to have this size. -/
def storedBytes (realsize : UInt32) : BlockInfo :=
  { BlockInfo.zero with
    blkdata := [1, 2], blkrealsize := realsize, blkarsize := 2, blkcompsize := 2
    blkcompalgo := CompressAlgo.code .none, blkcryptalgo := encryptNone
    blkarcsum := fletcher32 [1, 2] }

/-- A reader in front of two bytes. -/
def storedReader : ArchReader := { archreaderInit with file := [1, 2] }

/-- The two bytes are accepted with any real size that a block may have. -/
theorem storedBytes_read {realsize : UInt32} (real : realsize.toNat ≤ maxBlkSize) :
    ∃ after, archreaderReadBlock ⟨fun _ => 0, fun _ => 0⟩ storedReader
      (blockDico (storedBytes realsize)) false = some (some (storedBytes realsize, true), after) := by
  have stored : (storedBytes realsize).Stored :=
    { nonempty := (by decide : (2 : UInt32) ≠ 0), size := rfl, real, sum := rfl }
  exact ⟨_, archreaderReadBlock_of_ahead _ stored
    (show storedReader.ahead = (storedBytes realsize).blkdata ++ [] from rfl)⟩

theorem zerosDecompressors_honour : zerosDecompressors.HonourSize where
  lzo := by simp [zerosDecompressors]
  gzip := by
    intro data size out decompressed
    simp only [zerosDecompressors] at decompressed
    split at decompressed
    next zeros =>
      simp only [Prod.mk.injEq, true_and] at decompressed
      rw [← decompressed, List.length_replicate, zeros.2]
    next => simp at decompressed
  bzip2 := by simp [zerosDecompressors]
  lzma := by simp [zerosDecompressors]
  lz4 := by simp [zerosDecompressors]
  zstd := by simp [zerosDecompressors]

theorem noGcrypt_keepsSize : noGcrypt.KeepsSize := by simp [Gcrypt.KeepsSize, noGcrypt]

/-- With their own size the two bytes are safe. -/
theorem storedBytes_complete :
    (decompressBlockGeneric ⟨false, false, false, false⟩ zerosDecompressors noGcrypt gzipOptions
      ⟨fun _ => 0, fun _ => 0⟩ (storedBytes 2)).Complete 2 := by
  obtain ⟨after, read⟩ := storedBytes_read (show (2 : UInt32).toNat ≤ maxBlkSize by decide)
  apply (decompressBlockGeneric_complete_iff ⟨false, false, false, false⟩ zerosDecompressors
    noGcrypt_keepsSize gzipOptions read).mpr
  intro _
  exact {
    decrypted := fun encrypted => absurd encrypted (by decide)
    copied := fun _ _ _ => rfl
    decompressed := fun packed data _ uncompressed => by
      simp [uncompressSwitch, storedBytes] at uncompressed }

/-- Two stored bytes that claim to be one are accepted, and are copied past their buffer. -/
theorem storedBytes_overflow :
    zerosDecompressors.HonourSize ∧
      (∃ after, archreaderReadBlock ⟨fun _ => 0, fun _ => 0⟩ storedReader
        (blockDico (storedBytes 1)) false = some (some (storedBytes 1, true), after)) ∧
      ¬(decompressBlockGeneric ⟨false, false, false, false⟩ zerosDecompressors noGcrypt gzipOptions
        ⟨fun _ => 0, fun _ => 0⟩ (storedBytes 1)).Complete (storedBytes 1).blkrealsize.toNat := by
  refine ⟨zerosDecompressors_honour, storedBytes_read (by decide), ?_⟩
  intro complete
  exact complete

end FsArchiver
