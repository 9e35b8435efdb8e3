import FsArchiver.Comp
import FsArchiver.Records

/-!
# Processing of blocks

`compress_block_generic` and `decompress_block_generic` of `thread_comp.c`. A buffer that
`malloc` returns is filled with unknown bytes, and a copy past its end is an outcome of its own.
Memory is assumed not to run out. Whatever becomes of the attempts to compress a block, what
`compress_block_generic` makes of it is turned back into its data.
-/
namespace FsArchiver

/-- What the functions read of `g_options`. -/
structure Options where
  /-- `compressalgo`. -/
  compressalgo : UInt16
  /-- `compresslevel`. -/
  compresslevel : Int
  /-- `encryptalgo`. -/
  encryptalgo : UInt16
  /-- The characters of `encryptpass`. -/
  encryptpass : List UInt8

/-! ## Compressing -/

/-- The `switch` of `compress_block_generic`; nothing for an algorithm the build has not. -/
def compressSwitch (build : Build) (lib : Compressors) (origbuf : List UInt8) (bufsize : Nat)
    (compalgo : UInt16) (complevel : Int) : Option (Except FsaErr (List UInt8)) :=
  match CompressAlgo.ofCode compalgo with
  | some .lzo => if build.lzo then some (compressBlockLzo lib origbuf) else none
  | some .gzip => some (compressBlockGzip lib origbuf bufsize complevel)
  | some .bzip2 => some (compressBlockBzip2 lib origbuf bufsize)
  | some .lzma => if build.lzma then some (compressBlockLzma lib origbuf bufsize complevel) else none
  | some .lz4 => if build.lz4 then some (compressBlockLz4 lib origbuf bufsize) else none
  | some .zstd => if build.zstd then some (compressBlockZstd lib origbuf bufsize complevel) else none
  | some .none | none => none

/-- Whether the next attempt uses the default algorithm and level. -/
def retriesDefault (build : Build) (compalgo : UInt16) (complevel : Int) : Bool :=
  compalgo = CompressAlgo.code .zstd ∧ complevel > build.defCompressLevel ∨
    compalgo ≠ build.defCompressAlgo.code

/-- The loop of `compress_block_generic`, with this many attempts left after the next one: the
result of the last attempt and its algorithm. Each attempt meets the libraries in a state of its
own. -/
def compressLoop (build : Build) (libs : Nat → Compressors) (origbuf : List UInt8)
    (bufsize : Nat) : Nat → UInt16 → Int → Option (Except FsaErr (List UInt8) × UInt16)
  | 0, compalgo, complevel =>
    (compressSwitch build (libs 0) origbuf bufsize compalgo complevel).map fun res =>
      (res, compalgo)
  | left + 1, compalgo, complevel =>
    match compressSwitch build (libs (left + 1)) origbuf bufsize compalgo complevel with
    | some (.error .enomem) =>
      if retriesDefault build compalgo complevel then
        compressLoop build libs origbuf bufsize left build.defCompressAlgo.code
          build.defCompressLevel
      else compressLoop build libs origbuf bufsize left compalgo complevel
    | some res => some (res, compalgo)
    | none => none

/-- The size of the buffer for the compressed block. -/
def compressBufsize (blkinfo : BlockInfo) : Nat :=
  blkinfo.blkrealsize.toNat + blkinfo.blkrealsize.toNat / 16 + 64 + 3

/-- The block behind the loop: compressed if that saved space, else as it is. -/
def BlockInfo.compressed (blkinfo : BlockInfo) (res : Except FsaErr (List UInt8))
    (compalgo : UInt16) : BlockInfo :=
  let raw := { blkinfo with
    blkdata := blkinfo.blkdata.take blkinfo.blkrealsize.toNat
    blkcompsize := blkinfo.blkrealsize, blkarsize := blkinfo.blkrealsize
    blkcompalgo := CompressAlgo.code .none }
  match res with
  | .error _ => raw
  | .ok out =>
    if out.length < blkinfo.blkrealsize.toNat then
      { blkinfo with
        blkdata := out, blkcompsize := UInt32.ofNat out.length
        blkarsize := UInt32.ofNat out.length, blkcompalgo := compalgo }
    else raw

/-- The encryption stage of `compress_block_generic`. -/
def BlockInfo.encrypted (gcrypt : Gcrypt) (options : Options) (blkinfo : BlockInfo) :
    Option BlockInfo :=
  if options.encryptalgo = encryptBlowfish then
    match cryptoBlowfish gcrypt (blkinfo.blkdata.take blkinfo.blkcompsize.toNat)
      options.encryptpass 1 with
    | none => none
    | some (cryptsize, bufcrypt) =>
      some { blkinfo with
        blkdata := bufcrypt, blkarsize := UInt32.ofNat cryptsize
        blkcryptalgo := encryptBlowfish }
  else some { blkinfo with blkcryptalgo := encryptNone }

/-- `compress_block_generic`. -/
def compressBlockGeneric (build : Build) (libs : Nat → Compressors) (gcrypt : Gcrypt)
    (options : Options) (blkinfo : BlockInfo) : Option BlockInfo := do
  let (res, compalgo) ← compressLoop build libs blkinfo.blkdata (compressBufsize blkinfo) 1
    options.compressalgo options.compresslevel
  let blkinfo ← (blkinfo.compressed res compalgo).encrypted gcrypt options
  some { blkinfo with blkarcsum := fletcher32 (blkinfo.blkdata.take blkinfo.blkarsize.toNat) }

/-! ## Buffers -/

/-- The bytes of a buffer, as far as they are known. -/
abbrev Buffer := List (Option UInt8)

namespace Buffer

/-- `malloc`. -/
def malloc (size : Nat) : Buffer := List.replicate size none

/-- A copy to the start of a buffer; nothing when it goes past the end. -/
def store (buffer : Buffer) (data : List UInt8) : Option Buffer :=
  if data.length ≤ buffer.length then some (data.map some ++ buffer.drop data.length) else none

/-- `memset` with zeros. -/
def zeros (buffer : Buffer) : Buffer := buffer.map fun _ => some 0

end Buffer

/-- How a function ends that fills buffers. -/
inductive Filled (α : Type) where
  /-- It wrote past the end of a buffer. -/
  | overflow
  /-- It returned an error. -/
  | error
  /-- It returned 0. -/
  | done (value : α)

namespace Filled

variable {α β : Type}

/-- Go on with what was filled. -/
def andThen (filled : Filled α) (next : α → Filled β) : Filled β :=
  match filled with
  | .overflow => .overflow
  | .error => .error
  | .done value => next value

@[simp] theorem overflow_andThen (next : α → Filled β) : (overflow).andThen next = .overflow := rfl

@[simp] theorem error_andThen (next : α → Filled β) : (error).andThen next = .error := rfl

@[simp] theorem done_andThen (value : α) (next : α → Filled β) :
    (done value).andThen next = next value := rfl

end Filled

/-- A copy in which the caller does not check the size. -/
def Buffer.copy (buffer : Buffer) (data : List UInt8) : Filled Buffer :=
  match buffer.store data with
  | none => .overflow
  | some buffer => .done buffer

/-! ## Decompressing -/

/-- The cases of the `switch` of `decompress_block_generic` that call a library; nothing for an
algorithm the build has not. -/
def uncompressSwitch (build : Build) (lib : Decompressors) (compbuf : List UInt8)
    (origbufsize : Nat) (compalgo : UInt16) : Option (Except FsaErr (List UInt8)) :=
  match CompressAlgo.ofCode compalgo with
  | some .lzo => if build.lzo then some (uncompressBlockLzo lib compbuf origbufsize) else none
  | some .gzip => some (uncompressBlockGzip lib compbuf origbufsize)
  | some .bzip2 => some (uncompressBlockBzip2 lib compbuf origbufsize)
  | some .lzma => if build.lzma then some (uncompressBlockLzma lib compbuf origbufsize) else none
  | some .lz4 => if build.lz4 then some (uncompressBlockLz4 lib compbuf origbufsize) else none
  | some .zstd => if build.zstd then some (uncompressBlockZstd lib compbuf origbufsize) else none
  | some .none | none => none

/-- The bytes of a block as they are stored. -/
def BlockInfo.stored (blkinfo : BlockInfo) (mem : Mem) : List UInt8 :=
  heapBytes mem blkinfo.blkdata 0 blkinfo.blkarsize.toNat

/-- The decryption stage of `decompress_block_generic`: the bytes of the block behind it. -/
def BlockInfo.decrypted (gcrypt : Gcrypt) (options : Options) (mem : Mem)
    (blkinfo : BlockInfo) : Filled (List UInt8) :=
  if blkinfo.blkcryptalgo = encryptBlowfish then
    match cryptoBlowfish gcrypt (blkinfo.stored mem) options.encryptpass 0 with
    | none => .error
    | some (clearsize, clear) =>
      ((Buffer.malloc (blkinfo.blkrealsize.toNat + 8)).copy clear).andThen fun _ =>
        if clearsize ≠ blkinfo.blkcompsize.toNat then .error else .done clear
  else .done blkinfo.blkdata

/-- The `switch` of `decompress_block_generic` over a block that is not encrypted any more. A
library that fails leaves zeros. -/
def BlockInfo.uncompressed (build : Build) (lib : Decompressors) (mem : Mem)
    (blkinfo : BlockInfo) (blkdata : List UInt8) : Filled Buffer :=
  let bufcomp := Buffer.malloc blkinfo.blkrealsize.toNat
  if blkinfo.blkcompalgo = CompressAlgo.code .none then
    bufcomp.copy (heapBytes mem blkdata 0 blkinfo.blkarsize.toNat)
  else
    match uncompressSwitch build lib (heapBytes mem blkdata 0 blkinfo.blkcompsize.toNat)
      blkinfo.blkrealsize.toNat blkinfo.blkcompalgo with
    | none => .error
    | some (.error _) => .done bufcomp.zeros
    -- The size that the library reports is not compared with the real size.
    | some (.ok out) => bufcomp.copy out

/-- `decompress_block_generic`: the data of the block afterwards. No other field is changed. -/
def decompressBlockGeneric (build : Build) (lib : Decompressors) (gcrypt : Gcrypt)
    (options : Options) (mem : Mem) (blkinfo : BlockInfo) : Filled Buffer :=
  -- A block with a wrong checksum keeps its data: the zeros are in a buffer that is dropped.
  if fletcher32 (blkinfo.stored mem) ≠ blkinfo.blkarcsum then
    .done (blkinfo.blkdata.map some)
  else if blkinfo.blkcryptalgo ≠ encryptNone ∧ options.encryptalgo ≠ encryptBlowfish then .error
  else (blkinfo.decrypted gcrypt options mem).andThen (blkinfo.uncompressed build lib mem)

/-! ## What a block becomes -/

variable {build : Build} {libs : Nat → Compressors} {compress : Compressors}
  {lib : Decompressors} {data out : List UInt8}

/-- What a `switch` compressed into less than its buffer, the other one decompresses. -/
theorem uncompressSwitch_eq (inverted : compress.InvertedBy lib) {size : Nat} {compalgo : UInt16}
    {complevel : Int} (nonempty : data ≠ []) (room : out.length < size)
    (succeeds : compressSwitch build compress data size compalgo complevel = some (.ok out)) :
    uncompressSwitch build lib out data.length compalgo = some (.ok data) := by
  unfold compressSwitch at succeeds
  unfold uncompressSwitch
  cases algo : CompressAlgo.ofCode compalgo with
  | none => simp [algo] at succeeds
  | some algo' =>
    cases algo' with
    | none => simp [algo] at succeeds
    | lzo =>
      simp only [algo, Option.ite_none_right_eq_some, Option.some.injEq] at succeeds
      simp only [if_pos succeeds.1, uncompressBlockLzo_eq inverted succeeds.2]
    | gzip =>
      simp only [algo, Option.some.injEq] at succeeds
      simp only [uncompressBlockGzip_eq inverted succeeds]
    | bzip2 =>
      simp only [algo, Option.some.injEq] at succeeds
      simp only [uncompressBlockBzip2_eq inverted succeeds]
    | lzma =>
      simp only [algo, Option.ite_none_right_eq_some, Option.some.injEq] at succeeds
      simp only [if_pos succeeds.1, uncompressBlockLzma_eq inverted room succeeds.2]
    | lz4 =>
      simp only [algo, Option.ite_none_right_eq_some, Option.some.injEq] at succeeds
      simp only [if_pos succeeds.1, uncompressBlockLz4_eq inverted nonempty succeeds.2]
    | zstd =>
      simp only [algo, Option.ite_none_right_eq_some, Option.some.injEq] at succeeds
      simp only [if_pos succeeds.1, uncompressBlockZstd_eq inverted succeeds.2]

/-- A block is not stored under an algorithm that leaves it as it is. -/
theorem compressSwitch_none {size : Nat} {complevel : Int} :
    compressSwitch build compress data size (CompressAlgo.code .none) complevel = none := by
  simp only [compressSwitch, CompressAlgo.ofCode_code]

/-- The algorithm that is left in the block is the one of the last attempt. -/
theorem compressLoop_ok {bufsize left : Nat} {compalgo usedalgo : UInt16} {complevel : Int}
    (succeeds : compressLoop build libs data bufsize left compalgo complevel =
      some (.ok out, usedalgo)) :
    ∃ attempt level,
      compressSwitch build (libs attempt) data bufsize usedalgo level = some (.ok out) := by
  induction left generalizing compalgo complevel with
  | zero =>
    simp only [compressLoop, Option.map_eq_some_iff, Prod.mk.injEq] at succeeds
    obtain ⟨res, compressed, rfl, rfl⟩ := succeeds
    exact ⟨0, complevel, compressed⟩
  | succ left ih =>
    simp only [compressLoop] at succeeds
    split at succeeds
    · split at succeeds
      · exact ih succeeds
      · exact ih succeeds
    next compressed =>
      simp only [Option.some.injEq, Prod.mk.injEq] at succeeds
      obtain ⟨rfl, rfl⟩ := succeeds
      exact ⟨left + 1, complevel, compressed⟩
    · exact absurd succeeds (by simp)

/-- How these packed bytes stand in a block for its data. -/
structure BlockInfo.Packs (build : Build) (lib : Decompressors) (blkinfo : BlockInfo)
    (packed data : List UInt8) : Prop where
  /-- The size before encryption. -/
  size : packed.length = blkinfo.blkcompsize.toNat
  /-- Encryption keeps the size. -/
  stored : blkinfo.blkarsize = blkinfo.blkcompsize
  /-- A block never grows. -/
  small : blkinfo.blkcompsize.toNat ≤ blkinfo.blkrealsize.toNat
  /-- The size of the data. -/
  real : data.length = blkinfo.blkrealsize.toNat
  /-- The packed bytes are the data or decompress to it. -/
  contents : blkinfo.blkcompalgo = CompressAlgo.code .none ∧ packed = data ∨
    blkinfo.blkcompalgo ≠ CompressAlgo.code .none ∧
      uncompressSwitch build lib packed data.length blkinfo.blkcompalgo = some (.ok data)

namespace Buffer

/-- A copy that the buffer holds leaves the rest of it as it was. -/
theorem copy_of_le {size : Nat} (room : data.length ≤ size) :
    (malloc size).copy data = .done (data.map some ++ List.replicate (size - data.length) none) := by
  have held : data.length ≤ (malloc size).length := by
    rw [malloc, List.length_replicate]
    exact room
  rw [copy, store, if_pos held, malloc, List.drop_replicate]

/-- A copy that the buffer does not hold. -/
theorem copy_of_lt {size : Nat} (longer : size < data.length) :
    (malloc size).copy data = .overflow := by
  have short : ¬data.length ≤ (malloc size).length := by
    rw [malloc, List.length_replicate]
    exact Nat.not_le.mpr longer
  rw [copy, store, if_neg short]

/-- A copy that fills a buffer. -/
theorem copy_malloc {size : Nat} (count : data.length = size) :
    (malloc size).copy data = .done (data.map some) := by
  rw [copy_of_le (Nat.le_of_eq count), count, Nat.sub_self, List.replicate_zero, List.append_nil]

end Buffer

/-- The data of a block comes back from its packed bytes. -/
theorem BlockInfo.Packs.uncompressed {blkinfo : BlockInfo}
    (packs : blkinfo.Packs build lib out data) (mem : Mem) :
    blkinfo.uncompressed build lib mem out = .done (data.map some) := by
  have whole := heapBytes_all mem out
  rw [packs.size] at whole
  rcases packs.contents with ⟨algo, rfl⟩ | ⟨algo, decompressed⟩
  · rw [BlockInfo.uncompressed, if_pos algo, packs.stored, whole]
    exact Buffer.copy_malloc packs.real
  · simp only [BlockInfo.uncompressed, if_neg algo, whole, ← packs.real, decompressed]
    exact Buffer.copy_malloc rfl

/-- A block behind the attempts to compress it stands for its data. -/
theorem BlockInfo.packs_compressed (inverted : ∀ attempt, (libs attempt).InvertedBy lib)
    {blkinfo : BlockInfo} (nonempty : 0 < blkinfo.blkrealsize.toNat)
    (filled : blkinfo.blkdata.length = blkinfo.blkrealsize.toNat) {left : Nat}
    {compalgo usedalgo : UInt16} {complevel : Int} {res : Except FsaErr (List UInt8)}
    (loop : compressLoop build libs blkinfo.blkdata (compressBufsize blkinfo) left compalgo
      complevel = some (res, usedalgo)) :
    (blkinfo.compressed res usedalgo).Packs build lib
      (blkinfo.compressed res usedalgo).blkdata blkinfo.blkdata := by
  have raw : ({ blkinfo with
      blkdata := blkinfo.blkdata.take blkinfo.blkrealsize.toNat
      blkcompsize := blkinfo.blkrealsize, blkarsize := blkinfo.blkrealsize
      blkcompalgo := CompressAlgo.code .none } : BlockInfo).Packs build lib
      (blkinfo.blkdata.take blkinfo.blkrealsize.toNat) blkinfo.blkdata := by
    rw [← filled, List.take_length]
    exact ⟨filled, rfl, Nat.le_refl _, filled, .inl ⟨rfl, rfl⟩⟩
  cases res with
  | error err => exact raw
  | ok out =>
    by_cases saves : out.length < blkinfo.blkrealsize.toNat
    · obtain ⟨attempt, level, compressed⟩ := compressLoop_ok loop
      have count : (UInt32.ofNat out.length).toNat = out.length := by
        rw [UInt32.toNat_ofNat']
        have bound := blkinfo.blkrealsize.toNat_lt
        apply Nat.mod_eq_of_lt
        omega
      have used : usedalgo ≠ CompressAlgo.code .none := by
        rintro rfl
        rw [compressSwitch_none] at compressed
        exact absurd compressed (by simp)
      have room : out.length < compressBufsize blkinfo := by
        unfold compressBufsize
        omega
      have some : blkinfo.blkdata ≠ [] := by
        rw [← List.length_pos_iff, filled]
        exact nonempty
      simp only [BlockInfo.compressed, if_pos saves]
      exact {
        size := count.symm
        stored := rfl
        small := by rw [count]; exact Nat.le_of_lt saves
        real := filled
        contents := .inr ⟨used, uncompressSwitch_eq (inverted attempt) some room compressed⟩ }
    · simp only [BlockInfo.compressed, if_neg saves]
      exact raw

/-- Encryption gives back what decryption undoes, and says so in the block. -/
theorem BlockInfo.decrypted_encrypted {save restore : Gcrypt} {saving restoring : Options}
    (cipher : save.InvertedBy restore)
    (password : saving.encryptalgo = encryptBlowfish →
      restoring.encryptalgo = encryptBlowfish ∧ restoring.encryptpass = saving.encryptpass)
    {blkinfo blkinfo' : BlockInfo} (packs : blkinfo.Packs build lib blkinfo.blkdata data)
    (succeeds : blkinfo.encrypted save saving = some blkinfo') (mem : Mem) :
    blkinfo'.Packs build lib blkinfo.blkdata data ∧
      blkinfo'.blkdata.length = blkinfo'.blkarsize.toNat ∧
      blkinfo'.blkrealsize = blkinfo.blkrealsize ∧
      (blkinfo'.blkcryptalgo ≠ encryptNone → restoring.encryptalgo = encryptBlowfish) ∧
      blkinfo'.decrypted restore restoring mem = .done blkinfo.blkdata := by
  have count := packs.size
  unfold BlockInfo.encrypted at succeeds
  split at succeeds
  next encrypts =>
    obtain ⟨given, same⟩ := password encrypts
    split at succeeds
    · exact absurd succeeds (by simp)
    next size bufcrypt crypted =>
    simp only [Option.some.injEq] at succeeds
    subst succeeds
    rw [← count, List.take_length] at crypted
    obtain ⟨rfl, kept, clears⟩ := cryptoBlowfish_inverted cipher crypted
    have size : (UInt32.ofNat blkinfo.blkdata.length).toNat = blkinfo.blkdata.length := by
      rw [count, UInt32.ofNat_toNat]
    have read : heapBytes mem bufcrypt 0 (UInt32.ofNat blkinfo.blkdata.length).toNat = bufcrypt := by
      rw [size, ← kept]
      exact heapBytes_all mem bufcrypt
    have fits : blkinfo.blkdata.length ≤ blkinfo.blkrealsize.toNat + 8 := by
      rw [count]
      exact Nat.le_trans packs.small (Nat.le_add_right ..)
    refine ⟨?_, ?_, rfl, fun _ => given, ?_⟩
    · exact {
        size := count
        stored := by rw [count, UInt32.ofNat_toNat]
        small := packs.small
        real := packs.real
        contents := packs.contents }
    · rw [size, kept]
    · simp only [BlockInfo.decrypted, BlockInfo.stored, read, same, clears, if_true,
        Buffer.copy_of_le fits, Filled.done_andThen]
      exact if_neg (fun differs => differs count)
  next clear =>
    simp only [Option.some.injEq] at succeeds
    subst succeeds
    refine ⟨?_, ?_, rfl, fun locked => absurd rfl locked, ?_⟩
    · exact ⟨packs.size, packs.stored, packs.small, packs.real, packs.contents⟩
    · rw [count, packs.stored]
    · rfl

/-- What `compress_block_generic` makes of a block of data is turned back into the data by
`decompress_block_generic`, and is stored in no more bytes than the data has. -/
theorem decompressBlockGeneric_compressBlockGeneric (build : Build) (libs : Nat → Compressors)
    (lib : Decompressors) (inverted : ∀ attempt, (libs attempt).InvertedBy lib)
    {save restore : Gcrypt} (cipher : save.InvertedBy restore) {saving restoring : Options}
    (password : saving.encryptalgo = encryptBlowfish →
      restoring.encryptalgo = encryptBlowfish ∧ restoring.encryptpass = saving.encryptpass)
    (mem : Mem) {blkinfo blkinfo' : BlockInfo} (nonempty : 0 < blkinfo.blkrealsize.toNat)
    (filled : blkinfo.blkdata.length = blkinfo.blkrealsize.toNat)
    (succeeds : compressBlockGeneric build libs save saving blkinfo = some blkinfo') :
    decompressBlockGeneric build lib restore restoring mem blkinfo' =
        .done (blkinfo.blkdata.map some) ∧
      blkinfo'.blkrealsize = blkinfo.blkrealsize ∧
      blkinfo'.blkarsize ≤ blkinfo'.blkrealsize := by
  simp only [compressBlockGeneric, Option.bind_eq_bind, Option.bind_eq_some_iff] at succeeds
  obtain ⟨⟨res, compalgo⟩, loop, encrypted, crypted, ended⟩ := succeeds
  simp only [Option.some.injEq] at ended
  subst ended
  have packed := BlockInfo.packs_compressed inverted nonempty filled loop
  obtain ⟨packs, stored, real, readable, clears⟩ :=
    BlockInfo.decrypted_encrypted cipher password packed crypted mem
  have same : (blkinfo.compressed res compalgo).blkrealsize = blkinfo.blkrealsize := by
    unfold BlockInfo.compressed
    split
    · rfl
    · split
      · rfl
      · rfl
  have sum : fletcher32 (encrypted.stored mem) =
      fletcher32 (encrypted.blkdata.take encrypted.blkarsize.toNat) := by
    rw [BlockInfo.stored, ← stored, heapBytes_all, List.take_length]
  refine ⟨?_, real.trans same, ?_⟩
  · unfold decompressBlockGeneric
    rw [if_neg (fun corrupt => corrupt sum)]
    rw [if_neg (fun locked => locked.2 (readable locked.1))]
    calc (encrypted.decrypted restore restoring mem).andThen (encrypted.uncompressed build lib mem)
        = encrypted.uncompressed build lib mem (blkinfo.compressed res compalgo).blkdata := by
          rw [clears, Filled.done_andThen]
      _ = .done (blkinfo.blkdata.map some) := packs.uncompressed mem
  · show encrypted.blkarsize ≤ encrypted.blkrealsize
    rw [UInt32.le_iff_toNat_le, packs.stored]
    exact packs.small

/-- Thirty-two zeros as zlib compresses them. -/
def zlibZeros : List UInt8 := [0x78, 0x9c, 0x63, 0x60, 0xc0, 0x0f, 0x00, 0x00, 0x20, 0x00, 0x01]

/-- Compressors of which only zlib works, and only on thirty-two zeros. -/
def zerosCompressors : Compressors :=
  { lzo1x1Compress := fun _ => (.other, [])
    compress2 := fun data _ _ =>
      if data = List.replicate 32 0 then (.ok, zlibZeros) else (.other, [])
    bzBuffToBuffCompress := fun _ _ => (.other, [])
    lzma := fun _ _ _ => ⟨.other, .other, .other, []⟩
    lz4CompressDefault := fun _ _ => none
    zstdCompress := fun _ _ _ => none }

/-- The decompressors for them. -/
def zerosDecompressors : Decompressors :=
  { lzo1xDecompressSafe := fun _ _ => (.other, [])
    uncompress := fun data size =>
      if data = zlibZeros ∧ size = 32 then (.ok, List.replicate 32 0) else (.other, [])
    bzBuffToBuffDecompress := fun _ _ => (.other, [])
    lzmaAutoDecoder := false
    lzmaCode := fun _ _ _ => (.other, [])
    lz4DecompressSafe := fun _ _ => none
    zstdDecompress := fun _ _ => none }

/-- A libgcrypt that cannot open its cipher. -/
def noGcrypt : Gcrypt :=
  { cipherOpen := false, cipherSetkey := fun _ => false, cipherSetiv := fun _ => false
    cipherEncrypt := fun _ _ _ => none, cipherDecrypt := fun _ _ _ => none }

theorem zerosCompressors_inverted : zerosCompressors.InvertedBy zerosDecompressors where
  lzo := by simp [zerosCompressors]
  gzip := by
    intro data size level out compressed
    simp only [zerosCompressors] at compressed
    split at compressed
    next zeros =>
      simp only [Prod.mk.injEq, true_and] at compressed
      subst zeros compressed
      rfl
    next => simp at compressed
  bzip2 := by simp [zerosCompressors]
  lzma := by simp [zerosCompressors]
  lzmaFilled := by simp [zerosCompressors]
  lz4 := by simp [zerosCompressors]
  zstd := by simp [zerosCompressors]

theorem noGcrypt_inverted : noGcrypt.InvertedBy noGcrypt where
  opens := by simp [noGcrypt]
  setkey := by simp [noGcrypt]
  setiv := by simp [noGcrypt]
  size := by simp [noGcrypt]
  decrypt := by simp [noGcrypt]

/-- The options `-z3` of a build without zstd: gzip with level 6. -/
def gzipOptions : Options :=
  { compressalgo := CompressAlgo.code .gzip, compresslevel := 6, encryptalgo := encryptNone
    encryptpass := [] }

/-- A block of thirty-two zeros. -/
def zerosBlock : BlockInfo :=
  { BlockInfo.zero with blkdata := List.replicate 32 0, blkrealsize := 32 }

/-- Thirty-two zeros are stored in eleven bytes and come back. -/
theorem decompressBlockGeneric_zeros : ∃ blkinfo,
    compressBlockGeneric ⟨false, false, false, false⟩ (fun _ => zerosCompressors) noGcrypt
        gzipOptions zerosBlock = some blkinfo ∧
      blkinfo.blkarsize = 11 ∧
      decompressBlockGeneric ⟨false, false, false, false⟩ zerosDecompressors noGcrypt gzipOptions
        ⟨fun _ => 0, fun _ => 0⟩ blkinfo = .done (List.replicate 32 (some 0)) := by
  refine ⟨_, rfl, by decide, ?_⟩
  exact (decompressBlockGeneric_compressBlockGeneric ⟨false, false, false, false⟩
    (fun _ => zerosCompressors) zerosDecompressors (fun _ => zerosCompressors_inverted)
    noGcrypt_inverted (fun encrypted : gzipOptions.encryptalgo = encryptBlowfish =>
      absurd encrypted (by decide)) ⟨fun _ => 0, fun _ => 0⟩
    (show 0 < zerosBlock.blkrealsize.toNat by decide) (by decide) rfl).1

end FsArchiver
