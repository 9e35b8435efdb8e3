import FsArchiver.Const

/-!
# Compression and encryption of a piece of data

`comp_lzo.c`, `comp_gzip.c`, `comp_bzip2.c`, `comp_lzma.c`, `comp_lz4.c`, `comp_zstd.c` and
`crypto_blowfish`. What the libraries do is a parameter: `Compressors`, `Decompressors` and
`Gcrypt` hold one function for each call of a library. What a call writes is given by its bytes,
whose number is the size it reports.
-/
namespace FsArchiver

/-- `COMPRESS_*`. -/
inductive CompressAlgo where
  | none | lzo | gzip | bzip2 | lzma | lz4 | zstd
  deriving DecidableEq, Repr

namespace CompressAlgo

/-- The number of an algorithm in the archive and in the options. -/
def code : CompressAlgo → UInt16
  | .none => 1
  | .lzo => 2
  | .gzip => 3
  | .bzip2 => 4
  | .lzma => 5
  | .lz4 => 6
  | .zstd => 7

/-- All algorithms. -/
def valid : List CompressAlgo := [.none, .lzo, .gzip, .bzip2, .lzma, .lz4, .zstd]

/-- The algorithm with this number. -/
def ofCode (number : UInt16) : Option CompressAlgo := valid.find? fun algo => algo.code = number

@[simp] theorem ofCode_code (algo : CompressAlgo) : ofCode algo.code = some algo := by
  cases algo <;> rfl

end CompressAlgo

/-- `ENCRYPT_NONE`. -/
def encryptNone : UInt16 := 1

/-- `ENCRYPT_BLOWFISH`. -/
def encryptBlowfish : UInt16 := 2

/-- The algorithms a build of the program has besides gzip and bzip2. -/
structure Build where
  /-- `OPTION_LZO_SUPPORT`. -/
  lzo : Bool
  /-- `OPTION_LZMA_SUPPORT`. -/
  lzma : Bool
  /-- `OPTION_LZ4_SUPPORT`. -/
  lz4 : Bool
  /-- `OPTION_ZSTD_SUPPORT`. -/
  zstd : Bool

/-- `FSA_DEF_COMPRESS_ALGO`. -/
def Build.defCompressAlgo (build : Build) : CompressAlgo := if build.zstd then .zstd else .gzip

/-- `FSA_DEF_COMPRESS_LEVEL`. -/
def Build.defCompressLevel (build : Build) : Int := if build.zstd then 8 else 6

/-! ## The libraries -/

/-- The results of lzo, zlib and bzip2, as far as they are told apart. -/
inductive LibResult where
  /-- `LZO_E_OK`, `Z_OK`, `BZ_OK`. -/
  | ok
  /-- `LZO_E_OUT_OF_MEMORY`, `Z_MEM_ERROR`, `BZ_MEM_ERROR`. -/
  | memError
  | other
  deriving DecidableEq, Repr

/-- The results of liblzma, as far as they are told apart. -/
inductive LzmaRet where
  | ok | streamEnd | memError | memlimitError | other
  deriving DecidableEq, Repr

/-- What the three calls of an encoder of liblzma return, and what the encoder has written. -/
structure LzmaEncoding where
  /-- `lzma_easy_encoder`. -/
  easyEncoder : LzmaRet
  /-- `lzma_code` with `LZMA_RUN`. -/
  run : LzmaRet
  /-- `lzma_code` with `LZMA_FINISH`. -/
  finish : LzmaRet
  /-- `total_out` bytes. -/
  out : List UInt8

/-- The calls that compress: the data, then the size of the buffer, then the level. -/
structure Compressors where
  /-- `lzo1x_1_compress`. -/
  lzo1x1Compress : List UInt8 → LibResult × List UInt8
  /-- `compress2`. -/
  compress2 : List UInt8 → Nat → Int → LibResult × List UInt8
  /-- `BZ2_bzBuffToBuffCompress`, always with the block size 9. -/
  bzBuffToBuffCompress : List UInt8 → Nat → LibResult × List UInt8
  /-- The calls of liblzma. -/
  lzma : List UInt8 → Nat → Int → LzmaEncoding
  /-- `LZ4_compress_default`; nothing stands for a negative result. -/
  lz4CompressDefault : List UInt8 → Nat → Option (List UInt8)
  /-- `ZSTD_compress`; nothing stands for a result that `ZSTD_isError` accepts. -/
  zstdCompress : List UInt8 → Nat → Int → Option (List UInt8)

/-- The calls that decompress: the compressed data, then the size of the buffer. -/
structure Decompressors where
  /-- `lzo1x_decompress_safe`. -/
  lzo1xDecompressSafe : List UInt8 → Nat → LibResult × List UInt8
  /-- `uncompress`. -/
  uncompress : List UInt8 → Nat → LibResult × List UInt8
  /-- `BZ2_bzBuffToBuffDecompress`. -/
  bzBuffToBuffDecompress : List UInt8 → Nat → LibResult × List UInt8
  /-- `lzma_auto_decoder` succeeds. -/
  lzmaAutoDecoder : Bool
  /-- `lzma_code` with `LZMA_RUN` and this memory limit. -/
  lzmaCode : List UInt8 → Nat → Nat → LzmaRet × List UInt8
  /-- `LZ4_decompress_safe`; nothing stands for a negative result. -/
  lz4DecompressSafe : List UInt8 → Nat → Option (List UInt8)
  /-- `ZSTD_decompress`; nothing stands for a result that `ZSTD_isError` accepts. -/
  zstdDecompress : List UInt8 → Nat → Option (List UInt8)

/-- The calls of libgcrypt with the blowfish cipher in CFB mode. -/
structure Gcrypt where
  /-- `gcry_cipher_open` succeeds. -/
  cipherOpen : Bool
  /-- `gcry_cipher_setkey` accepts the key. -/
  cipherSetkey : List UInt8 → Bool
  /-- `gcry_cipher_setiv` accepts the initial vector. -/
  cipherSetiv : List UInt8 → Bool
  /-- `gcry_cipher_encrypt` with a key and an initial vector. -/
  cipherEncrypt : List UInt8 → List UInt8 → List UInt8 → Option (List UInt8)
  /-- `gcry_cipher_decrypt` with a key and an initial vector. -/
  cipherDecrypt : List UInt8 → List UInt8 → List UInt8 → Option (List UInt8)

/-! ## Compressing

Each function ends with `FSAERR_SUCCESS` and the compressed bytes or with one of the errors. -/

/-- The `switch` over the result of a compressor that tells when memory is short. -/
def LibResult.compressed : LibResult × List UInt8 → Except FsaErr (List UInt8)
  | (.ok, out) => .ok out
  | (.memError, _) => .error .enomem
  | (.other, _) => .error .unknown

/-- `compress_block_lzo`. -/
def compressBlockLzo (lib : Compressors) (origbuf : List UInt8) : Except FsaErr (List UInt8) :=
  LibResult.compressed (lib.lzo1x1Compress origbuf)

/-- `compress_block_gzip`. -/
def compressBlockGzip (lib : Compressors) (origbuf : List UInt8) (compbufsize : Nat)
    (level : Int) : Except FsaErr (List UInt8) :=
  LibResult.compressed (lib.compress2 origbuf compbufsize level)

/-- `compress_block_bzip2`: the level is not used. -/
def compressBlockBzip2 (lib : Compressors) (origbuf : List UInt8) (compbufsize : Nat) :
    Except FsaErr (List UInt8) :=
  LibResult.compressed (lib.bzBuffToBuffCompress origbuf compbufsize)

/-- `compress_block_lzma`. -/
def compressBlockLzma (lib : Compressors) (origbuf : List UInt8) (compbufsize : Nat)
    (level : Int) : Except FsaErr (List UInt8) :=
  let lzma := lib.lzma origbuf compbufsize level
  if lzma.easyEncoder ≠ .ok then
    .error (if lzma.easyEncoder = .memError then .enomem else .unknown)
  else if lzma.run ≠ .ok then .error .unknown
  -- An encoder that has only filled the buffer counts as a success too.
  else if lzma.finish ≠ .streamEnd ∧ lzma.finish ≠ .ok then .error .unknown
  else .ok lzma.out

/-- `compress_block_lz4`. -/
def compressBlockLz4 (lib : Compressors) (origbuf : List UInt8) (compbufsize : Nat) :
    Except FsaErr (List UInt8) :=
  match lib.lz4CompressDefault origbuf compbufsize with
  | none | some [] => .error .unknown
  | some out => .ok out

/-- `compress_block_zstd`. -/
def compressBlockZstd (lib : Compressors) (origbuf : List UInt8) (compbufsize : Nat)
    (level : Int) : Except FsaErr (List UInt8) :=
  match lib.zstdCompress origbuf compbufsize level with
  | none => .error .unknown
  | some out => .ok out

/-! ## Decompressing -/

/-- `uncompress_block_lzo`. -/
def uncompressBlockLzo (lib : Decompressors) (compbuf : List UInt8) (origbufsize : Nat) :
    Except FsaErr (List UInt8) :=
  LibResult.compressed (lib.lzo1xDecompressSafe compbuf origbufsize)

/-- `uncompress_block_gzip`. -/
def uncompressBlockGzip (lib : Decompressors) (compbuf : List UInt8) (origbufsize : Nat) :
    Except FsaErr (List UInt8) :=
  LibResult.compressed (lib.uncompress compbuf origbufsize)

/-- `uncompress_block_bzip2`. -/
def uncompressBlockBzip2 (lib : Decompressors) (compbuf : List UInt8) (origbufsize : Nat) :
    Except FsaErr (List UInt8) :=
  match lib.bzBuffToBuffDecompress compbuf origbufsize with
  | (.ok, out) => .ok out
  | (_, _) => .error .unknown

/-- `memlimit` at the start of `uncompress_block_lzma`. -/
def lzmaMemlimit : Nat := 96 * 1024 * 1024

/-- How much the limit is raised by. -/
def lzmaMemlimitStep : Nat := 64 * 1024 * 1024

/-- `maxmemlimit`. -/
def lzmaMaxmemlimit : Nat := 3 * 1024 * 1024 * 1024

/-- The loop of `uncompress_block_lzma` from a memory limit on, and the `switch` behind it. -/
def lzmaCodeLoop (code : Nat → LzmaRet × List UInt8) (memlimit : Nat) :
    Except FsaErr (List UInt8) :=
  match code memlimit with
  | (.streamEnd, out) => .ok out
  | (.memlimitError, _) =>
    if memlimit + lzmaMemlimitStep < lzmaMaxmemlimit then
      lzmaCodeLoop code (memlimit + lzmaMemlimitStep)
    else .error .enomem
  | (_, _) => .error .unknown
termination_by lzmaMaxmemlimit - memlimit
decreasing_by simp only [lzmaMemlimitStep, lzmaMaxmemlimit] at *; omega

/-- `uncompress_block_lzma`. -/
def uncompressBlockLzma (lib : Decompressors) (compbuf : List UInt8) (origbufsize : Nat) :
    Except FsaErr (List UInt8) :=
  if lib.lzmaAutoDecoder then lzmaCodeLoop (lib.lzmaCode compbuf origbufsize) lzmaMemlimit
  else .error .unknown

/-- `uncompress_block_lz4`: an empty result is an error. -/
def uncompressBlockLz4 (lib : Decompressors) (compbuf : List UInt8) (origbufsize : Nat) :
    Except FsaErr (List UInt8) :=
  match lib.lz4DecompressSafe compbuf origbufsize with
  | none | some [] => .error .unknown
  | some out => .ok out

/-- `uncompress_block_zstd`. -/
def uncompressBlockZstd (lib : Decompressors) (compbuf : List UInt8) (origbufsize : Nat) :
    Except FsaErr (List UInt8) :=
  match lib.zstdDecompress compbuf origbufsize with
  | none => .error .unknown
  | some out => .ok out

/-! ## Encryption -/

/-- The initial vector of `crypto_blowfish`: the characters `fsarchiv`. -/
def blowfishIv : List UInt8 := [0x66, 0x73, 0x61, 0x72, 0x63, 0x68, 0x69, 0x76]

/-- `crypto_blowfish`: the size it reports and the bytes it writes. -/
def cryptoBlowfish (lib : Gcrypt) (inbuf password : List UInt8) (enc : Nat) :
    Option (Nat × List UInt8) :=
  if password.length = 0 then none
  else if lib.cipherOpen = false then none
  else if lib.cipherSetkey password = false then none
  else if lib.cipherSetiv blowfishIv = false then none
  else
    match enc with
    | 1 => (lib.cipherEncrypt password blowfishIv inbuf).map fun out => (inbuf.length, out)
    | 0 => (lib.cipherDecrypt password blowfishIv inbuf).map fun out => (inbuf.length, out)
    | _ => none

/-! ## What the libraries promise -/

/-- Each decompressor gives back what was compressed, in a buffer of its size. -/
structure Compressors.InvertedBy (compress : Compressors) (lib : Decompressors) : Prop where
  lzo : ∀ {data out}, compress.lzo1x1Compress data = (.ok, out) →
    lib.lzo1xDecompressSafe out data.length = (.ok, data)
  gzip : ∀ {data size level out}, compress.compress2 data size level = (.ok, out) →
    lib.uncompress out data.length = (.ok, data)
  bzip2 : ∀ {data size out}, compress.bzBuffToBuffCompress data size = (.ok, out) →
    lib.bzBuffToBuffDecompress out data.length = (.ok, data)
  /-- Decoding needs a limit below the last one that is tried. -/
  lzma : ∀ {data size level}, (compress.lzma data size level).easyEncoder = .ok →
    (compress.lzma data size level).run = .ok →
    (compress.lzma data size level).finish = .streamEnd →
    lib.lzmaAutoDecoder = true ∧ ∃ need ≤ lzmaMaxmemlimit - lzmaMemlimitStep, ∀ memlimit,
      (memlimit < need →
        (lib.lzmaCode (compress.lzma data size level).out data.length memlimit).1 =
          .memlimitError) ∧
      (need ≤ memlimit →
        lib.lzmaCode (compress.lzma data size level).out data.length memlimit =
          (.streamEnd, data))
  /-- An encoder that is told to finish and returns `LZMA_OK` has filled the buffer. -/
  lzmaFilled : ∀ {data size level}, (compress.lzma data size level).finish = .ok →
    size ≤ (compress.lzma data size level).out.length
  /-- A call that wrote nothing has failed. -/
  lz4 : ∀ {data size out}, compress.lz4CompressDefault data size = some out → out ≠ [] →
    lib.lz4DecompressSafe out data.length = some data
  zstd : ∀ {data size level out}, compress.zstdCompress data size level = some out →
    lib.zstdDecompress out data.length = some data

/-- No decompressor writes more than the buffer holds. -/
structure Decompressors.HonourSize (lib : Decompressors) : Prop where
  lzo : ∀ {data size out}, lib.lzo1xDecompressSafe data size = (.ok, out) → out.length ≤ size
  gzip : ∀ {data size out}, lib.uncompress data size = (.ok, out) → out.length ≤ size
  bzip2 : ∀ {data size out}, lib.bzBuffToBuffDecompress data size = (.ok, out) →
    out.length ≤ size
  lzma : ∀ {data size memlimit out}, lib.lzmaCode data size memlimit = (.streamEnd, out) →
    out.length ≤ size
  lz4 : ∀ {data size out}, lib.lz4DecompressSafe data size = some out → out.length ≤ size
  zstd : ∀ {data size out}, lib.zstdDecompress data size = some out → out.length ≤ size

/-- The cipher on the restoring side takes the keys the one on the saving side took, keeps the
number of bytes, and undoes the encryption. -/
structure Gcrypt.InvertedBy (save restore : Gcrypt) : Prop where
  opens : save.cipherOpen = true → restore.cipherOpen = true
  setkey : ∀ {key}, save.cipherSetkey key = true → restore.cipherSetkey key = true
  setiv : ∀ {iv}, save.cipherSetiv iv = true → restore.cipherSetiv iv = true
  size : ∀ {key iv data out}, save.cipherEncrypt key iv data = some out →
    out.length = data.length
  decrypt : ∀ {key iv data out}, save.cipherEncrypt key iv data = some out →
    restore.cipherDecrypt key iv out = some data

/-! ## What the functions make of these promises -/

variable {compress : Compressors} {lib : Decompressors} {data out : List UInt8}

/-- The common `switch` succeeds where the library does. -/
theorem LibResult.compressed_eq {produced : LibResult × List UInt8}
    (succeeds : LibResult.compressed produced = .ok out) : produced = (.ok, out) := by
  obtain ⟨result, bytes⟩ := produced
  cases result with
  | ok =>
    simp only [LibResult.compressed, Except.ok.injEq] at succeeds
    rw [succeeds]
  | memError => simp [LibResult.compressed] at succeeds
  | other => simp [LibResult.compressed] at succeeds

/-- The limit is raised until it is enough. -/
theorem lzmaCodeLoop_eq {code : Nat → LzmaRet × List UInt8} {need memlimit : Nat}
    (possible : need ≤ lzmaMaxmemlimit - lzmaMemlimitStep)
    (short : ∀ memlimit < need, (code memlimit).1 = .memlimitError)
    (enough : ∀ memlimit, need ≤ memlimit → code memlimit = (.streamEnd, out)) :
    lzmaCodeLoop code memlimit = .ok out := by
  induction memlimit using lzmaCodeLoop.induct code with
  | case1 memlimit out' coded =>
    by_cases below : memlimit < need
    · have limited := short memlimit below
      simp [coded] at limited
    · have decoded := enough memlimit (by omega)
      rw [lzmaCodeLoop, decoded]
  | case2 memlimit out' coded more ih =>
    rw [lzmaCodeLoop, coded]
    simpa only [if_pos more] using ih
  | case3 memlimit out' coded last =>
    have limited : memlimit < need := by
      apply Nat.lt_of_not_le
      intro above
      have decoded := enough memlimit above
      simp [coded] at decoded
    simp only [lzmaMemlimitStep, lzmaMaxmemlimit] at *
    omega
  | case4 memlimit ret out' notEnd notLimit coded =>
    by_cases below : memlimit < need
    · have limited := short memlimit below
      rw [coded] at limited
      exact absurd limited notLimit
    · have decoded := enough memlimit (by omega)
      rw [coded, Prod.mk.injEq] at decoded
      exact absurd decoded.1 notEnd

/-- A stream that was decoded is what the last call wrote. -/
theorem lzmaCodeLoop_streamEnd {code : Nat → LzmaRet × List UInt8} {memlimit : Nat}
    (succeeds : lzmaCodeLoop code memlimit = .ok out) :
    ∃ memlimit, code memlimit = (.streamEnd, out) := by
  induction memlimit using lzmaCodeLoop.induct code with
  | case1 memlimit out' coded =>
    rw [lzmaCodeLoop, coded] at succeeds
    simp only [Except.ok.injEq] at succeeds
    exact ⟨memlimit, succeeds ▸ coded⟩
  | case2 memlimit out' coded more ih =>
    rw [lzmaCodeLoop, coded] at succeeds
    simp only [if_pos more] at succeeds
    exact ih succeeds
  | case3 memlimit out' coded last =>
    rw [lzmaCodeLoop, coded] at succeeds
    simp [if_neg last] at succeeds
  | case4 memlimit ret out' notEnd notLimit coded =>
    rw [lzmaCodeLoop, coded] at succeeds
    simp at succeeds

/-- An encoder of liblzma that did not fill the buffer has ended its stream. -/
theorem compressBlockLzma_streamEnd {size : Nat} {level : Int}
    (inverted : compress.InvertedBy lib) (room : out.length < size)
    (succeeds : compressBlockLzma compress data size level = .ok out) :
    (compress.lzma data size level).easyEncoder = .ok ∧
      (compress.lzma data size level).run = .ok ∧
      (compress.lzma data size level).finish = .streamEnd ∧
      (compress.lzma data size level).out = out := by
  simp only [compressBlockLzma] at succeeds
  split at succeeds
  · exact absurd succeeds (by simp)
  next encoder =>
  split at succeeds
  · exact absurd succeeds (by simp)
  next run =>
  split at succeeds
  · exact absurd succeeds (by simp)
  next finish =>
  simp only [Except.ok.injEq] at succeeds
  simp only [ne_eq, Decidable.not_not] at encoder run
  refine ⟨encoder, run, ?_, succeeds⟩
  apply Decidable.byContradiction
  intro filled
  have full : (compress.lzma data size level).finish = .ok := by
    apply Decidable.byContradiction
    intro failed
    exact finish ⟨filled, failed⟩
  have long := inverted.lzmaFilled full
  rw [succeeds] at long
  omega

/-- What fits into less than the buffer is decompressed again, by each algorithm. -/
theorem uncompressBlockLzo_eq (inverted : compress.InvertedBy lib)
    (succeeds : compressBlockLzo compress data = .ok out) :
    uncompressBlockLzo lib out data.length = .ok data := by
  have produced := LibResult.compressed_eq succeeds
  rw [uncompressBlockLzo, inverted.lzo produced, LibResult.compressed]

theorem uncompressBlockGzip_eq (inverted : compress.InvertedBy lib) {size : Nat} {level : Int}
    (succeeds : compressBlockGzip compress data size level = .ok out) :
    uncompressBlockGzip lib out data.length = .ok data := by
  have produced := LibResult.compressed_eq succeeds
  rw [uncompressBlockGzip, inverted.gzip produced, LibResult.compressed]

theorem uncompressBlockBzip2_eq (inverted : compress.InvertedBy lib) {size : Nat}
    (succeeds : compressBlockBzip2 compress data size = .ok out) :
    uncompressBlockBzip2 lib out data.length = .ok data := by
  have produced := LibResult.compressed_eq succeeds
  rw [uncompressBlockBzip2, inverted.bzip2 produced]

theorem uncompressBlockLzma_eq (inverted : compress.InvertedBy lib) {size : Nat} {level : Int}
    (room : out.length < size)
    (succeeds : compressBlockLzma compress data size level = .ok out) :
    uncompressBlockLzma lib out data.length = .ok data := by
  obtain ⟨encoder, run, finish, rfl⟩ := compressBlockLzma_streamEnd inverted room succeeds
  obtain ⟨decoder, need, possible, limits⟩ := inverted.lzma encoder run finish
  rw [uncompressBlockLzma, if_pos decoder]
  apply lzmaCodeLoop_eq possible
  · intro memlimit below
    exact (limits memlimit).1 below
  · intro memlimit above
    exact (limits memlimit).2 above

theorem uncompressBlockLz4_eq (inverted : compress.InvertedBy lib) {size : Nat}
    (nonempty : data ≠ []) (succeeds : compressBlockLz4 compress data size = .ok out) :
    uncompressBlockLz4 lib out data.length = .ok data := by
  unfold compressBlockLz4 at succeeds
  split at succeeds
  · exact absurd succeeds (by simp)
  · exact absurd succeeds (by simp)
  next written produced =>
    simp only [Except.ok.injEq] at succeeds
    subst succeeds
    rw [uncompressBlockLz4, inverted.lz4 produced written]
    cases data with
    | nil => exact absurd rfl nonempty
    | cons byte rest => rfl

theorem uncompressBlockZstd_eq (inverted : compress.InvertedBy lib) {size : Nat} {level : Int}
    (succeeds : compressBlockZstd compress data size level = .ok out) :
    uncompressBlockZstd lib out data.length = .ok data := by
  unfold compressBlockZstd at succeeds
  split at succeeds
  · exact absurd succeeds (by simp)
  next produced =>
    simp only [Except.ok.injEq] at succeeds
    subst succeeds
    rw [uncompressBlockZstd, inverted.zstd produced]

/-- What was encrypted has its size and is decrypted again. -/
theorem cryptoBlowfish_inverted {save restore : Gcrypt} (cipher : save.InvertedBy restore)
    {inbuf password : List UInt8} {size : Nat}
    (succeeds : cryptoBlowfish save inbuf password 1 = some (size, out)) :
    size = inbuf.length ∧ out.length = inbuf.length ∧
      cryptoBlowfish restore out password 0 = some (inbuf.length, inbuf) := by
  unfold cryptoBlowfish at succeeds
  split at succeeds
  · exact absurd succeeds (by simp)
  next keyed =>
  split at succeeds
  · exact absurd succeeds (by simp)
  next opened =>
  split at succeeds
  · exact absurd succeeds (by simp)
  next accepted =>
  split at succeeds
  · exact absurd succeeds (by simp)
  next started =>
  simp only [Option.map_eq_some_iff, Prod.mk.injEq] at succeeds
  obtain ⟨out', encrypted, rfl, rfl⟩ := succeeds
  rw [Bool.not_eq_false] at opened accepted started
  have count := cipher.size encrypted
  refine ⟨rfl, count, ?_⟩
  simp only [cryptoBlowfish, if_neg keyed, cipher.opens opened, cipher.setkey accepted,
    cipher.setiv started, Bool.true_eq_false, if_false, cipher.decrypt encrypted, Option.map_some,
    count]

end FsArchiver
