import FsArchiver.CommandLine
import FsArchiver.Mkfs
import FsArchiver.OperRestore
import FsArchiver.Splitting
import FsArchiver.ThreadComp

/-!
# The main header

`createar_write_mainhead` and `extractar_read_mainhead`. What the first puts into the header of an
archive the second takes out of it again. If the archive is encrypted the header has a random
buffer, encrypted, and the digest of the buffer in clear: a password is taken for the right one if
the buffer that it decrypts has that digest.
-/
namespace FsArchiver

open Lib

/-! ## Constants -/

namespace MainKey

/-- `MAINHEADKEY_FILEFORMATVER`. -/
def fileformatver : UInt16 := 1
/-- `MAINHEADKEY_PROGVERCREAT`. -/
def progvercreat : UInt16 := 2
/-- `MAINHEADKEY_CREATTIME`. -/
def creattime : UInt16 := 4
/-- `MAINHEADKEY_ARCHLABEL`. -/
def archlabel : UInt16 := 5
/-- `MAINHEADKEY_ARCHTYPE`. -/
def archtype : UInt16 := 6
/-- `MAINHEADKEY_FSCOUNT`. -/
def fscount : UInt16 := 7
/-- `MAINHEADKEY_COMPRESSALGO`. -/
def compressalgo : UInt16 := 8
/-- `MAINHEADKEY_COMPRESSLEVEL`. -/
def compresslevel : UInt16 := 9
/-- `MAINHEADKEY_ENCRYPTALGO`. -/
def encryptalgo : UInt16 := 10
/-- `MAINHEADKEY_BUFCHECKPASSCLEARMD5`. -/
def bufcheckpassclearmd5 : UInt16 := 11
/-- `MAINHEADKEY_BUFCHECKPASSCRYPTBUF`. -/
def bufcheckpasscryptbuf : UInt16 := 12
/-- `MAINHEADKEY_FSACOMPLEVEL`. -/
def fsacomplevel : UInt16 := 13
/-- `MAINHEADKEY_MINFSAVERSION`. -/
def minfsaversion : UInt16 := 14
/-- `MAINHEADKEY_HASDIRSINFOHEAD`. -/
def hasdirsinfohead : UInt16 := 15

end MainKey

/-- The number of an archive type. -/
def ArchType.code : ArchType → UInt32
  | .filesystems => 1
  | .directories => 2

/-- `FSA_MAX_LABELLEN`. -/
def maxLabelLen : Nat := 512

/-- `FSA_MIN_PASSLEN`. -/
def minPasslen : Nat := 6

/-- `FSA_MAX_PASSLEN`. -/
def maxPasslen : Nat := 64

/-- `FSA_CHECKPASSBUF_SIZE`. -/
def checkpassbufSize : Nat := 4096

/-! ## Writing -/

/-- What goes from the options into the main header. -/
structure MainOptions extends Options where
  /-- The characters of `archlabel`. -/
  archlabel : List UInt8
  /-- `fsacomplevel`. -/
  fsacomplevel : UInt16

/-- What `crypto_random` fills `bufcheckclear` with. -/
structure CheckBuffer where
  bytes : List UInt8
  size : bytes.length = checkpassbufSize

/-- `bufcheckcrypt`, which is not set when the encryption fails. -/
def bufcheckcrypt (gcrypt : Gcrypt) (mem : Mem) (password : List UInt8) (random : CheckBuffer) :
    List UInt8 :=
  localBuffer mem (checkpassbufSize + 8)
    ((cryptoBlowfish gcrypt random.bytes password 1).elim [] Prod.snd)

/-- The items that let the password be checked. -/
def checkpassCalls (gcrypt : Gcrypt) (md5 : Md5) (mem : Mem) (options : MainOptions)
    (random : CheckBuffer) : List DicoCall :=
  if options.encryptalgo ≠ encryptNone then
    [dicoAddData 0 MainKey.bufcheckpassclearmd5 (md5.digest random.bytes),
      dicoAddData 0 MainKey.bufcheckpasscryptbuf
        ((bufcheckcrypt gcrypt mem options.encryptpass random).take checkpassbufSize)]
  else []

/-- The items of the main header. -/
def mainheadCalls (options : MainOptions) (archid : UInt32) (archtype : ArchType) (fscount : Nat)
    (now : UInt64) : List DicoCall :=
  [dicoAddString 0 MainKey.fileformatver fileFormat, dicoAddString 0 MainKey.progvercreat version,
    dicoAddString 0 MainKey.archlabel options.archlabel, dicoAddU64 0 MainKey.creattime now,
    dicoAddU32 0 mainArchiveid archid, dicoAddU32 0 MainKey.archtype archtype.code,
    dicoAddU32 0 MainKey.compressalgo options.compressalgo.toUInt32,
    dicoAddU32 0 MainKey.compresslevel (UInt32.ofInt options.compresslevel),
    dicoAddU32 0 MainKey.encryptalgo options.encryptalgo.toUInt32,
    dicoAddU32 0 MainKey.fsacomplevel options.fsacomplevel.toUInt32,
    dicoAddU32 0 MainKey.hasdirsinfohead 1,
    dicoAddU64 0 MainKey.minfsaversion (fsaVersionBuild 0 6 4 0)] ++
  match archtype with
  | .filesystems => [dicoAddU64 0 MainKey.fscount (UInt64.ofNat fscount)]
  | .directories => []

/-- `createar_write_mainhead`: the header that it puts on the queue. -/
def createarWriteMainhead (gcrypt : Gcrypt) (md5 : Md5) (mem : Mem) (options : MainOptions)
    (archid : UInt32) (archtype : ArchType) (fscount : Nat) (now : UInt64) (random : CheckBuffer) :
    HeadInfo where
  magic := .main
  fsid := filesysidNull
  dico := dicoAddAll Dico.alloc (mainheadCalls options archid archtype fscount now ++
    checkpassCalls gcrypt md5 mem options random)

/-! ## Reading -/

/-- The fields of `s_archreader` that the main header is for. -/
structure ArchInfo where
  archtype : UInt32
  fscount : UInt64
  archid : UInt32
  /-- `filefmt[FSA_MAX_FILEFMTLEN]`. -/
  filefmt : List UInt8
  /-- `creatver[FSA_MAX_PROGVERLEN]`. -/
  creatver : List UInt8
  /-- `label[FSA_MAX_LABELLEN]`. -/
  label : List UInt8
  compalgo : UInt32
  cryptalgo : UInt32
  complevel : UInt32
  fsacomp : UInt32
  creattime : UInt64
  hasdirsinfohead : UInt32
  minfsaver : UInt64

/-- `archreader_init`. -/
def ArchInfo.init : ArchInfo :=
  { archtype := 0, fscount := 0, archid := 0, filefmt := List.replicate maxFileFmtLen 0
    creatver := List.replicate maxProgVerLen 0, label := List.replicate maxLabelLen 0
    compalgo := 0, cryptalgo := 0, complevel := 0xFFFFFFFF, fsacomp := 0xFFFFFFFF, creattime := 0
    hasdirsinfohead := 0, minfsaver := 0 }

/-- Data copied to the start of an array. -/
def storeFront (array data : List UInt8) : List UInt8 := data ++ array.drop data.length

/-- Why `extractar_read_mainhead` fails. -/
inductive MainheadError where
  /-- No header on the queue. -/
  | noHeader
  /-- The header is another one. -/
  | notMain
  /-- An item is not found. -/
  | missing (key : UInt16)
  /-- The archive is based on a different file format. -/
  | fileformat
  /-- No password was given. -/
  | noPassword
  /-- The test buffer cannot be decrypted. -/
  | wrongPassword
  /-- A digest of more than 16 bytes was copied past the end of `md5sumar`. -/
  | overrun
  deriving DecidableEq

/-- An item that has to be there. -/
def need {α : Type} (key : UInt16) : Option α → Except MainheadError α
  | none => .error (.missing key)
  | some value => .ok value

@[simp] theorem need_some {α : Type} (key : UInt16) (value : α) : need key (some value) = .ok value := rfl

/-- `md5sumnew`: the digest of the test buffer as the password decrypts it. -/
def md5sumnew (gcrypt : Gcrypt) (md5 : Md5) (mem : Mem) (crypted password : List UInt8) :
    List UInt8 :=
  match cryptoBlowfish gcrypt crypted password 0 with
  | some (clearsize, bufcheckclear) =>
    md5.digest ((localBuffer mem (checkpassbufSize + 8) bufcheckclear).take clearsize)
  | none => List.replicate 16 0

/-- The check of the password in `extractar_read_mainhead`. -/
def checkPassword (gcrypt : Gcrypt) (md5 : Md5) (mem : Mem) (password : List UInt8) (d : Dico) :
    Except MainheadError Unit := do
  let crypted ← need MainKey.bufcheckpasscryptbuf
    (dicoGetData d 0 MainKey.bufcheckpasscryptbuf (checkpassbufSize + 8))
  let md5sumar ← need MainKey.bufcheckpassclearmd5
    (dicoGetData d 0 MainKey.bufcheckpassclearmd5 (16 + 99))
  if md5sumar.length > 16 then .error .overrun
  else if password.length < minPasslen ∨ password.length > maxPasslen then .error .noPassword
  else if storeFront (List.replicate 16 0) md5sumar ≠ md5sumnew gcrypt md5 mem crypted password then
    .error .wrongPassword
  else .ok ()

/-- `MAINHEADKEY_FSCOUNT`, which only an archive of filesystems has. -/
def readFscount (mem : Mem) (ai : ArchInfo) (d : Dico) (archtype : UInt32) :
    Except MainheadError UInt64 :=
  if archtype = ArchType.filesystems.code then
    need MainKey.fscount (dicoGetU64 mem d 0 MainKey.fscount)
  else .ok ai.fscount

/-- The items that `extractar_read_mainhead` looks up, up to the check of the format. -/
def readMainItems (mem : Mem) (ai : ArchInfo) (d : Dico) : Except MainheadError ArchInfo := do
  let archtype ← need MainKey.archtype (dicoGetU32 mem d 0 MainKey.archtype)
  let fscount ← readFscount mem ai d archtype
  let archid ← need mainArchiveid (dicoGetU32 mem d 0 mainArchiveid)
  let filefmt ← need MainKey.fileformatver (dicoGetData d 0 MainKey.fileformatver maxFileFmtLen)
  let creatver ← need MainKey.progvercreat (dicoGetData d 0 MainKey.progvercreat maxProgVerLen)
  let label ← need MainKey.archlabel (dicoGetData d 0 MainKey.archlabel maxLabelLen)
  let compalgo ← need MainKey.compressalgo (dicoGetU32 mem d 0 MainKey.compressalgo)
  let cryptalgo ← need MainKey.encryptalgo (dicoGetU32 mem d 0 MainKey.encryptalgo)
  let complevel ← need MainKey.compresslevel (dicoGetU32 mem d 0 MainKey.compresslevel)
  let fsacomp ← need MainKey.fsacomplevel (dicoGetU32 mem d 0 MainKey.fsacomplevel)
  let creattime ← need MainKey.creattime (dicoGetU64 mem d 0 MainKey.creattime)
  .ok
    { archtype, fscount, archid, compalgo, cryptalgo, complevel, fsacomp, creattime
      filefmt := storeFront ai.filefmt filefmt
      creatver := storeFront ai.creatver creatver
      label := storeFront ai.label label
      hasdirsinfohead := (dicoGetU32 mem d 0 MainKey.hasdirsinfohead).getD ai.hasdirsinfohead
      minfsaver := (dicoGetU64 mem d 0 MainKey.minfsaversion).getD (fsaVersionBuild 0 0 0 0) }

/-- `extractar_read_mainhead`, with what the main thread has of the archive before it. -/
def extractarReadMainhead (gcrypt : Gcrypt) (md5 : Md5) (mem : Mem) (password : List UInt8)
    (ai : ArchInfo) (queue : List QueueData) :
    Except MainheadError (ArchInfo × Dico × List QueueData) := do
  match dequeueHeader queue with
  | .error _ => .error .noHeader
  | .ok (head, queue) =>
    if head.magic ≠ .main then .error .notMain
    else
      let ai ← readMainItems mem ai head.dico
      if cString ai.filefmt ∉ [fileFormat, fileFormatY, fileFormat1] then .error .fileformat
      else if ai.cryptalgo ≠ encryptNone.toUInt32 then
        checkPassword gcrypt md5 mem password head.dico
        .ok (ai, head.dico, queue)
      else .ok (ai, head.dico, queue)

/-! ## Reading what was written -/

section RoundTrip

variable {gcrypt restore : Gcrypt} {md5 : Md5} {mem : Mem} {options : MainOptions}
  {archid : UInt32} {archtype : ArchType} {fscount : Nat} {now : UInt64} {random : CheckBuffer}

/-- The pairs of the items of a main header are its own. -/
theorem names_mainhead :
    ((mainheadCalls options archid archtype fscount now ++
      checkpassCalls gcrypt md5 mem options random).map fun call => (call.sect, call.key)).Nodup := by
  have keys (more : List UInt16) (kinds : more ∈ [[], [7], [11, 12], [7, 11, 12]]) :
      (([1, 2, 5, 4, 3, 6, 8, 9, 10, 13, 15, 14] ++ more).map (Prod.mk (0 : UInt8))).Nodup := by
    revert more
    decide
  unfold mainheadCalls checkpassCalls
  by_cases encrypts : options.encryptalgo ≠ encryptNone
  · rw [if_pos encrypts]
    cases archtype with
    | filesystems => exact keys [7, 11, 12] (by decide)
    | directories => exact keys [11, 12] (by decide)
  · rw [if_neg encrypts]
    cases archtype with
    | filesystems => exact keys [7] (by decide)
    | directories => exact keys [] (by decide)

/-- The main header has all its items. -/
theorem items_mainhead :
    (createarWriteMainhead gcrypt md5 mem options archid archtype fscount now random).dico.items =
      (mainheadCalls options archid archtype fscount now ++
        checkpassCalls gcrypt md5 mem options random).map DicoCall.item := by
  have names := @names_mainhead gcrypt md5 mem options archid archtype fscount now random
  refine items_dicoAddAll ?_
  rw [Dico.alloc, List.nil_append, List.map_map]
  exact names

/-- The bytes of the items of calls. -/
theorem length_flatMap_encode (calls : List DicoCall) :
    ((calls.map DicoCall.item).flatMap DicoItem.encode).length =
      (calls.map fun call => 6 + (sizedData call.data).length).sum := by
  induction calls with
  | nil => rfl
  | cons call calls ih =>
    rw [List.map_cons, List.flatMap_cons, List.length_append, ih, length_encodeItem]
    rfl

/-- A main header has less than five kibibytes. -/
theorem length_mainhead (fits : options.archlabel.length < maxLabelLen) :
    (createarWriteMainhead gcrypt md5 mem options archid archtype fscount now
      random).dico.encode.length < 5120 := by
  have label : (sizedData (options.archlabel ++ [0])).length ≤ 512 := by
    simp only [maxLabelLen] at fits
    rw [length_sizedData, List.length_append, List.length_singleton]
    have less := Nat.mod_le (options.archlabel.length + 1) 65536
    omega
  have checks : ((checkpassCalls gcrypt md5 mem options random).map fun call =>
      6 + (sizedData call.data).length).sum ≤ 4124 := by
    unfold checkpassCalls
    by_cases encrypts : options.encryptalgo ≠ encryptNone
    · have digest := md5.length_digest random.bytes
      have crypted : ((bufcheckcrypt gcrypt mem options.encryptpass random).take
          checkpassbufSize).length ≤ 4096 := List.length_take_le _ _
      rw [if_pos encrypts]
      simp only [List.map_cons, List.map_nil, List.sum_cons, List.sum_nil, dicoAddData,
        length_sizedData, digest]
      omega
    · rw [if_neg encrypts]
      exact Nat.zero_le _
  have format : (fileFormat ++ [0]).length = 11 ∧ (version ++ [0]).length = 11 := by decide
  have main : ((mainheadCalls options archid archtype fscount now).map fun call =>
      6 + (sizedData call.data).length).sum ≤ 700 := by
    cases archtype <;>
      simp only [mainheadCalls, List.cons_append, List.nil_append, List.map_cons, List.map_nil,
        List.sum_cons, List.sum_nil, dicoAddString, dicoAddU32, dicoAddU64, length_sizedData,
        length_leBytes, format] at label ⊢ <;>
      omega
  rw [Dico.encode, items_mainhead, List.length_append, length_leBytes, length_flatMap_encode,
    List.map_append, List.sum_append]
  omega

/-- The main header carries the id of the archive. -/
theorem isMain_mainhead (fits : options.archlabel.length < maxLabelLen) :
    (createarWriteMainhead gcrypt md5 mem options archid archtype fscount now
      random).IsMain archid where
  magic := rfl
  fits := by
    have length := @length_mainhead gcrypt md5 mem options archid archtype fscount now random fits
    refine ⟨?_, by omega⟩
    rw [items_mainhead, List.length_map, List.length_append]
    have checks : (checkpassCalls gcrypt md5 mem options random).length ≤ 2 := by
      unfold checkpassCalls
      split
      · exact Nat.le_refl 2
      · exact Nat.zero_le 2
    have main : (mainheadCalls options archid archtype fscount now).length ≤ 13 := by
      cases archtype with
      | filesystems => exact Nat.le_refl 13
      | directories => exact Nat.le_succ 12
    omega
  id := by
    refine ⟨(dicoAddU32 0 mainArchiveid archid).item, ?_, rfl, rfl,
      show sizedData (leBytes 4 archid.toNat) = _ from sizedData_of_lt (by simp)⟩
    rw [items_mainhead]
    exact List.mem_map_of_mem (List.mem_append_left _ (by simp [mainheadCalls]))

/-- What the main thread knows of an archive behind its main header. -/
def mainInfo (options : MainOptions) (archid : UInt32) (archtype : ArchType) (fscount : Nat)
    (now : UInt64) (ai : ArchInfo) : ArchInfo where
  archtype := archtype.code
  fscount := match archtype with
    | .filesystems => UInt64.ofNat fscount
    | .directories => ai.fscount
  archid := archid
  filefmt := storeFront ai.filefmt (fileFormat ++ [0])
  creatver := storeFront ai.creatver (version ++ [0])
  label := storeFront ai.label (options.archlabel ++ [0])
  compalgo := options.compressalgo.toUInt32
  cryptalgo := options.encryptalgo.toUInt32
  complevel := UInt32.ofInt options.compresslevel
  fsacomp := options.fsacomplevel.toUInt32
  creattime := now
  hasdirsinfohead := 1
  minfsaver := fsaVersionBuild 0 6 4 0

/-- The items of a main header are found. -/
theorem readMainItems_written (mem' : Mem) (ai : ArchInfo)
    (fits : options.archlabel.length < maxLabelLen) :
    readMainItems mem' ai
        (createarWriteMainhead gcrypt md5 mem options archid archtype fscount now random).dico =
      .ok (mainInfo options archid archtype fscount now ai) := by
  have items := @items_mainhead gcrypt md5 mem options archid archtype fscount now random
  generalize (createarWriteMainhead gcrypt md5 mem options archid archtype fscount now
    random).dico = d at items ⊢
  have word {key : UInt16} {value : UInt32} (member : dicoAddU32 0 key value ∈
      mainheadCalls options archid archtype fscount now) : dicoGetU32 mem' d 0 key = some value :=
    dicoGetU32_of_call items (List.mem_append_left _ member)
  have long {key : UInt16} {value : UInt64} (member : dicoAddU64 0 key value ∈
      mainheadCalls options archid archtype fscount now) : dicoGetU64 mem' d 0 key = some value :=
    dicoGetU64_of_call items (List.mem_append_left _ member)
  have text {key : UInt16} {chars : List UInt8} {maxsize : Nat} (member : dicoAddString 0 key chars ∈
      mainheadCalls options archid archtype fscount now) (room : chars.length < maxsize)
      (small : maxsize < 65536) : dicoGetData d 0 key maxsize = some (chars ++ [0]) := by
    have length : (chars ++ [0]).length = chars.length + 1 := by simp
    exact dicoGetData_of_call (dicoAddString 0 key chars) items (List.mem_append_left _ member)
      (by rw [dicoAddString, length]; omega) (by omega) (by rw [dicoAddString, length]; omega)
  have count : readFscount mem' ai d archtype.code =
      .ok (mainInfo options archid archtype fscount now ai).fscount := by
    cases archtype with
    | directories => rfl
    | filesystems =>
      have stored : dicoGetU64 mem' d 0 MainKey.fscount = some (UInt64.ofNat fscount) :=
        long (by simp [mainheadCalls])
      rw [readFscount, if_pos rfl, stored]
      rfl
  have type : dicoGetU32 mem' d 0 MainKey.archtype = some archtype.code :=
    word (by simp [mainheadCalls])
  have id : dicoGetU32 mem' d 0 mainArchiveid = some archid := word (by simp [mainheadCalls])
  have format : dicoGetData d 0 MainKey.fileformatver maxFileFmtLen = some (fileFormat ++ [0]) :=
    text (by simp [mainheadCalls]) (by decide) (by decide)
  have creator : dicoGetData d 0 MainKey.progvercreat maxProgVerLen = some (version ++ [0]) :=
    text (by simp [mainheadCalls]) (by decide) (by decide)
  have label : dicoGetData d 0 MainKey.archlabel maxLabelLen = some (options.archlabel ++ [0]) :=
    text (by simp [mainheadCalls]) fits (by decide)
  have algo : dicoGetU32 mem' d 0 MainKey.compressalgo = some options.compressalgo.toUInt32 :=
    word (by simp [mainheadCalls])
  have crypt : dicoGetU32 mem' d 0 MainKey.encryptalgo = some options.encryptalgo.toUInt32 :=
    word (by simp [mainheadCalls])
  have level : dicoGetU32 mem' d 0 MainKey.compresslevel = some (UInt32.ofInt options.compresslevel) :=
    word (by simp [mainheadCalls])
  have fsacomp : dicoGetU32 mem' d 0 MainKey.fsacomplevel = some options.fsacomplevel.toUInt32 :=
    word (by simp [mainheadCalls])
  have time : dicoGetU64 mem' d 0 MainKey.creattime = some now := long (by simp [mainheadCalls])
  have dirs : dicoGetU32 mem' d 0 MainKey.hasdirsinfohead = some 1 := word (by simp [mainheadCalls])
  have least : dicoGetU64 mem' d 0 MainKey.minfsaversion = some (fsaVersionBuild 0 6 4 0) :=
    long (by simp [mainheadCalls])
  unfold readMainItems
  rw [type, id, format, creator, label, algo, crypt, level, fsacomp, time, dirs, least]
  simp only [need_some, bind, Except.bind, count]
  rfl

/-- The test buffer as it is stored. -/
def cryptedBuffer (gcrypt : Gcrypt) (mem : Mem) (options : MainOptions) (random : CheckBuffer) :
    List UInt8 :=
  (bufcheckcrypt gcrypt mem options.encryptpass random).take checkpassbufSize

theorem length_cryptedBuffer :
    (cryptedBuffer gcrypt mem options random).length = checkpassbufSize := by
  simp only [cryptedBuffer, bufcheckcrypt, localBuffer, List.length_take, List.length_append,
    List.length_map, List.length_range]
  omega

/-- The password is checked against the digest of the test buffer. -/
theorem checkPassword_written (mem' : Mem) (password : List UInt8)
    (encrypts : options.encryptalgo ≠ encryptNone) :
    checkPassword restore md5 mem' password
        (createarWriteMainhead gcrypt md5 mem options archid archtype fscount now random).dico =
      if password.length < minPasslen ∨ password.length > maxPasslen then .error .noPassword
      else if md5sumnew restore md5 mem' (cryptedBuffer gcrypt mem options random) password =
        md5.digest random.bytes then .ok ()
      else .error .wrongPassword := by
  have items := @items_mainhead gcrypt md5 mem options archid archtype fscount now random
  have length := @length_cryptedBuffer gcrypt mem options random
  have digest := md5.length_digest random.bytes
  have crypted : dicoGetData
      (createarWriteMainhead gcrypt md5 mem options archid archtype fscount now random).dico 0
      MainKey.bufcheckpasscryptbuf (checkpassbufSize + 8) =
        some (cryptedBuffer gcrypt mem options random) :=
    dicoGetData_of_call
      (dicoAddData 0 MainKey.bufcheckpasscryptbuf (cryptedBuffer gcrypt mem options random)) items
      (by simp [checkpassCalls, encrypts, cryptedBuffer]) (by rw [dicoAddData, length]; decide)
      (by decide) (by rw [dicoAddData, length]; decide)
  have stored : dicoGetData
      (createarWriteMainhead gcrypt md5 mem options archid archtype fscount now random).dico 0
      MainKey.bufcheckpassclearmd5 (16 + 99) = some (md5.digest random.bytes) :=
    dicoGetData_of_call
      (dicoAddData 0 MainKey.bufcheckpassclearmd5 (md5.digest random.bytes)) items
      (by simp [checkpassCalls, encrypts]) (by rw [dicoAddData, digest]; decide)
      (by decide) (by rw [dicoAddData, digest]; decide)
  have whole : storeFront (List.replicate 16 0) (md5.digest random.bytes) =
      md5.digest random.bytes := by
    simp [storeFront, digest]
  unfold checkPassword
  rw [crypted, stored]
  simp only [need_some, bind, Except.bind, digest, whole, gt_iff_lt, Nat.lt_irrefl, ↓reduceIte,
    ne_eq]
  by_cases short : password.length < minPasslen ∨ maxPasslen < password.length
  · rw [if_pos short, if_pos short]
  · rw [if_neg short, if_neg short]
    by_cases same : md5sumnew restore md5 mem' (cryptedBuffer gcrypt mem options random) password =
        md5.digest random.bytes
    · rw [if_neg (not_not.mpr same.symm), if_pos same]
    · rw [if_pos (fun other => same other.symm), if_neg same]

/-- The password with which the test buffer was encrypted gives it back. -/
theorem md5sumnew_own (cipher : gcrypt.InvertedBy restore) (mem' : Mem) {size : Nat}
    {out : List UInt8}
    (encrypted : cryptoBlowfish gcrypt random.bytes options.encryptpass 1 = some (size, out)) :
    md5sumnew restore md5 mem' (cryptedBuffer gcrypt mem options random) options.encryptpass =
      md5.digest random.bytes := by
  obtain ⟨-, count, decrypted⟩ := cryptoBlowfish_inverted cipher encrypted
  have same : cryptedBuffer gcrypt mem options random = out := by
    rw [cryptedBuffer, bufcheckcrypt, encrypted]
    simp only [Option.elim_some, localBuffer]
    rw [List.take_append_of_le_length (by rw [count, random.size]), ← random.size, ← count,
      List.take_length]
  rw [md5sumnew, same, decrypted]
  simp only [localBuffer]
  rw [List.take_append_of_le_length (Nat.le_refl _), List.take_length]

/-- The format that is written is one that is accepted. -/
theorem cString_mainInfo (ai : ArchInfo) :
    cString (mainInfo options archid archtype fscount now ai).filefmt = fileFormat := by
  have buffer : (mainInfo options archid archtype fscount now ai).filefmt =
      fileFormat ++ 0 :: ai.filefmt.drop (fileFormat ++ [0]).length := by
    simp [mainInfo, storeFront]
  rw [buffer]
  exact cString_buffer (by decide) _

/-- The number of an encryption algorithm is stored with more bits. -/
theorem toUInt32_eq_iff (left right : UInt16) : left.toUInt32 = right.toUInt32 ↔ left = right := by
  constructor
  · intro same
    have values := congrArg UInt32.toNat same
    simpa [UInt16.toNat_inj] using values
  · exact congrArg UInt16.toUInt32

/-- A main header whose items are found. -/
theorem extractarReadMainhead_main {mem : Mem} {ai info : ArchInfo} {head : HeadInfo}
    (password : List UInt8) (rest : List QueueData) (isMain : head.magic = .main)
    (found : readMainItems mem ai head.dico = .ok info)
    (known : cString info.filefmt ∈ [fileFormat, fileFormatY, fileFormat1]) :
    extractarReadMainhead restore md5 mem password ai (.header head :: rest) =
      if info.cryptalgo ≠ encryptNone.toUInt32 then
        (checkPassword restore md5 mem password head.dico).bind fun _ => .ok (info, head.dico, rest)
      else .ok (info, head.dico, rest) := by
  unfold extractarReadMainhead
  simp only [dequeueHeader]
  rw [if_neg (not_not.mpr isMain), found]
  simp only [bind, Except.bind]
  rw [if_neg (not_not.mpr known)]

/-- Every main header that is written is read back with all that went into it. If the archive is not
encrypted the password does not matter. If it is, a password of a length that is allowed is
refused exactly when the test buffer it decrypts has another digest; so the password of the archive
is not refused if the test buffer was encrypted, which `createar_write_mainhead` does not check. -/
theorem mainhead_read_back (gcrypt restore : Gcrypt) (cipher : gcrypt.InvertedBy restore) (md5 : Md5)
    (mem mem' : Mem) (options : MainOptions) (fits : options.archlabel.length < maxLabelLen)
    (archid : UInt32) (archtype : ArchType) (fscount : Nat) (now : UInt64) (random : CheckBuffer)
    (password : List UInt8) (ai : ArchInfo) (rest : List QueueData) :
    let head := createarWriteMainhead gcrypt md5 mem options archid archtype fscount now random
    let read := Except.ok (mainInfo options archid archtype fscount now ai, head.dico, rest)
    let result := extractarReadMainhead restore md5 mem' password ai (.header head :: rest)
    (options.encryptalgo = encryptNone → result = read) ∧
      (options.encryptalgo ≠ encryptNone →
        (result = .error .noPassword ↔
          password.length < minPasslen ∨ password.length > maxPasslen) ∧
        (minPasslen ≤ password.length ∧ password.length ≤ maxPasslen →
          result =
            if md5sumnew restore md5 mem' (cryptedBuffer gcrypt mem options random) password =
              md5.digest random.bytes then read
            else .error .wrongPassword) ∧
        (minPasslen ≤ password.length ∧ password.length ≤ maxPasslen →
          password = options.encryptpass →
          (cryptoBlowfish gcrypt random.bytes options.encryptpass 1).isSome → result = read)) := by
  intro head read result
  have found : readMainItems mem' ai head.dico =
      .ok (mainInfo options archid archtype fscount now ai) :=
    readMainItems_written mem' ai fits
  have known : cString (mainInfo options archid archtype fscount now ai).filefmt ∈
      [fileFormat, fileFormatY, fileFormat1] := by
    rw [cString_mainInfo]
    decide
  have read_eq : result = _ := extractarReadMainhead_main password rest rfl found known
  have encrypts : (mainInfo options archid archtype fscount now ai).cryptalgo ≠
      encryptNone.toUInt32 ↔ options.encryptalgo ≠ encryptNone :=
    not_congr (toUInt32_eq_iff _ _)
  constructor
  · intro clear
    rw [read_eq, if_neg (fun other => encrypts.mp other clear)]
  · intro crypted
    rw [if_pos (encrypts.mpr crypted), checkPassword_written mem' password crypted] at read_eq
    refine ⟨?_, ?_, ?_⟩
    · rw [read_eq]
      by_cases short : password.length < minPasslen ∨ password.length > maxPasslen
      · simp [short, Except.bind]
      · rw [if_neg short]
        split <;> simp [Except.bind, short]
    · intro allowed
      rw [read_eq, if_neg (by omega)]
      split <;> rfl
    · intro allowed same encrypted
      obtain ⟨⟨size, out⟩, encrypted⟩ := Option.isSome_iff_exists.mp encrypted
      rw [read_eq, if_neg (by omega), same, if_pos (md5sumnew_own cipher mem' encrypted)]
      rfl

/-- An archive that is not encrypted, with the label `a`. -/
def clearOptions : MainOptions :=
  { gzipOptions with archlabel := [0x61], fsacomplevel := 3 }

/-- A random buffer. -/
def zeroCheckBuffer : CheckBuffer := ⟨List.replicate checkpassbufSize 0, List.length_replicate⟩

/-- An archive with the password `secret`. -/
def secretOptions : MainOptions :=
  { clearOptions with encryptalgo := encryptBlowfish, encryptpass := ascii "secret" }

/-- What zeros are decrypted to in CFB mode, when the cipher makes `first` of the initial vector and
`next` of a block of zeros. -/
def decryptedZeros (first next : List UInt8) : List UInt8 :=
  first ++ (List.replicate 511 next).flatten

/-- A random buffer of which blowfish makes zeros with the key `secret`. -/
def secretBuffer : List UInt8 :=
  decryptedZeros [0x90, 0xb4, 0xde, 0x0a, 0x37, 0xb8, 0x27, 0x0b]
    [0x01, 0x0a, 0x0d, 0x91, 0x49, 0x75, 0x0a, 0x32]

/-- What the key `secrets` makes of the zeros. -/
def secretsBuffer : List UInt8 :=
  decryptedZeros [0xc4, 0x14, 0x3a, 0xe4, 0x6d, 0x01, 0x23, 0xf7]
    [0x92, 0xa3, 0xcf, 0xb7, 0x34, 0xa1, 0xb3, 0xc9]

theorem length_decryptedZeros {first next : List UInt8} (whole : first.length = 8)
    (block : next.length = 8) : (decryptedZeros first next).length = checkpassbufSize := by
  rw [decryptedZeros, List.length_append, List.length_flatten, List.map_replicate,
    List.sum_replicate_nat, whole, block]
  rfl

theorem length_secretBuffer : secretBuffer.length = checkpassbufSize := length_decryptedZeros rfl rfl

theorem length_secretsBuffer : secretsBuffer.length = checkpassbufSize :=
  length_decryptedZeros rfl rfl

theorem secretsBuffer_ne : secretsBuffer ≠ secretBuffer := by
  intro same
  have first := congrArg List.head? same
  exact absurd first (by decide)

/-- The digests of the two buffers; others are not asked for. -/
def secretMd5 : Md5 where
  digest data :=
    if data = secretBuffer then [0xd2, 0xdb, 0x96, 0x30, 0x28, 0x98, 0xcc, 0x40, 0x5b, 0x0b, 0x73,
      0xb6, 0x5d, 0xd8, 0x62, 0x7b]
    else if data = secretsBuffer then [0xaf, 0x88, 0x36, 0xc1, 0x00, 0xcd, 0xfb, 0xbf, 0x95, 0x76,
      0x9f, 0x39, 0x8c, 0x01, 0x75, 0xa6]
    else List.replicate 16 0
  length_digest data := by split_ifs <;> rfl

/-- Blowfish with the two keys. -/
def secretGcrypt : Gcrypt where
  cipherOpen := true
  cipherSetkey key := decide (key = ascii "secret" ∨ key = ascii "secrets")
  cipherSetiv iv := decide (iv = blowfishIv)
  cipherEncrypt key iv data :=
    if key = ascii "secret" ∧ iv = blowfishIv ∧ data = secretBuffer then
      some (List.replicate checkpassbufSize 0)
    else none
  cipherDecrypt key iv data :=
    if iv = blowfishIv ∧ data = List.replicate checkpassbufSize 0 then
      if key = ascii "secret" then some secretBuffer
      else if key = ascii "secrets" then some secretsBuffer
      else none
    else none

theorem secretGcrypt_inverted : secretGcrypt.InvertedBy secretGcrypt where
  opens := id
  setkey := id
  setiv := id
  size := by
    intro key iv data out encrypted
    simp only [secretGcrypt, Option.ite_none_right_eq_some, Option.some.injEq] at encrypted
    obtain ⟨⟨-, -, rfl⟩, rfl⟩ := encrypted
    rw [List.length_replicate, length_secretBuffer]
  decrypt := by
    intro key iv data out encrypted
    simp only [secretGcrypt, Option.ite_none_right_eq_some, Option.some.injEq] at encrypted
    obtain ⟨⟨rfl, rfl, rfl⟩, rfl⟩ := encrypted
    simp [secretGcrypt]

/-- The main header of the archive, with the random buffer. -/
def secretHead : HeadInfo :=
  createarWriteMainhead secretGcrypt secretMd5 ⟨fun _ => 1, fun _ => 1⟩ secretOptions 7 .filesystems 2
    0 ⟨secretBuffer, length_secretBuffer⟩

/-- A buffer that was written whole. -/
theorem take_localBuffer {mem : Mem} {data : List UInt8} (whole : data.length = checkpassbufSize)
    (size : Nat) : (localBuffer mem size data).take checkpassbufSize = data := by
  rw [localBuffer, List.take_append_of_le_length (Nat.le_of_eq whole.symm), ← whole,
    List.take_length]

/-- The test buffer is stored as zeros. -/
theorem cryptoBlowfish_secret :
    cryptoBlowfish secretGcrypt secretBuffer (ascii "secret") 1 =
      some (checkpassbufSize, List.replicate checkpassbufSize 0) := by
  have encrypted : secretGcrypt.cipherEncrypt (ascii "secret") blowfishIv secretBuffer =
      some (List.replicate checkpassbufSize 0) := by
    dsimp only [secretGcrypt]
    rw [if_pos ⟨rfl, rfl, rfl⟩]
  unfold cryptoBlowfish
  rw [if_neg (by decide), if_neg (by decide), if_neg (by decide), if_neg (by decide)]
  rw [encrypted, length_secretBuffer, Option.map_some]
  rfl

/-- The other password makes the other buffer of them. -/
theorem cryptoBlowfish_secrets :
    cryptoBlowfish secretGcrypt (List.replicate checkpassbufSize 0) (ascii "secrets") 0 =
      some (checkpassbufSize, secretsBuffer) := by
  have decrypted : secretGcrypt.cipherDecrypt (ascii "secrets") blowfishIv
      (List.replicate checkpassbufSize 0) = some secretsBuffer := by
    dsimp only [secretGcrypt]
    rw [if_pos ⟨rfl, rfl⟩, if_neg (by decide), if_pos rfl]
  unfold cryptoBlowfish
  rw [if_neg (by decide), if_neg (by decide), if_neg (by decide), if_neg (by decide)]
  rw [decrypted, List.length_replicate, Option.map_some]
  rfl

/-- That buffer has another digest. -/
theorem md5sumnew_secrets (mem mem' : Mem) :
    md5sumnew secretGcrypt secretMd5 mem' (cryptedBuffer secretGcrypt mem secretOptions
      ⟨secretBuffer, length_secretBuffer⟩) (ascii "secrets") ≠ secretMd5.digest secretBuffer := by
  have stored : cryptedBuffer secretGcrypt mem secretOptions ⟨secretBuffer, length_secretBuffer⟩ =
      List.replicate checkpassbufSize 0 := by
    have encrypted := cryptoBlowfish_secret
    dsimp only [cryptedBuffer, bufcheckcrypt]
    rw [show secretOptions.encryptpass = ascii "secret" from rfl, encrypted, Option.elim_some]
    exact take_localBuffer List.length_replicate _
  rw [stored, md5sumnew, cryptoBlowfish_secrets]
  dsimp only
  rw [take_localBuffer length_secretsBuffer]
  dsimp only [secretMd5]
  rw [if_neg secretsBuffer_ne, if_pos rfl, if_pos rfl]
  decide

/-- Its main header is read back with its password, and with no other. -/
theorem mainhead_read_back_secret :
    extractarReadMainhead secretGcrypt secretMd5 ⟨fun _ => 0, fun _ => 0⟩ (ascii "secret") .init
        [.header secretHead] =
      .ok (mainInfo secretOptions 7 .filesystems 2 0 .init, secretHead.dico, []) ∧
      extractarReadMainhead secretGcrypt secretMd5 ⟨fun _ => 0, fun _ => 0⟩ (ascii "secrets") .init
        [.header secretHead] = .error .wrongPassword ∧
      extractarReadMainhead secretGcrypt secretMd5 ⟨fun _ => 0, fun _ => 0⟩ (ascii "short") .init
        [.header secretHead] = .error .noPassword := by
  have read (password : List UInt8) := (mainhead_read_back secretGcrypt secretGcrypt
    secretGcrypt_inverted secretMd5 ⟨fun _ => 1, fun _ => 1⟩ ⟨fun _ => 0, fun _ => 0⟩ secretOptions
    (by decide) 7 .filesystems 2 0 ⟨secretBuffer, length_secretBuffer⟩ password .init []).2
    (by decide)
  refine ⟨(read (ascii "secret")).2.2 (by decide) rfl ?_, ?_,
    (read (ascii "short")).1.mpr (by decide)⟩
  · have encrypted := cryptoBlowfish_secret
    exact Option.isSome_of_eq_some encrypted
  · have other := md5sumnew_secrets ⟨fun _ => 1, fun _ => 1⟩ ⟨fun _ => 0, fun _ => 0⟩
    exact ((read (ascii "secrets")).2.1 (by decide)).trans (if_neg other)

end RoundTrip

end FsArchiver
