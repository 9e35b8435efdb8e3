/-!
# Constants of the format

The enumerations and limits of `fsarchiver.h` and `dico.h`. A four-byte magic that
`is_magic_valid` accepts is a constructor of `Magic`; the bytes of any other magic are not a
`Magic` at all.
-/
namespace FsArchiver

/-- `FSA_SIZEOF_MAGIC`. -/
def sizeofMagic : Nat := 4

/-- The magics of `valid_magic[]`. -/
inductive Magic where
  /-- `FSA_MAGIC_MAIN`: archive header, one per archive. -/
  | main
  /-- `FSA_MAGIC_VOLH`: volume header, one per volume. -/
  | volh
  /-- `FSA_MAGIC_VOLF`: volume footer, one per volume. -/
  | volf
  /-- `FSA_MAGIC_FSIN`: filesystem information. -/
  | fsin
  /-- `FSA_MAGIC_FSYB`: start of the contents of a filesystem. -/
  | fsyb
  /-- `FSA_MAGIC_DATF`: end of the contents of a filesystem or of the flat files. -/
  | datf
  /-- `FSA_MAGIC_OBJT`: object header. -/
  | objt
  /-- `FSA_MAGIC_BLKH`: data block header. -/
  | blkh
  /-- `FSA_MAGIC_FILF`: footer of a regular file. -/
  | filf
  /-- `FSA_MAGIC_DIRS`: statistics of the flat files. -/
  | dirs
  deriving DecidableEq, Repr

namespace Magic

/-- The four characters of a magic, as they stand in the archive. -/
def bytes : Magic → List UInt8
  | .main => [0x41, 0x72, 0x43, 0x68]  -- ArCh
  | .volh => [0x46, 0x73, 0x41, 0x30]  -- FsA0
  | .volf => [0x46, 0x73, 0x41, 0x45]  -- FsAE
  | .fsin => [0x46, 0x73, 0x49, 0x6e]  -- FsIn
  | .fsyb => [0x46, 0x73, 0x59, 0x73]  -- FsYs
  | .datf => [0x44, 0x61, 0x45, 0x6e]  -- DaEn
  | .objt => [0x4f, 0x62, 0x4a, 0x74]  -- ObJt
  | .blkh => [0x42, 0x6c, 0x4b, 0x68]  -- BlKh
  | .filf => [0x46, 0x69, 0x4c, 0x66]  -- FiLf
  | .dirs => [0x44, 0x69, 0x52, 0x73]  -- DiRs

@[simp] theorem length_bytes (magic : Magic) : magic.bytes.length = 4 := by
  cases magic <;> rfl

/-- `valid_magic[]`. -/
def valid : List Magic :=
  [.main, .volh, .volf, .fsin, .fsyb, .datf, .objt, .blkh, .filf, .dirs]

/-- The table search of `is_magic_valid`, returning the magic it found. -/
def ofBytes (found : List UInt8) : Option Magic :=
  valid.find? fun magic => decide (magic.bytes = found)

/-- `is_magic_valid`. -/
def isMagicValid (found : List UInt8) : Bool := (ofBytes found).isSome

@[simp] theorem ofBytes_bytes (magic : Magic) : ofBytes magic.bytes = some magic := by
  cases magic <;> rfl

/-- A magic is found only at its own four characters. -/
theorem bytes_of_ofBytes {found : List UInt8} {magic : Magic} (h : ofBytes found = some magic) :
    magic.bytes = found := by
  simpa using List.find?_some h

/-- No two magics have the same characters. -/
theorem bytes_injective {left right : Magic} (h : left.bytes = right.bytes) : left = right := by
  have found := ofBytes_bytes left
  rw [h, ofBytes_bytes] at found
  exact (Option.some.inj found).symm

end Magic

/-- The negative results of `fsarchiver.h`. -/
inductive FsaErr where
  | unknown | enomem | einval | enoent | endoffile | wrongtype | notopen | enospc | seek | read
  | write
  deriving DecidableEq, Repr

/-- `FSA_FILESYSID_NULL`: the filesystem id of a global header. -/
def filesysidNull : UInt16 := 0xFFFF

/-- `FSA_MAX_FSPERARCH`. -/
def maxFsPerArch : Nat := 128

/-- `FSA_MAX_BLKSIZE`. -/
def maxBlkSize : Nat := 921600

/-- `FSA_MAX_SMALLFILECOUNT`. -/
def maxSmallFileCount : Nat := 512

/-- `FSA_MAX_SMALLFILESIZE`. -/
def maxSmallFileSize : Nat := 131072

/-- `PATH_MAX`. -/
def pathMax : Nat := 4096

/-! ## Types and keys of dico items -/

namespace DicType

/-- `DICTYPE_U16`. -/
def u16 : UInt8 := 2
/-- `DICTYPE_U32`. -/
def u32 : UInt8 := 3
/-- `DICTYPE_U64`. -/
def u64 : UInt8 := 4
/-- `DICTYPE_DATA`. -/
def data : UInt8 := 5
/-- `DICTYPE_STRING`. -/
def string : UInt8 := 6

end DicType

namespace VolumeKey

/-- `VOLUMEHEADKEY_VOLNUM`. -/
def headVolnum : UInt16 := 0
/-- `VOLUMEHEADKEY_ARCHID`. -/
def headArchid : UInt16 := 1
/-- `VOLUMEHEADKEY_FILEFORMATVER`. -/
def headFileformatver : UInt16 := 2
/-- `VOLUMEHEADKEY_PROGVERCREAT`. -/
def headProgvercreat : UInt16 := 3
/-- `VOLUMEFOOTKEY_VOLNUM`. -/
def footVolnum : UInt16 := 0
/-- `VOLUMEFOOTKEY_ARCHID`. -/
def footArchid : UInt16 := 1
/-- `VOLUMEFOOTKEY_LASTVOL`. -/
def footLastvol : UInt16 := 2

end VolumeKey

namespace BlockKey

/-- `BLOCKHEADITEMKEY_REALSIZE`. -/
def realsize : UInt16 := 1
/-- `BLOCKHEADITEMKEY_BLOCKOFFSET`. -/
def blockoffset : UInt16 := 2
/-- `BLOCKHEADITEMKEY_COMPRESSALGO`. -/
def compressalgo : UInt16 := 3
/-- `BLOCKHEADITEMKEY_ENCRYPTALGO`. -/
def encryptalgo : UInt16 := 4
/-- `BLOCKHEADITEMKEY_ARSIZE`. -/
def arsize : UInt16 := 5
/-- `BLOCKHEADITEMKEY_COMPSIZE`. -/
def compsize : UInt16 := 6
/-- `BLOCKHEADITEMKEY_ARCSUM`. -/
def arcsum : UInt16 := 7

end BlockKey

/-- `MAINHEADKEY_ARCHIVEID`. -/
def mainArchiveid : UInt16 := 3

/-- `BLOCKFOOTITEMKEY_MD5SUM`. -/
def footerMd5sum : UInt16 := 1

namespace Section

/-- `DICO_OBJ_SECTION_STDATTR`. -/
def stdattr : UInt8 := 0
/-- `DICO_OBJ_SECTION_XATTR`. -/
def xattr : UInt8 := 1
/-- `DICO_OBJ_SECTION_WINATTR`. -/
def winattr : UInt8 := 2

end Section

namespace ItemKey

/-- `DISKITEMKEY_OBJECTID`. -/
def objectid : UInt16 := 1
/-- `DISKITEMKEY_PATH`. -/
def path : UInt16 := 2
/-- `DISKITEMKEY_OBJTYPE`. -/
def objtype : UInt16 := 3
/-- `DISKITEMKEY_SYMLINK`. -/
def symlink : UInt16 := 4
/-- `DISKITEMKEY_HARDLINK`. -/
def hardlink : UInt16 := 5
/-- `DISKITEMKEY_RDEV`. -/
def rdev : UInt16 := 6
/-- `DISKITEMKEY_MODE`. -/
def mode : UInt16 := 7
/-- `DISKITEMKEY_SIZE`. -/
def size : UInt16 := 8
/-- `DISKITEMKEY_UID`. -/
def uid : UInt16 := 9
/-- `DISKITEMKEY_GID`. -/
def gid : UInt16 := 10
/-- `DISKITEMKEY_ATIME`. -/
def atime : UInt16 := 11
/-- `DISKITEMKEY_MTIME`. -/
def mtime : UInt16 := 12
/-- `DISKITEMKEY_MD5SUM`. -/
def md5sum : UInt16 := 13
/-- `DISKITEMKEY_MULTIFILESCOUNT`. -/
def multifilescount : UInt16 := 14
/-- `DISKITEMKEY_MULTIFILESOFFSET`. -/
def multifilesoffset : UInt16 := 15
/-- `DISKITEMKEY_LINKTARGETTYPE`. -/
def linktargettype : UInt16 := 16
/-- `DISKITEMKEY_FLAGS`. -/
def flags : UInt16 := 17

end ItemKey

/-- `OBJTYPE_*`. -/
inductive ObjType where
  | null | dir | symlink | hardlink | chardev | blockdev | fifo | socket | regfileunique
  | regfilemulti
  deriving DecidableEq, Repr

namespace ObjType

/-- The number of a type in the archive. -/
def code : ObjType → UInt32
  | .null => 0
  | .dir => 1
  | .symlink => 2
  | .hardlink => 3
  | .chardev => 4
  | .blockdev => 5
  | .fifo => 6
  | .socket => 7
  | .regfileunique => 8
  | .regfilemulti => 9

/-- The types of objects that have a number in the archive. -/
def valid : List ObjType :=
  [.dir, .symlink, .hardlink, .chardev, .blockdev, .fifo, .socket, .regfileunique, .regfilemulti]

/-- The type of an object with this number. -/
def ofCode (number : UInt32) : Option ObjType := valid.find? fun type => type.code = number

/-- The number of an object's type says its type. -/
theorem ofCode_code {type : ObjType} (member : type ∈ valid) : ofCode type.code = some type := by
  cases type <;> first | rfl | simp [valid] at member

/-- The type that a number says has this number. -/
theorem code_of_ofCode {number : UInt32} {type : ObjType} (known : ofCode number = some type) :
    number = type.code := by
  have found := List.find?_some known
  exact (of_decide_eq_true found).symm

end ObjType

/-- `FSA_FILEFLAGS_SPARSE`. -/
def fileFlagsSparse : UInt64 := 1

/-- The bytes of a text in the source. -/
def ascii (text : String) : List UInt8 := text.toList.map fun c => c.toNat.toUInt8

end FsArchiver
