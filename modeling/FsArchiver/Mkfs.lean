import FsArchiver.ArchFiles
import FsArchiver.HeaderBounds

/-!
# Recreating filesystems

What `extfs_mkfs`, `xfs_mkfs` and `btrfs_mkfs` have in common: the keys of the header of a
filesystem, versions of programs, the texts that options are made of, and the buffers in which an
option list and a command grow.
-/
namespace FsArchiver

namespace FsysHeadKey

/-- `FSYSHEADKEY_FSLABEL`. -/
def fslabel : UInt16 := 5
/-- `FSYSHEADKEY_FSUUID`. -/
def fsuuid : UInt16 := 6
/-- `FSYSHEADKEY_FSINODESIZE`. -/
def fsinodesize : UInt16 := 7
/-- `FSYSHEADKEY_FSEXTREVISION`. -/
def fsextrevision : UInt16 := 10
/-- `FSYSHEADKEY_FSEXTBLOCKSIZE`. -/
def fsextblocksize : UInt16 := 11
/-- `FSYSHEADKEY_FSEXTFEATURECOMPAT`. -/
def fsextfeaturecompat : UInt16 := 12
/-- `FSYSHEADKEY_FSEXTFEATUREINCOMPAT`. -/
def fsextfeatureincompat : UInt16 := 13
/-- `FSYSHEADKEY_FSEXTFEATUREROCOMPAT`. -/
def fsextfeaturerocompat : UInt16 := 14
/-- `FSYSHEADKEY_FSXFSBLOCKSIZE`. -/
def fsxfsblocksize : UInt16 := 17
/-- `FSYSHEADKEY_FSBTRFSSECTORSIZE`. -/
def fsbtrfssectorsize : UInt16 := 18
/-- `FSYSHEADKEY_BTRFSFEATURECOMPAT`. -/
def btrfsfeaturecompat : UInt16 := 21
/-- `FSYSHEADKEY_BTRFSFEATUREINCOMPAT`. -/
def btrfsfeatureincompat : UInt16 := 22
/-- `FSYSHEADKEY_BTRFSFEATUREROCOMPAT`. -/
def btrfsfeaturerocompat : UInt16 := 23
/-- `FSYSHEADKEY_MINFSAVERSION`. -/
def minfsaversion : UInt16 := 25
/-- `FSYSHEADKEY_FSEXTEOPTRAIDSTRIPEWIDTH`. -/
def fsexteoptraidstripewidth : UInt16 := 31
/-- `FSYSHEADKEY_FSEXTEOPTRAIDSTRIDE`. -/
def fsexteoptraidstride : UInt16 := 32
/-- `FSYSHEADKEY_FSXFSVERSION`. -/
def fsxfsversion : UInt16 := 34
/-- `FSYSHEADKEY_FSXFSFEATURECOMPAT`. -/
def fsxfsfeaturecompat : UInt16 := 35
/-- `FSYSHEADKEY_FSXFSFEATUREROCOMPAT`. -/
def fsxfsfeaturerocompat : UInt16 := 36
/-- `FSYSHEADKEY_FSXFSFEATUREINCOMPAT`. -/
def fsxfsfeatureincompat : UInt16 := 37
/-- `FSYSHEADKEY_FSXFSFEATURELOGINCOMPAT`. -/
def fsxfsfeaturelogincompat : UInt16 := 38

end FsysHeadKey

/-- `PROGVER`. -/
def progver (x y z : UInt64) : UInt64 := (x <<< 16) + (y <<< 8) + z

/-- `FSA_VERSION_BUILD`. -/
def fsaVersionBuild (a b c d : UInt64) : UInt64 :=
  ((a &&& 0xFFFF) <<< 48) + ((b &&& 0xFFFF) <<< 32) + ((c &&& 0xFFFF) <<< 16) + (d &&& 0xFFFF)

/-- `1 << n`. -/
def flagBit (n : UInt64) : UInt64 := 1 <<< n

/-! ## Texts -/

/-- The digits of a number. -/
def formatNat (number : Nat) : List UInt8 :=
  (Nat.toDigits 10 number).map fun digit => digit.toNat.toUInt8

/-- The conversion `%d`. -/
def formatInt (number : Int) : List UInt8 :=
  if number < 0 then ascii "-" ++ formatNat number.natAbs else formatNat number.natAbs

/-- The conversion `%ld` of a `u64` that is cast to `long`. -/
def formatLong (number : UInt64) : List UInt8 := formatInt number.toInt64.toInt

/-- `strlcatf` as a function of the string in its buffer: what there is no room for is lost. -/
def strlcatText (destbufsize : Nat) (dest text : List UInt8) : List UInt8 :=
  dest ++ text.take (destbufsize - dest.length - 1)

/-- `strlcatf` with one text after the other. -/
def strlcatTexts (destbufsize : Nat) (dest : List UInt8) (texts : List (List UInt8)) : List UInt8 :=
  texts.foldl (strlcatText destbufsize) dest

/-- `snprintf` of a text. -/
def snprintfText (bufsize : Nat) (text : List UInt8) : List UInt8 := text.take (bufsize - 1)

/-- `strlist_merge`. -/
def strlistMerge (bufsize : Nat) (sep : List UInt8) (list : List (List UInt8)) : List UInt8 :=
  strlcatTexts bufsize [] (list.intersperse sep)

/-- The size of the buffers `options`, `features`, `mkfsopts` and `command`. -/
def optionsSize : Nat := 2048

/-! ## What is restored -/

/-- A string of the header of a filesystem, in a buffer of 2048 bytes. -/
def fsysString (d : Dico) (key : UInt16) : Option (List UInt8) :=
  (dicoGetString d 0 key 2048).map fun data => cString (stringBuffer 2048 data)

/-- The label of the new filesystem: that of the command line if there is one, else that of the
archive. -/
def usedLabel (d : Dico) (mkfslabel : List UInt8) : List UInt8 :=
  if mkfslabel ≠ [] then mkfslabel else (fsysString d FsysHeadKey.fslabel).getD []

/-- The local variable `uuid` of `extfs_mkfs` and `xfs_mkfs`. -/
def usedUuid (d : Dico) (mkfsuuid : List UInt8) : List UInt8 :=
  if mkfsuuid ≠ [] then snprintfText 64 mkfsuuid
  else snprintfText 64 ((fsysString d FsysHeadKey.fsuuid).getD [])

/-! ## The command -/

/-- How the command of a `*_mkfs` function is put together, with the label apart. -/
structure MkfsPlan where
  /-- What the command begins with. -/
  program : List UInt8
  /-- The options before the label. -/
  before : List (List UInt8)
  /-- The precision of the label's conversion. -/
  cut : List UInt8 → List UInt8
  /-- The options behind the label. -/
  after : List (List UInt8)
  /-- The device. -/
  partition : List UInt8

namespace MkfsPlan

/-- The option for a label; there is none without a label. -/
def labelOption (plan : MkfsPlan) (label : List UInt8) : List (List UInt8) :=
  if label = [] then [] else [ascii " -L '" ++ plan.cut label ++ ascii "' "]

/-- All options. -/
def pieces (plan : MkfsPlan) (label : List UInt8) : List (List UInt8) :=
  plan.before ++ plan.labelOption label ++ plan.after

/-- The buffer with the options. -/
def options (plan : MkfsPlan) (label : List UInt8) : List UInt8 :=
  strlcatTexts optionsSize [] (plan.pieces label)

/-- The buffer with the command, which `exec_command` prints its format to. -/
def command (plan : MkfsPlan) (label : List UInt8) : List UInt8 :=
  snprintfText optionsSize (plan.program ++ plan.options label ++ ascii " " ++ plan.partition)

/-- The command without the limits of the buffers. -/
def text (plan : MkfsPlan) (label : List UInt8) : List UInt8 :=
  plan.program ++ (plan.pieces label).flatten ++ ascii " " ++ plan.partition

end MkfsPlan

/-! ## What the buffers keep -/

section Buffers

variable {destbufsize : Nat} {dest text : List UInt8} {texts : List (List UInt8)}

/-- What is cut first need not be. -/
theorem take_take_append (front back : List UInt8) (count : Nat) :
    (front.take count ++ back).take count = (front ++ back).take count := by
  rw [List.take_append, List.take_append, List.take_take, Nat.min_self, List.length_take]
  rcases Nat.le_total front.length count with short | long
  · rw [Nat.min_eq_right short]
  · rw [Nat.min_eq_left long, Nat.sub_self, Nat.sub_eq_zero_of_le long]

/-- A text is cut where the buffer ends. -/
theorem strlcatText_eq (room : dest.length < destbufsize) :
    strlcatText destbufsize dest text = (dest ++ text).take (destbufsize - 1) := by
  rw [strlcatText, List.take_append, List.take_of_length_le (l := dest) (by omega),
    Nat.sub_right_comm]

/-- Texts are cut where the buffer ends. -/
theorem strlcatTexts_eq (room : dest.length < destbufsize) :
    strlcatTexts destbufsize dest texts = (dest ++ texts.flatten).take (destbufsize - 1) := by
  induction texts generalizing dest with
  | nil =>
    rw [List.flatten_nil, List.append_nil, List.take_of_length_le (by omega)]
    rfl
  | cons text texts ih =>
    have step : strlcatTexts destbufsize dest (text :: texts) =
        strlcatTexts destbufsize (strlcatText destbufsize dest text) texts := rfl
    have room' : ((dest ++ text).take (destbufsize - 1)).length < destbufsize := by
      rw [List.length_take]
      omega
    rw [step, strlcatText_eq room, ih room', List.flatten_cons, ← List.append_assoc,
      take_take_append]

/-- Texts with room are appended whole. -/
theorem strlcatTexts_of_fits (fits : (dest ++ texts.flatten).length < destbufsize) :
    strlcatTexts destbufsize dest texts = dest ++ texts.flatten := by
  have room : dest.length < destbufsize := by
    rw [List.length_append] at fits
    omega
  rw [strlcatTexts_eq room, List.take_of_length_le (by omega)]

/-- Of a command the buffers keep the beginning. -/
theorem MkfsPlan.command_eq (plan : MkfsPlan) (label : List UInt8) :
    plan.command label = (plan.text label).take (optionsSize - 1) := by
  have options : plan.options label = (plan.pieces label).flatten.take (optionsSize - 1) :=
    strlcatTexts_eq (by decide)
  have cut : ∀ front middle : List UInt8, (front ++ middle.take (optionsSize - 1)).take
      (optionsSize - 1) = (front ++ middle).take (optionsSize - 1) := by
    intro front middle
    rw [List.take_append, List.take_append, List.take_take, Nat.min_eq_left (Nat.sub_le _ _)]
  unfold MkfsPlan.command MkfsPlan.text snprintfText
  rw [options, List.append_assoc _ (ascii " "), List.append_assoc _ (ascii " "), ← take_take_append,
    cut, take_take_append]

/-- A command that no buffer cuts. -/
theorem MkfsPlan.command_of_fits {plan : MkfsPlan} {label : List UInt8}
    (fits : (plan.text label).length < optionsSize) : plan.command label = plan.text label := by
  rw [MkfsPlan.command_eq, List.take_of_length_le (by omega)]

end Buffers

end FsArchiver
