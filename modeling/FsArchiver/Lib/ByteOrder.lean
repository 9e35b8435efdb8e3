import FsArchiver.Lib.Bytes

/-!
# Byte orders

How a machine holds a word in memory, and the conversions between its own order and little-endian
order. Whatever the machine, a converted word lies in memory in little-endian order, and a word read
from memory and converted is the little-endian number there.
-/
namespace FsArchiver.Lib

/-- The order in which a machine holds the bytes of a word. -/
inductive ByteOrder where
  | little
  | big
  deriving DecidableEq

/-- A word as a machine holds it in memory. -/
def nativeBytes (order : ByteOrder) (width value : Nat) : List UInt8 :=
  match order with
  | .little => leBytes width value
  | .big => (leBytes width value).reverse

/-- The word that a machine reads from these bytes. -/
def nativeNat (order : ByteOrder) (bytes : List UInt8) : Nat :=
  match order with
  | .little => leNat bytes
  | .big => leNat bytes.reverse

/-- `bswap_16`, `bswap_32` and `bswap_64`: a word of so many bytes with its bytes reversed. -/
def bswap (width value : Nat) : Nat := leNat (leBytes width value).reverse

/-- `cpu_to_le16` and its kind. -/
def cpuToLe (order : ByteOrder) (width value : Nat) : Nat :=
  match order with
  | .little => value
  | .big => bswap width value

/-- `le16_to_cpu` and its kind. -/
def leToCpu (order : ByteOrder) (width value : Nat) : Nat :=
  match order with
  | .little => value
  | .big => bswap width value

/-- Digits that are read and written again. -/
theorem leBytes_leNat (bytes : List UInt8) : leBytes bytes.length (leNat bytes) = bytes := by
  apply leNat_injective (length_leBytes ..)
  exact leNat_leBytes_of_lt (leNat_lt bytes)

/-- A word that was converted lies in memory in little-endian order. -/
theorem nativeBytes_cpuToLe (order : ByteOrder) (width value : Nat) :
    nativeBytes order width (cpuToLe order width value) = leBytes width value := by
  cases order with
  | little => rfl
  | big =>
    have length : (leBytes width value).reverse.length = width := by
      rw [List.length_reverse, length_leBytes]
    have kept := leBytes_leNat (leBytes width value).reverse
    rw [length] at kept
    show (leBytes width (leNat (leBytes width value).reverse)).reverse = leBytes width value
    rw [kept, List.reverse_reverse]

/-- A word that is read and converted is the little-endian number in memory. -/
theorem leToCpu_nativeNat (order : ByteOrder) (bytes : List UInt8) :
    leToCpu order bytes.length (nativeNat order bytes) = leNat bytes := by
  cases order with
  | little => rfl
  | big =>
    have kept := leBytes_leNat bytes.reverse
    rw [List.length_reverse] at kept
    show leNat (leBytes bytes.length (leNat bytes.reverse)).reverse = leNat bytes
    rw [kept, List.reverse_reverse]

end FsArchiver.Lib
