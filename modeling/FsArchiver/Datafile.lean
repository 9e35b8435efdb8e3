import FsArchiver.SysCalls

/-!
# Files being restored

`datafile.c`: a file that is written block by block, with the data that goes into its MD5. MD5
itself is an uninterpreted function.
-/
namespace FsArchiver

/-- MD5: any function to sixteen bytes. -/
structure Md5 where
  /-- The digest of some data. -/
  digest : List UInt8 → List UInt8
  /-- A digest has sixteen bytes. -/
  length_digest : ∀ data, (digest data).length = 16

/-- Sixteen zeros. -/
theorem length_zeroDigest (_ : List UInt8) : (List.replicate 16 (0 : UInt8)).length = 16 :=
  List.length_replicate

/-- `s_datafile`. -/
structure Datafile where
  /-- Nothing is written. -/
  simul : Bool
  /-- The file is open, even if nothing is written. -/
  isOpen : Bool
  /-- The file is sparse. -/
  sparse : Bool
  /-- Path of the file. -/
  path : Path
  /-- The data given to MD5 so far. -/
  hashed : List UInt8

/-- `datafile_alloc`. -/
def datafileAlloc : Datafile :=
  { simul := false, isOpen := false, sparse := false, path := [], hashed := [] }

/-- `datafile_open_write`. -/
def datafileOpenWrite (os : Os) (f : Datafile) (path : Path) (simul sparse : Bool) :
    Sys (Bool × Datafile) := do
  let opened := { f with simul, isOpen := true, sparse, path, hashed := [] }
  if f.isOpen then return (false, f)
  else if simul then return (true, opened)
  else
    let fd ← os.call (.create path)
    if fd < 0 then return (false, f) else return (true, opened)

/-- `datafile_is_block_zero`. -/
def datafileIsBlockZero (data : List UInt8) : Bool := data.all (· = 0)

/-- `datafile_write`; the kinds of errors are not told apart. -/
def datafileWrite (os : Os) (f : Datafile) (data : List UInt8) : Sys (Bool × Datafile) := do
  let written := { f with hashed := f.hashed ++ data }
  if !f.isOpen then return (false, f)
  else if f.simul then return (true, written)
  else if f.sparse && datafileIsBlockZero data then
    let lres ← os.call (.lseek f.path data.length)
    if lres < 0 then return (false, f) else return (true, written)
  else
    let lres ← os.call (.write f.path data)
    if lres ≠ data.length then return (false, f) else return (true, written)

/-- What `datafile_close` leaves behind. -/
structure Closed where
  /-- It returns 0. -/
  ok : Bool
  /-- The digest, unless the file was not open. -/
  md5 : Option (List UInt8)
  /-- The file. -/
  f : Datafile

/-- `datafile_close`. -/
def datafileClose (os : Os) (md5 : Md5) (f : Datafile) : Sys Closed := do
  let closed := { f with isOpen := false, path := [] }
  let digest := some (md5.digest f.hashed)
  if !f.isOpen then return ⟨false, none, f⟩
  else if f.simul then return ⟨true, digest, closed⟩
  else
    let cut ← (if f.sparse then os.call (.ftruncate f.path) else pure 0)
    let res ← os.call (.close f.path)
    return ⟨decide (0 ≤ cut ∧ 0 ≤ res), digest, closed⟩

/-- `datafile_destroy`. -/
def datafileDestroy (os : Os) (md5 : Md5) (f : Datafile) : Sys Unit := do
  if f.isOpen then
    let _ ← datafileClose os md5 f
    return ()
  else return ()

end FsArchiver
