import FsArchiver.Const

/-!
# Paths

The path functions of `common.c` and `is_filedir_excluded`. A path is the characters of a C
string without its NUL. The results fit their buffers: what the source does when they do not is
not described here.
-/
namespace FsArchiver

/-- The characters of a path. -/
abbrev Path := List UInt8

instance : LawfulBEq Path := inferInstance

/-- The character `/`. -/
def slash : UInt8 := 0x2f

/-- `concatenate_paths`: one trailing slash of the first path and all leading slashes of the
second one are dropped. -/
def concatenatePaths (p1 p2 : Path) : Path :=
  (if p1.getLast? = some slash then p1.dropLast else p1) ++ slash :: p2.dropWhile (· = slash)

/-- `extract_basename`: what follows the last slash. -/
def extractBasename (filepath : Path) : Path :=
  (filepath.reverse.takeWhile (· ≠ slash)).reverse

/-- `extract_dirpath`: what lies before the last slash, or the slash if it comes first. -/
def extractDirpath (filepath : Path) : Path :=
  match filepath.reverse.dropWhile (· ≠ slash) with
  | [] => []
  | [_] => [slash]
  | _ :: front => front.reverse

/-- The values that `dirpath` takes in the loop of `is_filedir_excluded`, from the longest on. -/
def parentPaths (relpath : Path) : List Path :=
  ((List.range relpath.length).reverse.filter fun pos =>
    0 < pos ∧ relpath[pos]? = some slash).map relpath.take

/-- `is_filedir_excluded`, with `exclude_check` for the list of patterns as a predicate. -/
def isFiledirExcluded (exclude : Path → Bool) (relpath : Path) : Bool :=
  exclude (extractBasename relpath) || exclude relpath ||
    (parentPaths relpath).any fun dirpath =>
      decide (dirpath.length > 1) && decide ((extractBasename dirpath).length > 0) &&
        (exclude (extractBasename dirpath) || exclude dirpath)

/-! ## The last slash of a path -/

/-- A path with a slash, split at the last one. -/
theorem split_last_slash {path : Path} (member : slash ∈ path) :
    ∃ front name, path = front ++ slash :: name ∧ slash ∉ name := by
  obtain ⟨front, back, split, apart⟩ := List.eq_append_cons_of_mem (List.mem_reverse.mpr member)
  refine ⟨back.reverse, front.reverse, ?_, by simpa using apart⟩
  rw [← List.reverse_reverse path, split]
  simp

/-- The parent directory of a path, from its last slash. -/
theorem extractDirpath_split {name : Path} (noSlash : slash ∉ name) (front : Path) :
    extractDirpath (front ++ slash :: name) = if front = [] then [slash] else front := by
  have dropped : (front ++ slash :: name).reverse.dropWhile (· ≠ slash) = slash :: front.reverse := by
    rw [List.reverse_append, List.reverse_cons, List.append_assoc,
      List.dropWhile_append_of_pos fun char member => by
        simpa using fun same : char = slash => noSlash (same ▸ List.mem_reverse.mp member)]
    simp
  unfold extractDirpath
  rw [dropped]
  by_cases none : front = []
  · subst none
    rfl
  · rw [if_neg none]
    cases behind : front.reverse with
    | nil => exact absurd (List.reverse_eq_nil_iff.mp behind) none
    | cons char chars =>
      dsimp only
      rw [← behind, List.reverse_reverse]

end FsArchiver
