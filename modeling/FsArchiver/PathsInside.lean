import FsArchiver.ExcludedCalls
import FsArchiver.Excludes
import FsArchiver.Lib.Places

/-!
# Where a restoration can get to

`concatenate_paths` puts the destination in front of a stored path, whose components are not
looked at. So a stored path stays inside its destination, wherever that is, if and only if its
components never lead above their start. Then no call leaves the destination either: the parent
directories are cut off at a slash, and what is cut off a path that does not climb does not climb.
-/
namespace FsArchiver

open Lib

/-- The character `.`. -/
def dot : UInt8 := 0x2e

/-- What a component of a path asks for. -/
def moveOf (component : Path) : Move Path :=
  if component = [] ∨ component = [dot] then .stay
  else if component = [dot, dot] then .up
  else .down component

/-- The components of a path. -/
def movesOf (path : Path) : List (Move Path) := (path.splitOn slash).map moveOf

/-- A path from the root. -/
def isRooted (path : Path) : Bool := decide (path.head? = some slash)

/-- Where a path leads, with `.` and `..` resolved lexically. -/
def placeOf (path : Path) : Place Path := Place.walk (isRooted path) Place.start (movesOf path)

/-- The path leads to the destination or below it. -/
def Inside (destdir path : Path) : Prop :=
  isRooted path = isRooted destdir ∧ Place.Below (placeOf path) (placeOf destdir)

instance (destdir path : Path) : Decidable (Inside destdir path) :=
  inferInstanceAs (Decidable (_ ∧ _))

/-- The components of a path lead above their start on the way. -/
def ClimbsOut (path : Path) : Prop := Place.Climbs (movesOf path)

/-! ## Components -/

section Components

variable {destdir front path rest : Path}

@[simp] theorem movesOf_nil : movesOf [] = [.stay] := rfl

/-- A name stands for itself. -/
theorem eq_of_moveOf {component name : Path} (down : moveOf component = .down name) :
    component = name := by
  unfold moveOf at down
  split at down
  · cases down
  · split at down
    · cases down
    · exact Move.down.inj down

/-- A component is no longer than its path. -/
theorem length_le_of_mem_splitOn {component path : Path} (member : component ∈ path.splitOn slash) :
    component.length ≤ path.length := by
  induction path generalizing component with
  | nil =>
    rw [List.splitOn_nil, List.mem_singleton] at member
    rw [member]
  | cons char path ih =>
    rw [List.splitOn_cons_eq_if_modifyHead] at member
    split at member
    · rcases List.mem_cons.mp member with rfl | member
      · exact Nat.zero_le _
      · exact Nat.le_succ_of_le (ih member)
    · obtain ⟨first, others, split⟩ := List.exists_cons_of_ne_nil (List.splitOn_ne_nil slash path)
      rw [split] at member ih
      rcases List.mem_cons.mp member with rfl | member
      · exact Nat.succ_le_succ (ih List.mem_cons_self)
      · exact Nat.le_succ_of_le (ih (List.mem_cons_of_mem _ member))

/-- The components of two paths with a slash in between. -/
theorem movesOf_append (front rest : Path) :
    movesOf (front ++ slash :: rest) = movesOf front ++ movesOf rest := by
  unfold movesOf
  rw [List.splitOn_append_cons_self, List.map_append]

/-- Slashes in front do not count. -/
theorem walk_dropWhile (rooted : Bool) (place : Place Path) (path : Path) :
    Place.walk rooted place (movesOf (path.dropWhile (· = slash))) =
      Place.walk rooted place (movesOf path) := by
  induction path with
  | nil => rfl
  | cons char path ih =>
    by_cases first : char = slash
    · subst first
      have shorter : (slash :: path).dropWhile (· = slash) = path.dropWhile (· = slash) :=
        List.dropWhile_cons_of_pos (by simp)
      have moves : movesOf (slash :: path) = .stay :: movesOf path := movesOf_append [] path
      rw [shorter, ih, moves]
      rfl
    · rw [List.dropWhile_cons_of_neg (by simpa using first)]

theorem climbsOut_dropWhile (path : Path) :
    ClimbsOut (path.dropWhile (· = slash)) ↔ ClimbsOut path := by
  unfold ClimbsOut Place.Climbs
  rw [walk_dropWhile]

/-- What is cut off at a slash does not climb if the whole does not. -/
theorem ClimbsOut.of_front (climbs : ClimbsOut front) (rest : Path) :
    ClimbsOut (front ++ slash :: rest) := by
  unfold ClimbsOut at climbs ⊢
  rw [movesOf_append]
  exact climbs.append _

/-! ## Below the destination -/

/-- What `concatenate_paths` keeps of the destination. -/
structure IsFront (destdir front : Path) : Prop where
  named : destdir ≠ []
  cut : destdir = front ∨ destdir = front ++ [slash]

/-- `concatenate_paths` as a path below the destination. -/
theorem concatenatePaths_front (named : destdir ≠ []) (stored : Path) :
    ∃ front, IsFront destdir front ∧
      concatenatePaths destdir stored = front ++ slash :: stored.dropWhile (· = slash) := by
  unfold concatenatePaths
  by_cases trailing : destdir.getLast? = some slash
  · refine ⟨destdir.dropLast, ⟨named, .inr ?_⟩, by rw [if_pos trailing]⟩
    have last : destdir.getLast named = slash := by
      rwa [List.getLast?_eq_some_getLast named, Option.some.injEq] at trailing
    rw [← last, List.dropLast_append_getLast named]
  · exact ⟨destdir, ⟨named, .inl rfl⟩, by rw [if_neg trailing]⟩

/-- It leads where the destination leads. -/
theorem IsFront.walk (isFront : IsFront destdir front) (rooted : Bool) :
    Place.walk rooted Place.start (movesOf front) =
      Place.walk rooted Place.start (movesOf destdir) := by
  rcases isFront.cut with rfl | rfl
  · rfl
  · rw [movesOf_append, Place.walk_append]
    rfl

theorem IsFront.isRooted (isFront : IsFront destdir front) (rest : Path) :
    isRooted (front ++ slash :: rest) = FsArchiver.isRooted destdir := by
  unfold FsArchiver.isRooted
  rcases isFront.cut with rfl | rfl
  · rw [List.head?_append_of_ne_nil _ isFront.named]
  · cases front with
    | nil => rfl
    | cons char front => rfl

/-- What does not climb stays below the destination. -/
theorem IsFront.inside (isFront : IsFront destdir front) (level : ¬ClimbsOut rest) :
    Inside destdir (front ++ slash :: rest) := by
  refine ⟨isFront.isRooted rest, ?_⟩
  unfold placeOf
  rw [isFront.isRooted rest, movesOf_append, Place.walk_append, isFront.walk]
  exact Place.below_of_not_climbs level

/-- The destination without its trailing slash, if there is anything left of it. -/
theorem IsFront.self_inside (isFront : IsFront destdir front) (nonempty : front ≠ []) :
    Inside destdir front := by
  have rooted : FsArchiver.isRooted front = FsArchiver.isRooted destdir := by
    unfold FsArchiver.isRooted
    rcases isFront.cut with rfl | rfl
    · rfl
    · rw [List.head?_append_of_ne_nil _ nonempty]
  refine ⟨rooted, ?_⟩
  unfold placeOf
  rw [rooted, isFront.walk]
  exact ⟨rfl, List.prefix_refl _⟩

theorem IsFront.front_isPrefix (isFront : IsFront destdir front) : front <+: destdir := by
  rcases isFront.cut with rfl | rfl
  · exact List.prefix_refl _
  · exact List.prefix_append _ _

/-- The directories that are made for such a path are inside, or they are those on the way to the
destination. -/
theorem IsFront.mkdirPaths_inside (isFront : IsFront destdir front) (level : ¬ClimbsOut rest)
    {buffer : Path} (member : buffer ∈ mkdirPaths (front ++ slash :: rest)) :
    Inside destdir buffer ∨ buffer <+: destdir := by
  obtain ⟨pos, cut, rfl⟩ := List.mem_map.mp member
  obtain ⟨-, cut⟩ := List.mem_filter.mp cut
  simp only [decide_eq_true_eq] at cut
  by_cases short : pos ≤ front.length
  · right
    rw [List.take_append_of_le_length short]
    have cut := List.take_prefix pos front
    exact cut.trans isFront.front_isPrefix
  · left
    obtain ⟨k, rfl⟩ := Nat.exists_eq_add_of_lt (Nat.lt_of_not_le short)
    have taken : (front ++ slash :: rest).take (front.length + k + 1) =
        front ++ slash :: rest.take k := by
      rw [Nat.add_assoc, List.take_length_add_append, List.take_succ_cons]
    rw [taken]
    apply isFront.inside
    rcases cut with here | whole
    · have there : rest[k]? = some slash := by
        rw [Nat.add_assoc, List.getElem?_append_right (Nat.le_add_right _ _),
          Nat.add_sub_cancel_left] at here
        exact here
      obtain ⟨inside, value⟩ := List.getElem?_eq_some_iff.mp there
      have split : rest = rest.take k ++ slash :: rest.drop (k + 1) := by
        rw [← value, List.getElem_cons_drop, List.take_append_drop]
      exact fun climbs => level (split ▸ climbs.of_front _)
    · have all : rest.take k = rest := by
        apply List.take_of_length_le
        rw [List.length_append, List.length_cons] at whole
        omega
      rwa [all]

/-- So is the parent directory itself. -/
theorem IsFront.dirpath_inside (isFront : IsFront destdir front) (level : ¬ClimbsOut rest) :
    Inside destdir (extractDirpath (front ++ slash :: rest)) ∧
      ∀ buffer ∈ mkdirPaths (extractDirpath (front ++ slash :: rest)),
        Inside destdir buffer ∨ buffer <+: destdir := by
  by_cases deeper : slash ∈ rest
  · obtain ⟨above, name, rfl, noSlash⟩ := split_last_slash deeper
    have dirpath : extractDirpath (front ++ slash :: (above ++ slash :: name)) =
        front ++ slash :: above := by
      have split := extractDirpath_split noSlash (front ++ slash :: above)
      rw [if_neg (List.append_ne_nil_of_right_ne_nil _ (List.cons_ne_nil _ _))] at split
      rw [← split, List.append_assoc, List.cons_append]
    have levelAbove : ¬ClimbsOut above := fun climbs => level (climbs.of_front name)
    rw [dirpath]
    exact ⟨isFront.inside levelAbove, fun _ => isFront.mkdirPaths_inside levelAbove⟩
  · rw [extractDirpath_split deeper]
    by_cases none : front = []
    · subst none
      have root : destdir = [slash] := by
        rcases isFront.cut with rfl | rfl
        · exact absurd rfl isFront.named
        · rfl
      subst root
      rw [if_pos rfl]
      refine ⟨⟨rfl, rfl, List.prefix_refl _⟩, fun buffer member => .inr ?_⟩
      obtain ⟨pos, -, rfl⟩ := List.mem_map.mp member
      exact List.take_prefix _ _
    · rw [if_neg none]
      refine ⟨isFront.self_inside none, fun buffer member => .inr ?_⟩
      obtain ⟨pos, -, rfl⟩ := List.mem_map.mp member
      have cut := List.take_prefix pos front
      exact cut.trans isFront.front_isPrefix

/-- A stored path stays inside every destination if and only if it does not climb. -/
theorem inside_iff (stored : Path) :
    (∀ destdir, destdir ≠ [] → Inside destdir (concatenatePaths destdir stored)) ↔
      ¬ClimbsOut stored := by
  constructor
  · intro inside climbs
    -- a destination whose name is longer than the path does not occur in it
    let name := List.replicate (stored.length + 3) (0x61 : UInt8)
    have plain : slash ∉ name := fun member => absurd (List.eq_of_mem_replicate member) (by decide)
    have down : moveOf name = .down name := by
      have long : 3 ≤ name.length := by simp [name]
      have named : ¬(name = [] ∨ name = [dot]) := by
        rintro (short | short) <;> rw [short] at long <;> exact absurd long (by decide)
      have other : name ≠ [dot, dot] := by
        intro short
        rw [short] at long
        exact absurd long (by decide)
      rw [moveOf, if_neg named, if_neg other]
    have moves : movesOf name = [.down name] := by
      rw [movesOf, List.splitOn_eq_singleton plain, List.map_cons, List.map_nil, down]
    have place : placeOf (slash :: name) = ⟨0, [name]⟩ := by
      have split : movesOf (slash :: name) = movesOf [] ++ movesOf name := movesOf_append [] name
      rw [placeOf, split, moves]
      rfl
    have unknown : Move.down name ∉ movesOf stored := by
      intro member
      obtain ⟨component, among, same⟩ := List.mem_map.mp member
      have short := length_le_of_mem_splitOn among
      rw [eq_of_moveOf same, List.length_replicate] at short
      omega
    obtain ⟨front, isFront, path⟩ := concatenatePaths_front (List.cons_ne_nil slash name) stored
    have below := (inside (slash :: name) (List.cons_ne_nil _ _)).2
    rw [path, placeOf, isFront.isRooted, movesOf_append, Place.walk_append, isFront.walk,
      walk_dropWhile] at below
    change Place.Below (Place.walk _ (placeOf (slash :: name)) _) _ at below
    rw [place] at below
    exact Place.not_below_of_climbs unknown climbs below
  · intro level destdir named
    obtain ⟨front, isFront, path⟩ := concatenatePaths_front named stored
    rw [path]
    exact isFront.inside (mt (climbsOut_dropWhile stored).mp level)

end Components

/-! ## Calls -/

/-- The call stays inside the destination; the directories on the way to it may be made. -/
def SysCall.StaysInside (destdir : Path) : SysCall → Prop
  | .mkdir path => Inside destdir path ∨ path <+: destdir
  | .link target path => Inside destdir target ∧ Inside destdir path
  | call => Inside destdir call.path

/-- The paths stored in a header to which `concatenate_paths` is applied. -/
def storedPaths (ctx : Context) (head : Dico) : List Path :=
  (readPath ctx.mem head ItemKey.path).toList ++
    if dicoGetU32 ctx.mem head Section.stdattr ItemKey.objtype = some ObjType.hardlink.code then
      (readTarget head ItemKey.hardlink).toList
    else []

/-- A restoration of the objects of this header, in any state of the system, stays inside: all
paths that are built lead to the destination or below it, and so do all calls. -/
structure RestoresInside (ctx : Context) (d : Dico) (queue : List QueueData) : Prop where
  built : ∀ head ∈ handledHeaders ctx d queue, ∀ stored ∈ storedPaths ctx head,
    Inside ctx.destdir (concatenatePaths ctx.destdir stored)
  calls : ∀ os exar, exar.queue = queue → ∀ made,
    (extractarRestoreObject { ctx with os } exar d).2.log = exar.log ++ made →
      ∀ entry ∈ made, entry.1.StaysInside ctx.destdir

section Calls

variable {ctx : Context} {destdir stored : Path}

/-- The calls for the path of an object that does not climb. -/
theorem calls_inside (named : destdir ≠ []) (level : ¬ClimbsOut stored) :
    Attends (fun entry => entry.1.StaysInside destdir) (concatenatePaths destdir stored) ∧
      Fills (fun entry => entry.1.StaysInside destdir) (concatenatePaths destdir stored) ∧
      Makes (fun entry => entry.1.StaysInside destdir) (concatenatePaths destdir stored) := by
  obtain ⟨front, isFront, path⟩ := concatenatePaths_front named stored
  have levelRest := mt (climbsOut_dropWhile stored).mp level
  have inside := isFront.inside levelRest
  obtain ⟨dirpath, above⟩ := isFront.dirpath_inside levelRest
  have made := @IsFront.mkdirPaths_inside _ _ _ isFront levelRest
  rw [← path] at inside dirpath above made
  refine ⟨?_, ?_, ?_⟩
  · exact {
      lchown := fun _ _ _ => inside
      chmod := fun _ _ => inside
      utimes := fun _ _ _ => inside
      lutimes := fun _ _ _ => inside
      lsetxattr := fun _ _ _ => inside
      mkdir := fun buffer member _ => above buffer member
      parent := fun _ _ _ => dirpath }
  · exact {
      create := fun _ => inside
      write := fun _ _ => inside
      lseek := fun _ _ => inside
      ftruncate := fun _ => inside
      close := fun _ => inside
      truncate := fun _ => inside
      unlink := fun _ => inside }
  · exact {
      mkdir := fun buffer member _ => made member
      symlink := fun _ _ => inside
      creat := fun _ => inside
      mknod := fun _ _ _ => inside }

/-- The path of an object is stored in its header. -/
theorem path_mem_storedPaths {head : Dico} (read : readPath ctx.mem head ItemKey.path = some stored) :
    stored ∈ storedPaths ctx head := by
  unfold storedPaths
  rw [read]
  exact List.mem_append_left _ List.mem_cons_self

/-- So is the target of a hard link. -/
theorem target_mem_storedPaths {head : Dico}
    (type : dicoGetU32 ctx.mem head Section.stdattr ItemKey.objtype = some ObjType.hardlink.code)
    (read : readTarget head ItemKey.hardlink = some stored) :
    stored ∈ storedPaths ctx head := by
  unfold storedPaths
  rw [if_pos type, read]
  exact List.mem_append_right _ List.mem_cons_self

/-- A header that is not that of a pack is handled alone. -/
theorem mem_handledHeaders {d : Dico} {type : ObjType} (queue : List QueueData)
    (typed : dicoGetU32 ctx.mem d Section.stdattr ItemKey.objtype = some type.code)
    (alone : type.code ≠ ObjType.regfilemulti.code) : d ∈ handledHeaders ctx d queue := by
  unfold handledHeaders
  rw [typed, if_neg fun same => alone (Option.some.inj same)]
  exact List.mem_cons_self

end Calls

/-- The header of an empty file whose path is `/../x`. -/
def climbingFile : Dico :=
  dicoAddAll Dico.alloc
    [dicoAddString Section.stdattr ItemKey.path [slash, dot, dot, slash, 0x78],
      dicoAddU32 Section.stdattr ItemKey.objtype ObjType.regfileunique.code,
      dicoAddU64 Section.stdattr ItemKey.size 0]

end FsArchiver
