import FsArchiver.ObjectHeaders

/-!
# Excluding when saving and when restoring

A walk leaves out an object with all that is below it, as soon as its name or its path is
excluded. `is_filedir_excluded` starts at the other end: it strips the stored path, one name
after the other. Both ask about the same names and paths.
-/
namespace FsArchiver

/-! ## The loop of `is_filedir_excluded` -/

/-- The inner loop at `pos + 1`: characters up to a slash become NUL. -/
def cutName (dirpath : List UInt8) : Nat → List UInt8 × Nat
  | 0 => (dirpath, 0)
  | pos + 1 =>
    if dirpath[pos]? = some slash then (dirpath, pos + 1) else cutName (dirpath.set pos 0) pos

/-- The outer loop at `pos + 1`, for at most so many rounds: whether a parent directory is
excluded. -/
def stripLoop (exclude : Path → Bool) : Nat → List UInt8 → Nat → Option Bool
  | 0, _, _ => none
  | fuel + 1, dirpath, pos =>
    -- `while (pos>0)`
    if pos ≤ 1 then some false
    else
      let (dirpath, pos) := cutName dirpath pos
      let dirpath := if pos > 1 ∧ dirpath[pos - 1]? = some slash then dirpath.set (pos - 1) 0
        else dirpath
      let basename := extractBasename (cString dirpath)
      if (cString dirpath).length > 1 ∧ basename.length > 0 ∧
          (exclude basename ∨ exclude (cString dirpath)) then some true
      else stripLoop exclude fuel dirpath pos

/-- `is_filedir_excluded` with its loop over the characters of a buffer; nothing if the loop does
not end. -/
def isFiledirExcludedRun (exclude : Path → Bool) (relpath : Path) : Option Bool :=
  if exclude (extractBasename relpath) || exclude relpath then some true
  else stripLoop exclude (relpath.length + 1) (relpath ++ [0]) (relpath.length + 1)

/-! ## The loop ends -/

/-- The inner loop clears what has no slash. -/
theorem cutName_clear (front : List UInt8) {name : List UInt8} (noSlash : slash ∉ name)
    (tail : List UInt8) :
    cutName (front ++ name ++ tail) (front.length + name.length) =
      cutName (front ++ List.replicate name.length 0 ++ tail) front.length := by
  induction name using List.reverseRecOn generalizing tail with
  | nil => simp
  | append_singleton name char ih =>
    simp only [List.mem_append, List.mem_singleton, not_or] at noSlash
    have here : (front ++ (name ++ [char]) ++ tail)[front.length + name.length]? = some char := by
      simp
    have cleared : (front ++ (name ++ [char]) ++ tail).set (front.length + name.length) 0 =
        front ++ name ++ 0 :: tail := by
      simp [List.set_append_right]
    rw [List.length_append, List.length_singleton, ← Nat.add_assoc, cutName, here, if_neg
      (by simpa using Ne.symm noSlash.2), cleared, ih noSlash.1, List.replicate_succ']
    simp

/-- The inner loop stops at a slash. -/
theorem cutName_slash (front : List UInt8) (tail : List UInt8) :
    cutName (front ++ slash :: tail) (front.length + 1) = (front ++ slash :: tail, front.length + 1) := by
  rw [cutName, if_pos (by simp)]

/-- A path without a slash has no parent directory. -/
theorem parentPaths_of_noSlash {path : Path} (noSlash : slash ∉ path) : parentPaths path = [] := by
  unfold parentPaths
  rw [List.map_eq_nil_iff, List.filter_eq_nil_iff]
  intro pos _ found
  simp only [decide_eq_true_eq] at found
  exact noSlash (List.mem_of_getElem? found.2)

/-- The parent directory of a path, and its parents. -/
theorem parentPaths_append (front : Path) {name : Path} (noSlash : slash ∉ name) :
    parentPaths (front ++ slash :: name) =
      (if front = [] then [] else [front]) ++ parentPaths front := by
  have positions : List.range (front ++ slash :: name).length =
      List.range front.length ++ (front.length :: (List.range name.length).map
        (fun pos => front.length + (pos + 1))) := by
    rw [List.length_append, List.length_cons, List.range_add, List.range_succ_eq_map]
    simp [Function.comp_def]
  unfold parentPaths
  rw [positions, List.reverse_append, List.reverse_cons, List.filter_append, List.filter_append,
    List.map_append, List.map_append]
  have behind : ((List.range name.length).map fun pos => front.length + (pos + 1)).reverse.filter
      (fun pos => decide (0 < pos ∧ (front ++ slash :: name)[pos]? = some slash)) = [] := by
    rw [List.filter_eq_nil_iff]
    intro pos member found
    obtain ⟨pos, -, rfl⟩ := List.mem_map.mp (List.mem_reverse.mp member)
    simp only [decide_eq_true_eq] at found
    rw [List.getElem?_append_right (by omega)] at found
    have inName : name[pos]? = some slash := by simpa using found.2
    exact noSlash (List.mem_of_getElem? inName)
  rw [behind, List.map_nil, List.nil_append]
  congr 1
  · by_cases empty : front = []
    · simp [empty]
    · have positive := List.length_pos_iff.mpr empty
      simp [empty, positive]
  · have same : (List.range front.length).reverse.filter
        (fun pos => decide (0 < pos ∧ (front ++ slash :: name)[pos]? = some slash)) =
        (List.range front.length).reverse.filter
          (fun pos => decide (0 < pos ∧ front[pos]? = some slash)) := by
      refine List.filter_congr fun pos member => ?_
      have inside : pos < front.length := by simpa using member
      rw [List.getElem?_append_left inside]
    rw [same]
    refine List.map_congr_left fun pos member => ?_
    have inside : pos < front.length := by simpa using (List.mem_filter.mp member).1
    exact List.take_append_of_le_length (by omega)

/-- The test of `is_filedir_excluded` for a parent directory. -/
def parentExcluded (exclude : Path → Bool) (dirpath : Path) : Bool :=
  decide (dirpath.length > 1) && decide ((extractBasename dirpath).length > 0) &&
    (exclude (extractBasename dirpath) || exclude dirpath)

/-- The outer loop ends, and looks at every parent directory. -/
theorem stripLoop_eq (exclude : Path → Bool) {fuel : Nat} {path : Path} (clean : 0 ∉ path)
    (enough : path.length < fuel) (tail : List UInt8) :
    stripLoop exclude fuel (path ++ 0 :: tail) (path.length + 1) =
      some ((parentPaths path).any (parentExcluded exclude)) := by
  induction fuel generalizing path tail with
  | zero => omega
  | succ fuel ih =>
    by_cases member : slash ∈ path
    · obtain ⟨front, name, rfl, noSlash⟩ := split_last_slash member
      have cleanFront : 0 ∉ front := fun inside => clean (List.mem_append_left _ inside)
      have cut : cutName (front ++ slash :: name ++ 0 :: tail) ((front ++ slash :: name).length + 1) =
          (front ++ slash :: (List.replicate (name.length + 1) 0 ++ tail), front.length + 1) := by
        have clear := @cutName_clear (front ++ [slash]) (name ++ [0])
            (by simpa [slash] using noSlash) tail
        have stop := cutName_slash front (List.replicate (name.length + 1) 0 ++ tail)
        simp only [List.append_assoc, List.cons_append, List.nil_append, List.length_append,
          List.length_cons, List.length_nil, Nat.zero_add] at clear stop ⊢
        rw [← stop, ← clear]
        congr 1
        omega
      have positive : 1 ≤ fuel := by
        simp only [List.length_append, List.length_cons] at enough
        omega
      rw [stripLoop, if_neg (by simp), cut, parentPaths_append front noSlash]
      by_cases empty : front = []
      · -- the slash at the start stays, and the loop is at its end
        subst empty
        obtain ⟨fuel, rfl⟩ := Nat.exists_eq_add_of_le' positive
        have root : cString (slash :: (List.replicate (name.length + 1) 0 ++ tail)) = [slash] :=
          @cString_buffer [slash] (by decide) (List.replicate name.length 0 ++ tail)
        simp [root, stripLoop, parentPaths]
      · have long := List.length_pos_iff.mpr empty
        have stripped : (front ++ slash :: (List.replicate (name.length + 1) 0 ++ tail)).set
            front.length 0 = front ++ 0 :: (List.replicate (name.length + 1) 0 ++ tail) := by
          simp
        have atSlash : (front ++ slash :: (List.replicate (name.length + 1) 0 ++ tail))[front.length]? =
            some slash := by simp
        have onward := ih cleanFront
          (by simp only [List.length_append, List.length_cons] at enough; omega)
          (List.replicate (name.length + 1) 0 ++ tail)
        simp only [Nat.add_sub_cancel, atSlash, show front.length + 1 > 1 by omega, and_self,
          ↓reduceIte, stripped, cString_buffer cleanFront, onward, empty, List.cons_append,
          List.nil_append, List.any_cons]
        have asked : parentExcluded exclude front = true ↔ front.length > 1 ∧
            (extractBasename front).length > 0 ∧
            (exclude (extractBasename front) = true ∨ exclude front = true) := by
          simp [parentExcluded, and_assoc]
        split
        next hit => rw [asked.mpr hit, Bool.true_or]
        next missed =>
          have other : parentExcluded exclude front = false := by
            simpa using mt asked.mp missed
          rw [other, Bool.false_or]
    · have cut : cutName (path ++ 0 :: tail) (path.length + 1) =
          (List.replicate (path.length + 1) 0 ++ tail, 0) := by
        have clear := @cutName_clear [] (path ++ [0]) (by simpa [slash] using member) tail
        simpa [cutName] using clear
      have nothing : cString (List.replicate (path.length + 1) 0 ++ tail) = [] :=
        @cString_buffer [] (by simp) (List.replicate path.length 0 ++ tail)
      rw [parentPaths_of_noSlash member, List.any_nil]
      by_cases empty : path = []
      · rw [stripLoop, if_pos (by simp [empty])]
      · have long := List.length_pos_iff.mpr empty
        obtain ⟨fuel, rfl⟩ := Nat.exists_eq_add_of_le' (show 1 ≤ fuel by omega)
        rw [stripLoop, if_neg (by omega), cut]
        simp [nothing, stripLoop]

/-- What `is_filedir_excluded` asks about. -/
theorem isFiledirExcluded_eq (exclude : Path → Bool) (relpath : Path) :
    isFiledirExcluded exclude relpath =
      (exclude (extractBasename relpath) || exclude relpath ||
        (parentPaths relpath).any (parentExcluded exclude)) := rfl

/-- `is_filedir_excluded` ends, with this result. -/
theorem isFiledirExcludedRun_eq (exclude : Path → Bool) {relpath : Path} (clean : 0 ∉ relpath) :
    isFiledirExcludedRun exclude relpath = some (isFiledirExcluded exclude relpath) := by
  have loop := stripLoop_eq exclude clean (Nat.lt_succ_self relpath.length) []
  unfold isFiledirExcludedRun isFiledirExcluded
  rw [loop]
  cases exclude (extractBasename relpath) || exclude relpath with
  | true => rfl
  | false => rfl

/-! ## What a walk asks about -/

/-- Whether an object is excluded at one of these names or above, given the names before them. -/
def excludedBelow (exclude : Path → Bool) : List Path → List Path → Bool
  | _, [] => false
  | above, name :: names =>
    exclude name || exclude (joined (above ++ [name])) ||
      excludedBelow exclude (above ++ [name]) names

/-- The questions about the names in two parts. -/
theorem excludedBelow_append (exclude : Path → Bool) (above names names' : List Path) :
    excludedBelow exclude above (names ++ names') =
      (excludedBelow exclude above names || excludedBelow exclude (above ++ names) names') := by
  induction names generalizing above with
  | nil => simp [excludedBelow]
  | cons name names ih =>
    rw [List.cons_append, excludedBelow, excludedBelow, ih, Bool.or_assoc, List.append_assoc,
      List.singleton_append]
    simp [Bool.or_assoc]

/-- The last name of a path. -/
theorem extractBasename_joined (names : List Path) {name : Path} (isName : IsName name) :
    extractBasename (joined (names ++ [name])) = name := by
  have own : name.reverse.takeWhile (· ≠ slash) = name.reverse := by
    refine List.takeWhile_eq_self_iff.mpr fun char member => ?_
    have other : char ≠ slash := by
      rintro rfl
      exact isName.noSlash (List.mem_reverse.mp member)
    simpa using other
  unfold extractBasename
  rw [joined_append, joined_cons, joined_nil, List.append_nil, List.reverse_append,
    List.reverse_cons, List.append_assoc, List.takeWhile_append, own, if_pos rfl]
  simp

/-- The test for a parent directory asks about its name and its path. -/
theorem parentExcluded_joined (exclude : Path → Bool) {names : List Path}
    (areNames : ∀ name ∈ names, IsName name) (nonempty : names ≠ []) :
    parentExcluded exclude (joined names) =
      (exclude (extractBasename (joined names)) || exclude (joined names)) := by
  obtain ⟨before, name, rfl⟩ := List.eq_nil_or_concat names |>.resolve_left nonempty
  have isName := areNames name (by simp)
  have long := List.length_pos_iff.mpr isName.nonempty
  have base := extractBasename_joined before isName
  rw [List.concat_eq_append] at *
  have room : (joined (before ++ [name])).length > 1 := by
    simp only [joined_append, joined_cons, joined_nil, List.length_append, List.length_cons,
      List.length_nil]
    omega
  unfold parentExcluded
  rw [base, decide_eq_true room, decide_eq_true long]
  rfl

/-- `is_filedir_excluded` asks about every name on the way to an object. -/
theorem isFiledirExcluded_joined (exclude : Path → Bool) {names : List Path}
    (areNames : ∀ name ∈ names, IsName name) (nonempty : names ≠ []) :
    isFiledirExcluded exclude (joined names) = excludedBelow exclude [] names := by
  induction names using List.reverseRecOn with
  | nil => exact absurd rfl nonempty
  | append_singleton names name ih =>
    have isName := areNames name (by simp)
    have before : ∀ name' ∈ names, IsName name' := fun name' member =>
      areNames name' (List.mem_append_left _ member)
    have split : joined (names ++ [name]) = joined names ++ slash :: name := by simp
    have parents := parentPaths_append (joined names) isName.noSlash
    have own : isFiledirExcluded exclude (joined (names ++ [name])) =
        (exclude name || exclude (joined (names ++ [name])) ||
          (parentPaths (joined (names ++ [name]))).any (parentExcluded exclude)) := by
      rw [isFiledirExcluded_eq, extractBasename_joined names isName]
    rw [excludedBelow_append, own]
    by_cases first : names = []
    · subst first
      have none : parentPaths (joined ([] ++ [name])) = [] := by
        rw [split, parents]
        rfl
      rw [none]
      simp [excludedBelow]
    · have above := ih before first
      have asked := parentExcluded_joined exclude before first
      have more : joined names ≠ [] := by
        cases names with
        | nil => exact absurd rfl first
        | cons name' names => simp
      have whole : (parentPaths (joined (names ++ [name]))).any (parentExcluded exclude) =
          excludedBelow exclude [] names := by
        rw [split, parents, if_neg more, List.cons_append, List.nil_append, List.any_cons, asked,
          ← above]
        rfl
      rw [whole]
      simp [excludedBelow, Bool.or_comm]

/-! ## Both ask about the same -/

/-- Nothing is excluded. -/
def SaveOptions.excludeNothing (opts : SaveOptions) : SaveOptions :=
  { opts with exclude := fun _ => false }

@[simp] theorem SaveOptions.exclude_excludeNothing (opts : SaveOptions) (path : Path) :
    opts.excludeNothing.exclude path = false := rfl

@[simp] theorem SaveOptions.allowsaverw_excludeNothing (opts : SaveOptions) :
    opts.excludeNothing.allowsaverw = opts.allowsaverw := rfl

/-- The objects of an entry that is kept are the kept ones of all its objects. -/
theorem mem_objectVisits_kept {exclude : Path → Bool} {relpath path : Path} {statbuf st : Stat}
    {calls calls' : ObjectCalls} {dir : DirCalls} {inside all : List Visit}
    (own : isFiledirExcluded exclude relpath = false)
    (below : .object path st calls' ∈ inside ↔
      .object path st calls' ∈ all ∧ isFiledirExcluded exclude path = false) :
    .object path st calls' ∈ objectVisits relpath statbuf calls dir inside ↔
      .object path st calls' ∈ objectVisits relpath statbuf calls dir all ∧
        isFiledirExcluded exclude path = false := by
  have self : path = relpath → isFiledirExcluded exclude path = false := by
    rintro rfl
    exact own
  unfold objectVisits directoryVisits
  by_cases isDir : statbuf.fileType = .dir
  · rw [if_pos isDir, if_pos isDir]
    cases dir.opendir with
    | false => simp
    | true =>
      cases dir.lstat with
      | none => simp
      | some statbuf' =>
        simp only [Bool.not_true, Bool.false_eq_true, ↓reduceIte, List.mem_cons,
          Visit.object.injEq, below]
        constructor
        · rintro (⟨rfl, here⟩ | ⟨inside, kept⟩)
          · exact ⟨.inl ⟨rfl, here⟩, own⟩
          · exact ⟨.inr inside, kept⟩
        · rintro ⟨here | inside, kept⟩
          · exact .inl here
          · exact .inr ⟨inside, kept⟩
  · rw [if_neg isDir, if_neg isDir, List.mem_singleton, Visit.object.injEq]
    exact ⟨fun here => ⟨here, self here.1⟩, And.left⟩

/-- The objects of an excluded entry are excluded: its own, and those inside. -/
theorem excluded_of_mem_objectVisits {exclude : Path → Bool} {opts : SaveOptions}
    {relpath path : Path} {statbuf st : Stat} {calls calls' : ObjectCalls} {dir : DirCalls}
    {sub : DirStream} {names : List Path} (areNames : ∀ name ∈ names, IsName name)
    (here : relpath = joined names) (nonempty : names ≠ []) (wellNamed : sub.WellNamed)
    (excluded : excludedBelow exclude [] names = true)
    (member : .object path st calls' ∈
      objectVisits relpath statbuf calls dir (entryVisits opts relpath sub)) :
    isFiledirExcluded exclude path = true := by
  have own : isFiledirExcluded exclude relpath = true := by
    rw [here, isFiledirExcluded_joined exclude areNames nonempty, excluded]
  have inside : .object path st calls' ∈ entryVisits opts relpath sub →
      isFiledirExcluded exclude path = true := by
    intro among
    obtain ⟨name, more, areNames', -, rfl⟩ :=
      path_of_entryVisits wellNamed path (List.mem_filterMap.mpr ⟨_, among, rfl⟩)
    have all : ∀ name' ∈ names ++ name :: more, IsName name' := by
      intro name' among'
      exact (List.mem_append.mp among').elim (areNames name') (areNames' name')
    have path' : trimmed relpath = joined names := by
      rw [here]
      exact trimmed_joined [] areNames nonempty
    rw [path', ← joined_append, isFiledirExcluded_joined exclude all (by simp),
      excludedBelow_append, excluded, Bool.true_or]
  unfold objectVisits directoryVisits at member
  by_cases isDir : statbuf.fileType = .dir
  · rw [if_pos isDir] at member
    cases opened : dir.opendir with
    | false => simp [opened] at member
    | true =>
      cases lstat : dir.lstat with
      | none => simp [opened, lstat] at member
      | some statbuf' =>
        simp only [opened, lstat, Bool.not_true, Bool.false_eq_true, ↓reduceIte, List.mem_cons,
          Visit.object.injEq] at member
        rcases member with ⟨rfl, -⟩ | among
        · exact own
        · exact inside among
  · rw [if_neg isDir, List.mem_singleton, Visit.object.injEq] at member
    exact member.1 ▸ own

/-- Below a directory with these names on the way to it, of which none is excluded, a walk visits
the objects that `is_filedir_excluded` keeps. -/
theorem mem_entryVisits_iff (opts : SaveOptions) {above : List Path} {path : Path}
    {stream : DirStream} (areNames : ∀ name ∈ above, IsName name)
    (here : trimmed path = joined above) (wellNamed : stream.WellNamed)
    (kept : excludedBelow opts.exclude [] above = false) {relpath : Path} {st : Stat}
    {calls : ObjectCalls} :
    .object relpath st calls ∈ entryVisits opts path stream ↔
      .object relpath st calls ∈ entryVisits opts.excludeNothing path stream ∧
        isFiledirExcluded opts.exclude relpath = false := by
  induction stream generalizing above path with
  | eof => simp [entryVisits]
  | entry name lstat calls' dir sub rest ihSub ihRest =>
    obtain ⟨isName, -, namedSub, namedRest⟩ := wellNamed
    have onward := ihRest areNames here namedRest kept
    cases lstat with
    | none =>
      cases ignored : opts.allowsaverw with
      | true =>
        simp only [entryVisits, SaveOptions.allowsaverw_excludeNothing, ignored, ↓reduceIte]
        exact onward
      | false => simp [entryVisits, ignored]
    | some statbuf =>
      have relpath' : concatenatePaths path name = joined (above ++ [name]) := by
        rw [concatenatePaths_name path isName, here, joined_append]
      have areNames' : ∀ name' ∈ above ++ [name], IsName name' := by
        intro name' among
        rcases List.mem_append.mp among with among | among
        · exact areNames name' among
        · exact List.mem_singleton.mp among ▸ isName
      have here' : trimmed (concatenatePaths path name) = joined (above ++ [name]) := by
        rw [relpath']
        exact trimmed_joined [] areNames' (by simp)
      have asked : excludedBelow opts.exclude [] (above ++ [name]) =
          (opts.exclude name || opts.exclude (concatenatePaths path name)) := by
        rw [excludedBelow_append, kept, relpath']
        simp [excludedBelow]
      simp only [entryVisits, SaveOptions.exclude_excludeNothing, Bool.or_self, Bool.false_eq_true,
        ↓reduceIte, List.mem_append, or_and_right]
      rw [← onward]
      cases question : opts.exclude name || opts.exclude (concatenatePaths path name) with
      | true =>
        rw [if_pos rfl, or_iff_right]
        rintro ⟨member, kept'⟩
        rw [excluded_of_mem_objectVisits areNames' relpath' (by simp) namedSub
          (asked.trans question) member] at kept'
        cases kept'
      | false =>
        have own := isFiledirExcluded_joined opts.exclude areNames' (by simp)
        rw [← relpath', asked, question] at own
        rw [if_neg (by decide), List.mem_append]
        exact or_congr_left (mem_objectVisits_kept own
          (ihSub areNames' here' namedSub (asked.trans question)))

/-- Below the root a walk with an exclude list visits what `is_filedir_excluded` keeps. -/
theorem mem_treeVisits_iff (opts : SaveOptions) {dir : DirCalls} {entries : DirStream}
    (wellNamed : entries.WellNamed) {relpath : Path} (nonRoot : relpath ≠ [slash]) {st : Stat}
    {calls : ObjectCalls} :
    .object relpath st calls ∈ treeVisits opts [slash] dir entries ↔
      .object relpath st calls ∈ treeVisits opts.excludeNothing [slash] dir entries ∧
        isFiledirExcluded opts.exclude relpath = false := by
  have below := @mem_entryVisits_iff opts [] [slash] entries (by simp) rfl wellNamed rfl relpath st
    calls
  unfold treeVisits directoryVisits
  cases dir.opendir with
  | false => simp
  | true =>
    cases dir.lstat with
    | none => simp
    | some statbuf => simpa [nonRoot] using below

/-! ## What is archived -/

/-- `exclude_check`, with `fnmatch` as a predicate on patterns and strings. -/
def excludeCheck {Pattern : Type} (fnmatch : Pattern → Path → Bool) (patlist : List Pattern)
    (string : Path) : Bool :=
  patlist.any fun pattern => fnmatch pattern string

/-- Every call on an object succeeds. -/
structure ObjectCalls.Succeed (fstype : Filesys) (relpath : Path) (st : Stat)
    (calls : ObjectCalls) : Prop where
  /-- It is not the archive itself. -/
  notCurvol : calls.isCurvol = false
  /-- `S_IFMT` is one of the known types. -/
  known : st.fileType ≠ .other
  /-- `readlink` and the calls for attributes. -/
  attrs : attrsOk fstype relpath st calls = true
  /-- `open64` and `read` of a regular file. -/
  opened : st.fileType = .reg → ∃ file, calls.openFile = some file ∧
    ∀ pos count, (file pos count).isSome

/-- A visit that does not end the walk. -/
def Visit.GoesOn : Visit → Prop
  | .object _ st calls => calls.isCurvol = true ∨ st.fileType ≠ .other
  | .stop => False

/-- An object of a known type has a type in the archive. -/
theorem objectType_known {opts : SaveOptions} {save : Savear} {st : Stat}
    (known : st.fileType ≠ .other) : objectType opts save st ≠ .null := by
  unfold objectType
  cases type : st.fileType with
  | other => exact absurd type known
  | reg =>
    dsimp only
    split
    · decide
    · unfold regfileType
      split <;> decide
  | dir | lnk | chr | blk | fifo | sock => simp

/-- Contents are read from regular files only. -/
theorem isReg_of_objectType {opts : SaveOptions} {save : Savear} {st : Stat}
    (contents : objectType opts save st = .regfileunique ∨ objectType opts save st = .regfilemulti) :
    st.fileType = .reg := by
  unfold objectType at contents
  cases type : st.fileType with
  | reg => rfl
  | dir | lnk | chr | blk | fifo | sock | other => simp [type] at contents

/-- An object whose calls succeed adds its header. -/
theorem ObjectCalls.Succeed.produced {md5 : Md5} {opts : SaveOptions} {save : Savear}
    {relpath : Path} {st : Stat} {calls : ObjectCalls}
    (succeed : calls.Succeed save.fstype relpath st) :
    ∃ d, d ∈ (produced md5 opts save relpath st calls).1.dicos := by
  have known := @objectType_known opts save _ succeed.known
  unfold FsArchiver.produced
  rw [if_neg (by simp [succeed.notCurvol, known, succeed.attrs])]
  cases type : objectType opts save st with
  | regfileunique =>
    obtain ⟨file, opened, -⟩ := succeed.opened (isReg_of_objectType (.inl type))
    simp only [producedContents, opened]
    split
    · exact ⟨_, List.mem_singleton_self _⟩
    · exact ⟨_, List.mem_singleton_self _⟩
  | regfilemulti =>
    obtain ⟨file, opened, read⟩ := succeed.opened (isReg_of_objectType (.inr type))
    obtain ⟨bytes, got⟩ := Option.isSome_iff_exists.mp (read 0 st.size.toNat)
    simp only [producedContents, opened, readFile, got, Option.map_some]
    exact ⟨_, List.mem_singleton_self _⟩
  | null => exact absurd type known
  | dir | symlink | hardlink | chardev | blockdev | fifo | socket =>
    cases calls.openFile with
    | none => exact ⟨_, List.mem_singleton_self _⟩
    | some file => exact ⟨_, List.mem_singleton_self _⟩

/-- The path of an object is read from the header that its visit adds. -/
theorem readPath_produced {mem : Mem} {md5 : Md5} {opts : SaveOptions} {save : Savear}
    {relpath : Path} {st : Stat} {calls : ObjectCalls} {d : Dico} (short : relpath.length < pathMax)
    (clean : 0 ∉ relpath) (member : d ∈ (produced md5 opts save relpath st calls).1.dicos) :
    readPath mem d ItemKey.path = some relpath := by
  have stored := find_objectDico_std opts save relpath st calls
    (dicoAddString Section.stdattr ItemKey.path relpath) (by simp [stdattrCalls])
  exact readPath_of_find (find_produced member stored) short clean

section Walk

variable {mem : Mem} {md5 : Md5} {opts : SaveOptions}

/-- The headers of a walk have paths that are visited. -/
theorem visited_of_produced {visits : List Visit}
    (paths : ∀ relpath ∈ visitedPaths visits, relpath.length < pathMax ∧ 0 ∉ relpath)
    {save : Savear} {made : Produced × Bool} (among : made ∈ visitsProduced mem md5 opts visits save)
    {d : Dico} (member : d ∈ made.1.dicos) {relpath : Path}
    (read : readPath mem d ItemKey.path = some relpath) : relpath ∈ visitedPaths visits := by
  induction visits generalizing save with
  | nil => cases among
  | cons visit rest ih =>
    cases visit with
    | stop => cases among
    | object relpath' st calls =>
      have later : ∀ path ∈ visitedPaths rest, path.length < pathMax ∧ 0 ∉ path :=
        fun path later => paths path (List.mem_cons_of_mem _ later)
      rcases List.mem_cons.mp among with rfl | among
      · obtain ⟨short, clean⟩ := paths relpath' List.mem_cons_self
        have own := @readPath_produced mem _ _ _ _ _ _ _ short clean member
        rw [read] at own
        cases own
        exact List.mem_cons_self
      · split at among
        · cases among
        · exact List.mem_cons_of_mem _ (ih later among)

/-- The objects of a walk that does not end early have headers if their calls succeed. -/
theorem produced_of_visited (sizes : opts.FromCmdline) {visits : List Visit}
    (goesOn : ∀ visit ∈ visits, visit.GoesOn) {save : Savear} {files : List PackEntry}
    (pends : Pends opts save files) {relpath : Path} {st : Stat} {calls : ObjectCalls}
    (visited : .object relpath st calls ∈ visits) (succeed : calls.Succeed save.fstype relpath st)
    (short : relpath.length < pathMax) (clean : 0 ∉ relpath) :
    ∃ made ∈ visitsProduced mem md5 opts visits save, ∃ d ∈ made.1.dicos,
      readPath mem d ItemKey.path = some relpath := by
  induction visits generalizing save files with
  | nil => cases visited
  | cons visit rest ih =>
    cases visit with
    | stop => exact absurd (goesOn _ List.mem_cons_self) not_false
    | object relpath' st' calls' =>
      obtain ⟨ran, adds⟩ := @createarSaveFile_adds mem md5 _ _ _ pends sizes relpath' st' calls'
      have here : (createarSaveFile mem md5 opts save relpath' st' calls' false).1 = true := by
        rw [ran]
        rcases goesOn _ List.mem_cons_self with curvol | known
        · rw [curvol, Bool.true_or]
        · rw [decide_eq_true (objectType_known known), Bool.or_true]
      unfold visitsProduced
      rcases List.mem_cons.mp visited with same | later
      · cases same
        obtain ⟨d, member⟩ := @ObjectCalls.Succeed.produced md5 opts _ _ _ _ succeed
        exact ⟨_, List.mem_cons_self, d, member, readPath_produced short clean member⟩
      · cases step : createarSaveFile mem md5 opts save relpath' st' calls' false with
        | mk ok save' =>
          rw [step] at here adds
          cases here
          have same : save'.fstype = save.fstype := adds.fstype
          obtain ⟨made, among, found⟩ := ih
            (fun visit member => goesOn visit (List.mem_cons_of_mem _ member)) adds.pends later
            (by rw [same]; exact succeed)
          exact ⟨made, List.mem_cons_of_mem _ among, found⟩

end Walk

/-- Paths that are visited below the root have no NUL. -/
theorem clean_of_visited {opts : SaveOptions} {dir : DirCalls} {entries : DirStream}
    (wellNamed : entries.WellNamed) {relpath : Path}
    (visited : relpath ∈ visitedPaths (treeVisits opts [slash] dir entries)) : 0 ∉ relpath := by
  have either : relpath = [slash] ∨ relpath ∈ visitedPaths (entryVisits opts [slash] entries) := by
    unfold treeVisits directoryVisits at visited
    cases opened : dir.opendir with
    | false => simp [opened, visitedPaths] at visited
    | true =>
      cases lstat : dir.lstat with
      | none => simp [opened, lstat, visitedPaths, Visit.path?] at visited
      | some statbuf => simpa [opened, lstat, visitedPaths, Visit.path?] using visited
  rcases either with rfl | member
  · decide
  · obtain ⟨name, names, areNames, -, rfl⟩ := path_of_entryVisits wellNamed relpath member
    intro inside
    have among : 0 ∈ joined (name :: names) := by simpa [trimmed] using inside
    obtain ⟨name', member', char⟩ := List.mem_flatMap.mp among
    rcases List.mem_cons.mp char with zero | char
    · exact absurd zero (by decide)
    · exact (areNames name' member').noNul char

/-- The walk with an exclude list, and what it adds to the queue. -/
def excludedSave (mem : Mem) (md5 : Md5) (opts : SaveOptions) (exclude : Path → Bool)
    (save : Savear) (dir : DirCalls) (entries : DirStream) : Savear :=
  (createarSaveDirectoryWrapper mem md5 { opts with exclude } false save [slash] dir entries).2

/-- Excluding at save time and at restore time agree: for what is archived below the root
`is_filedir_excluded` returns false, and in a walk that does not end early every object whose calls
succeed is archived if and only if it returns false. -/
theorem archived_iff_not_excluded (mem : Mem) (md5 : Md5) {Pattern : Type}
    (fnmatch : Pattern → Path → Bool) (patlist : List Pattern) (opts : SaveOptions)
    (sizes : opts.FromCmdline) (save : Savear) (dir : DirCalls) (entries : DirStream)
    (wellNamed : entries.WellNamed)
    (short : ∀ relpath ∈ visitedPaths (treeVisits opts.excludeNothing [slash] dir entries),
      relpath.length < pathMax) :
    let exclude := excludeCheck fnmatch patlist
    ∃ new, (excludedSave mem md5 opts exclude save dir entries).pushed = save.pushed ++ new ∧
      ∀ relpath, relpath ≠ [slash] →
        (Archived mem new relpath → isFiledirExcludedRun exclude relpath = some false) ∧
        ((∀ visit ∈ treeVisits { opts with exclude } [slash] dir entries, visit.GoesOn) →
          ∀ st calls,
            .object relpath st calls ∈ treeVisits opts.excludeNothing [slash] dir entries →
            calls.Succeed save.fstype relpath st →
            (Archived mem new relpath ↔ isFiledirExcludedRun exclude relpath = some false)) := by
  intro exclude
  let listed : SaveOptions := { opts with exclude }
  have sizes' : listed.FromCmdline := ⟨sizes.datablocksize, sizes.smallfilethresh⟩
  have kept_iff {relpath : Path} (nonRoot : relpath ≠ [slash]) (st : Stat) (calls : ObjectCalls) :
      .object relpath st calls ∈ treeVisits listed [slash] dir entries ↔
        .object relpath st calls ∈ treeVisits opts.excludeNothing [slash] dir entries ∧
          isFiledirExcluded exclude relpath = false :=
    mem_treeVisits_iff listed wellNamed nonRoot
  have paths : ∀ path ∈ visitedPaths (treeVisits listed [slash] dir entries),
      path.length < pathMax ∧ 0 ∉ path := by
    intro path visited
    refine ⟨?_, clean_of_visited wellNamed visited⟩
    obtain ⟨visit, among, same⟩ := List.mem_filterMap.mp visited
    cases visit with
    | stop => cases same
    | object path' st calls =>
      obtain rfl := Option.some.inj same
      by_cases root : path' = [slash]
      · rw [root]
        decide
      · exact short path' (List.mem_filterMap.mpr ⟨_, ((kept_iff root st calls).mp among).1, rfl⟩)
  obtain ⟨-, pushed⟩ := @createarSaveDirectoryWrapper_packets mem md5 _ sizes' save [slash] dir
      entries
  refine ⟨_, pushed, fun relpath nonRoot => ?_⟩
  have perm := dicos_allPackets (min listed.datablocksize maxBlkSize)
    ((visitsProduced mem md5 listed (treeVisits listed [slash] dir entries)
      (walkStart listed save)).map Prod.fst)
  rw [archived_packetItems]
  simp only [perm.mem_iff, List.mem_flatMap, List.mem_map, exists_exists_and_eq_and]
  have sound : (∃ d, (∃ made ∈ visitsProduced mem md5 listed
      (treeVisits listed [slash] dir entries) (walkStart listed save), d ∈ made.1.dicos) ∧
        readPath mem d ItemKey.path = some relpath) →
      isFiledirExcludedRun exclude relpath = some false := by
    rintro ⟨d, ⟨made, among, member⟩, read⟩
    have visited := visited_of_produced paths among member read
    obtain ⟨visit, member, same⟩ := List.mem_filterMap.mp visited
    cases visit with
    | stop => cases same
    | object relpath' st calls =>
      obtain rfl := Option.some.inj same
      rw [isFiledirExcludedRun_eq _ (paths _ visited).2, ((kept_iff nonRoot st calls).mp member).2]
  refine ⟨sound, fun goesOn st calls visited succeed => ⟨sound, fun notExcluded => ?_⟩⟩
  have own : relpath ∈ visitedPaths (treeVisits opts.excludeNothing [slash] dir entries) :=
    List.mem_filterMap.mpr ⟨_, visited, rfl⟩
  have clean := clean_of_visited wellNamed own
  rw [isFiledirExcludedRun_eq _ clean, Option.some.injEq] at notExcluded
  obtain ⟨made, among, d, member, read⟩ := @produced_of_visited mem md5 _ sizes' _ goesOn _ _
      (pends_walkStart listed save) _ _ _ ((kept_iff nonRoot st calls).mpr ⟨visited, notExcluded⟩)
      succeed (short relpath own) clean
  exact ⟨d, ⟨made, among, member⟩, read⟩

/-- Two directories in the root directory. -/
def twoDirectories : DirStream :=
  .entry [0x61] (some plainDirStat) plainCalls plainDirCalls .eof
    (.entry [0x62] (some plainDirStat) plainCalls plainDirCalls .eof .eof)

/-- The archive `a` in the root directory. -/
def ownVolume : DirStream :=
  .entry [0x61] (some { plainDirStat with mode := 0o100644, nlink := 1 })
    { plainCalls with isCurvol := true } plainDirCalls .eof .eof

/-- Patterns that match themselves. -/
def literally : Path → Path → Bool := fun pattern string => pattern == string

/-- The directory `b` is excluded, and `a` is archived. -/
theorem archived_iff_not_excluded_two_directories :
    ∃ new, (excludedSave plainMem plainMd5 plainOptions (excludeCheck literally [[0x62]])
        plainSavear plainDirCalls twoDirectories).pushed =
        plainSavear.pushed ++ new ∧
      Archived plainMem new [slash, 0x61] ∧ ¬Archived plainMem new [slash, 0x62] := by
  have isDir : plainDirStat.fileType = .dir := by decide
  have all : treeVisits plainOptions.excludeNothing [slash] plainDirCalls
      twoDirectories =
      [.object [slash] plainDirStat plainCalls, .object [slash, 0x61] plainDirStat plainCalls,
        .object [slash, 0x62] plainDirStat plainCalls] := rfl
  have listed : treeVisits { plainOptions with exclude := excludeCheck literally [[0x62]] } [slash]
      plainDirCalls twoDirectories =
      [.object [slash] plainDirStat plainCalls, .object [slash, 0x61] plainDirStat plainCalls] :=
    rfl
  obtain ⟨new, pushed, agree⟩ := archived_iff_not_excluded plainMem plainMd5 literally [[0x62]]
    plainOptions plainOptions_fromCmdline plainSavear plainDirCalls twoDirectories
    ⟨⟨by decide, by decide, by decide⟩, by decide, trivial,
      ⟨by decide, by decide, by decide⟩, by decide, trivial, trivial⟩
    (by rw [all]; decide)
  refine ⟨new, pushed, ?_, fun archived => ?_⟩
  · apply ((agree [slash, 0x61] (by decide)).2 (by rw [listed]; simp [Visit.GoesOn, isDir])
      plainDirStat plainCalls (by rw [all]; simp) ?_).mpr (by decide)
    exact ⟨rfl, by simp [isDir], rfl, fun isReg => by simp [isDir] at isReg⟩
  · exact absurd ((agree [slash, 0x62] (by decide)).1 archived) (by decide)

/-- The current volume is left out, and nothing is excluded. -/
theorem own_volume_not_archived :
    ∃ new, (excludedSave plainMem plainMd5 plainOptions (excludeCheck literally [])
        plainSavear plainDirCalls ownVolume).pushed =
        plainSavear.pushed ++ new ∧
      ¬(Archived plainMem new [slash, 0x61] ↔
        isFiledirExcludedRun (excludeCheck literally []) [slash, 0x61] = some false) := by
  refine ⟨_, rfl, fun agree => ?_⟩
  have found := (agree.mpr (by decide)).any
  have missing : (excludedSave plainMem plainMd5 plainOptions (excludeCheck literally [])
      plainSavear plainDirCalls ownVolume).pushed.any
      (QueueData.isNamed plainMem [slash, 0x61]) = false := by
    decide +kernel
  exact absurd (missing.symm.trans found) Bool.false_ne_true

end FsArchiver
