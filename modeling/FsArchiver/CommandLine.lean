import FsArchiver.Lib.Failing
import FsArchiver.Strdico

/-!
# The arguments of the command line

`process_cmdline` behind its options, and the loops over filesystems of `oper_save`, of
`convert_argv_to_strdicos` and of `oper_restore`. Every array of `FSA_MAX_FSPERARCH` elements that
is used is written down with its index. What the calls in between answer is not known.
-/
namespace FsArchiver

open Lib Lib.Failing

/-! ## Arrays and indexes -/

/-- What is indexed by a filesystem. -/
inductive FsArray where
  /-- `partition` in `process_cmdline`, and `argv` in what it is given to. -/
  | partition
  /-- `devinfo` in `oper_save`. -/
  | devinfo
  /-- `dicofsinfo` in `oper_save` and `oper_restore`. -/
  | dicofsinfo
  /-- `dicoargv` in `oper_restore` and `convert_argv_to_strdicos`. -/
  | dicoargv
  /-- `g_fsbitmap` in `oper_restore`. -/
  | fsbitmap
  /-- The `fsid` of `save` and `exar`, which goes into the headers of the archive and is the index
  for `g_fsbitmap` when it is read. -/
  | fsid
  deriving DecidableEq

/-- An array is used with an index. -/
structure IndexUse where
  /-- The array. -/
  array : FsArray
  /-- The index. -/
  index : Int
  deriving DecidableEq

/-- The index is below `FSA_MAX_FSPERARCH`, and no negative one. -/
def IndexUse.Inside (used : IndexUse) : Prop := 0 ≤ used.index ∧ used.index < maxFsPerArch

/-- A program that uses arrays, and may end with an error. -/
abbrev Indexing := Failing (List IndexUse)

/-- The array is used with the index. -/
def useIndex (array : FsArray) (index : Int) : Indexing Unit :=
  modify (· ++ [⟨array, index⟩])

/-- A call that may fail. -/
def mayFail (succeeds : Bool) : Indexing Unit := if succeeds then pure () else fail

/-- A loop that counts up, so many times. -/
def countUp (body : Nat → Indexing Unit) : Nat → Nat → Indexing Unit
  | 0, _ => pure ()
  | count + 1, i => do
    body i
    countUp body count (i + 1)

/-- `for (i=0; i<bound; i++)`. -/
def forUpTo (bound : Nat) (body : Nat → Indexing Unit) : Indexing Unit := countUp body bound 0

/-! ## The functions of the source -/

/-- The commands. -/
inductive Command where
  | savefs | restfs | savedir | restdir | archinfo | probe
  deriving DecidableEq

/-- `ARCHTYPE_*`. -/
inductive ArchType where
  | directories | filesystems
  deriving DecidableEq

/-- What the calls answer that are made on the way. -/
structure CallAnswers where
  /-- A parameter is a block device. -/
  isBlk : List UInt8 → Bool
  /-- A parameter is a directory. -/
  isDir : List UInt8 → Bool
  /-- The threads are created and the main header is written, or read. -/
  starts : Bool
  /-- A password is given if the archive is encrypted. -/
  decrypts : Bool
  /-- A partition is mounted, or the header of a filesystem is read. -/
  mounts : Nat → Bool
  /-- The cost of a filesystem or a directory is evaluated. -/
  evaluates : Nat → Bool
  /-- A filesystem or a directory is saved, or extracted. -/
  succeeds : Nat → Bool
  /-- `get_interrupted`, or `get_abort`, before a filesystem. -/
  interrupted : Nat → Bool
  /-- `fscount` in the main header of an archive. -/
  fscount : UInt64
  /-- `archtype` in the main header of an archive. -/
  archtype : ArchType

section Operations

variable (answers : CallAnswers)

/-- The parameters of `oper_save` are checked one by one. -/
def operSaveCheck (argv : List (List UInt8)) (archtype : ArchType) : Indexing Unit :=
  forUpTo argv.length fun i => do
    useIndex .partition i
    mayFail (match archtype with
      | .filesystems => answers.isBlk (argv.getD i [])
      | .directories => answers.isDir (argv.getD i []))

/-- `oper_save` mounts and analyses the filesystems, or analyses the directories. -/
def operSaveAnalyse (argv : List (List UInt8)) : ArchType → Indexing Unit
  | .filesystems => do
    forUpTo argv.length fun i => do
      useIndex .partition i
      useIndex .dicofsinfo i
      useIndex .devinfo i
      mayFail (answers.mounts i)
    forUpTo argv.length fun i => do
      useIndex .partition i
      useIndex .devinfo i
      mayFail (answers.evaluates i)
      useIndex .dicofsinfo i
  | .directories =>
    forUpTo argv.length fun i => do
      useIndex .partition i
      mayFail (answers.evaluates i)

/-- `oper_save` writes the contents of the filesystems, or of the directories. -/
def operSaveContents (argv : List (List UInt8)) : ArchType → Indexing Unit
  | .filesystems =>
    forUpTo argv.length fun i => do
      useIndex .devinfo i
      mayFail (!answers.interrupted i)
      useIndex .fsid i
      mayFail (answers.succeeds i)
  | .directories => do
    useIndex .fsid 0
    forUpTo argv.length fun i => do
      useIndex .partition i
      mayFail (!answers.interrupted i)
      mayFail (answers.succeeds i)

/-- `oper_save` up to its error label. -/
def operSaveBody (argv : List (List UInt8)) (archtype : ArchType) : Indexing Unit := do
  forUpTo maxFsPerArch fun i => do
    useIndex .devinfo i
    useIndex .dicofsinfo i
  operSaveCheck answers argv archtype
  mayFail answers.starts
  operSaveAnalyse answers argv archtype
  operSaveContents answers argv archtype

/-- `oper_save`. -/
def operSaveIndexes (argv : List (List UInt8)) (archtype : ArchType) : Indexing Unit := do
  attempt (operSaveBody answers argv archtype)
  forUpTo maxFsPerArch fun i => useIndex .devinfo i

/-- The keys that `convert_argv_to_strdicos` allows: `id,dest,mkfs,mkfsopt,uuid,label`. -/
def restfsKeys : List UInt8 :=
  [0x69, 0x64, 0x2c, 0x64, 0x65, 0x73, 0x74, 0x2c, 0x6d, 0x6b, 0x66, 0x73, 0x2c, 0x6d, 0x6b, 0x66,
    0x73, 0x6f, 0x70, 0x74, 0x2c, 0x75, 0x75, 0x69, 0x64, 0x2c, 0x6c, 0x61, 0x62, 0x65, 0x6c]

/-- The filesystem id and the destination of an argument, if `convert_argv_to_strdicos` accepts
them: the number is cut to 32 bits before it is checked. -/
def argvFsid (arg : List UInt8) : Option Int :=
  match strdicoParseString (strdicoSetValidKeys strdicoAlloc restfsKeys) arg with
  | .error _ => none
  | .ok tmpdico =>
    match strdicoGetS64 tmpdico [0x69, 0x64] with
    | .error _ => none
    | .ok temp64 =>
      let fsid := temp64.bmod (2 ^ 32)
      if fsid < 0 ∨ fsid > maxFsPerArch - 1 then none
      else
        match strdicoGetString tmpdico 1024 [0x64, 0x65, 0x73, 0x74] with
        | .error _ => none
        | .ok buffer => if answers.isBlk buffer then some fsid else none

/-- The loop of `convert_argv_to_strdicos`, from an argument on: `taken` are the ids whose
`dicoargv` is set. -/
def convertArgvFrom : List (List UInt8) → Nat → List Int → Indexing (List Int)
  | [], _, taken => pure taken
  | arg :: rest, i, taken =>
    if i < maxFsPerArch then do
      useIndex .partition i
      match argvFsid answers arg with
      | none => fail
      | some fsid => do
        useIndex .dicoargv fsid
        if fsid ∈ taken then fail
        else do
          useIndex .dicoargv fsid
          convertArgvFrom rest (i + 1) (taken ++ [fsid])
    else pure taken

/-- `convert_argv_to_strdicos`. -/
def convertArgvToStrdicos (argv : List (List UInt8)) : Indexing (List Int) :=
  convertArgvFrom answers argv 0 []

/-- `oper_restore` up to the creation of the threads: the ids whose `dicoargv` is set. -/
def operRestoreArgs (argv : List (List UInt8)) (oper : Command) : Indexing (List Int) := do
  forUpTo maxFsPerArch fun i => useIndex .dicoargv i
  forUpTo maxFsPerArch fun i => useIndex .dicofsinfo i
  forUpTo maxFsPerArch fun i => useIndex .fsbitmap i
  if oper = .restfs then do
    let taken ← convertArgvToStrdicos answers argv
    forUpTo maxFsPerArch fun i => do
      useIndex .dicoargv i
      useIndex .fsbitmap i
    pure taken
  else if oper = .restdir then do
    useIndex .fsbitmap 0
    pure []
  else pure []

/-- What `oper_restore` extracts. -/
def operRestoreExtract (argv : List (List UInt8)) (taken : List Int) : Indexing Unit :=
  match answers.archtype with
  | .filesystems =>
    forUpTo (min answers.fscount.toNat maxFsPerArch) fun i => do
      mayFail (!answers.interrupted i)
      useIndex .dicoargv i
      if (i : Int) ∈ taken then do
        useIndex .fsid i
        useIndex .dicofsinfo i
        mayFail (answers.succeeds i)
      else pure ()
  | .directories => do
    useIndex .fsid 0
    useIndex .partition 0
    mayFail (answers.isDir (argv.getD 0 []))
    mayFail (answers.succeeds 0)

/-- The checks and the reading of the headers of the filesystems in `oper_restore`. -/
def operRestoreHeads (oper : Command) (taken : List Int) : Indexing Unit := do
  mayFail answers.starts
  mayFail (match answers.archtype with
    | .directories => oper ≠ .restfs
    | .filesystems => oper ≠ .restdir)
  forUpTo maxFsPerArch fun i => do
    useIndex .dicoargv i
    mayFail (!((i : Int) ∈ taken ∧ i ≥ answers.fscount.toNat))
  if answers.archtype = .filesystems then
    forUpTo (min answers.fscount.toNat maxFsPerArch) fun i => do
      useIndex .dicofsinfo i
      mayFail (answers.mounts i)
      useIndex .dicoargv i
  else pure ()

/-- `oper_restore` up to its error label. -/
def operRestoreBody (argv : List (List UInt8)) (oper : Command) : Indexing Unit := do
  let taken ← operRestoreArgs answers argv oper
  operRestoreHeads answers oper taken
  if oper = .restfs ∨ oper = .restdir then do
    mayFail answers.decrypts
    operRestoreExtract answers argv taken
  else pure ()

/-- `oper_restore`. -/
def operRestoreIndexes (argv : List (List UInt8)) (oper : Command) : Indexing Unit := do
  attempt (operRestoreBody answers argv oper)
  forUpTo maxFsPerArch fun i => useIndex .dicoargv i
  forUpTo maxFsPerArch fun i => useIndex .dicofsinfo i

/-- `argcok` in `process_cmdline`: the number of arguments behind the command. -/
def argcok (cmd : Command) (argc : Nat) : Bool :=
  match cmd with
  | .savefs | .restfs | .savedir => argc ≥ 2
  | .restdir => argc = 2
  | .archinfo => argc = 1
  | .probe => argc ≤ 1

/-- The operation that `process_cmdline` calls. -/
def operation (cmd : Command) (partition : List (List UInt8)) : Indexing Unit :=
  match cmd with
  | .savefs => operSaveIndexes answers partition .filesystems
  | .savedir => operSaveIndexes answers partition .directories
  | .restfs | .restdir | .archinfo => operRestoreIndexes answers partition cmd
  | .probe => pure ()

/-- `process_cmdline` from the check of the number of arguments on, for a user who may run the
command. The first argument is the archive, or the mode of `probe`. -/
def processCmdline (cmd : Command) (argv : List (List UInt8)) : Indexing Unit := do
  mayFail (argcok cmd argv.length)
  forUpTo (argv.drop 1).length fun fscount => useIndex .partition fscount
  operation answers cmd (argv.drop 1)

/-- The arrays that are used for a command line. -/
def indexesUsed (cmd : Command) (argv : List (List UInt8)) : List IndexUse :=
  (processCmdline answers cmd argv []).2

/-! ## What every use keeps -/

variable {answers} {inv : List IndexUse → Prop}

/-- A loop keeps what its body keeps in every turn. -/
theorem keeps_countUp {body : Nat → Indexing Unit} {count i : Nat}
    (turns : ∀ j < i + count, Keeps inv (body j)) : Keeps inv (countUp body count i) := by
  induction count generalizing i with
  | zero => exact keeps_pure ()
  | succ count ih =>
    rw [countUp]
    exact (turns i (by omega)).bind fun _ => ih fun j within => turns j (by omega)

theorem keeps_forUpTo {bound : Nat} {body : Nat → Indexing Unit}
    (turns : ∀ j < bound, Keeps inv (body j)) : Keeps inv (forUpTo bound body) :=
  keeps_countUp fun j within => turns j (by omega)

theorem keeps_mayFail (succeeds : Bool) : Keeps inv (mayFail succeeds) :=
  keeps_ite (fun _ => keeps_pure ()) fun _ => keeps_fail

/-- The ids of arguments are inside their array. -/
theorem argvFsid_inside {arg : List UInt8} {fsid : Int} (found : argvFsid answers arg = some fsid) :
    0 ≤ fsid ∧ fsid < maxFsPerArch := by
  unfold argvFsid at found
  split at found
  · cases found
  · split at found
    · cases found
    · next temp64 _ =>
      dsimp only at found
      split at found
      · cases found
      · next inside =>
        have same : temp64.bmod (2 ^ 32) = fsid := by
          split at found
          · cases found
          · split at found
            · exact Option.some.inj found
            · cases found
        rw [same] at inside
        omega

section Kept

variable {limit : Nat} (uses : ∀ array (i : Nat), i < limit → Keeps inv (useIndex array i))
  (wide : maxFsPerArch ≤ limit)
include uses wide

theorem operSaveIndexes_keeps {argv : List (List UInt8)} (within : argv.length ≤ limit)
    (archtype : ArchType) : Keeps inv (operSaveIndexes answers argv archtype) := by
  have first := uses .fsid 0 (Nat.lt_of_lt_of_le (by decide) wide)
  have each : ∀ array, ∀ i < argv.length, Keeps inv (useIndex array i) :=
    fun array i less => uses array i (Nat.lt_of_lt_of_le less within)
  have all : ∀ array, ∀ i < maxFsPerArch, Keeps inv (useIndex array i) :=
    fun array i less => uses array i (Nat.lt_of_lt_of_le less wide)
  have checked : Keeps inv (operSaveCheck answers argv archtype) :=
    keeps_forUpTo fun i less => (each .partition i less).bind fun _ => keeps_mayFail _
  have analysed : Keeps inv (operSaveAnalyse answers argv archtype) := by
    cases archtype with
    | filesystems =>
      refine Keeps.bind ?_ fun _ => ?_
      · exact keeps_forUpTo fun i less => (each .partition i less).bind fun _ =>
          (each .dicofsinfo i less).bind fun _ => (each .devinfo i less).bind fun _ =>
            keeps_mayFail _
      · exact keeps_forUpTo fun i less => (each .partition i less).bind fun _ =>
          (each .devinfo i less).bind fun _ => (keeps_mayFail _).bind fun _ =>
            each .dicofsinfo i less
    | directories =>
      exact keeps_forUpTo fun i less => (each .partition i less).bind fun _ => keeps_mayFail _
  have written : Keeps inv (operSaveContents answers argv archtype) := by
    cases archtype with
    | filesystems =>
      exact keeps_forUpTo fun i less => (each .devinfo i less).bind fun _ =>
        (keeps_mayFail _).bind fun _ => (each .fsid i less).bind fun _ => keeps_mayFail _
    | directories =>
      exact first.bind fun _ => keeps_forUpTo fun i less => (each .partition i less).bind fun _ =>
        (keeps_mayFail _).bind fun _ => keeps_mayFail _
  have body : Keeps inv (operSaveBody answers argv archtype) := by
    unfold operSaveBody
    refine Keeps.bind (keeps_forUpTo fun i less => ?_) fun _ => Keeps.bind checked fun _ =>
      Keeps.bind (keeps_mayFail _) fun _ => Keeps.bind analysed fun _ => written
    exact (all .devinfo i less).bind fun _ => all .dicofsinfo i less
  unfold operSaveIndexes
  exact Keeps.bind body.attempt fun _ => keeps_forUpTo fun i less => all .devinfo i less

theorem convertArgvFrom_keeps (argv : List (List UInt8)) (i : Nat) (taken : List Int) :
    Keeps inv (convertArgvFrom answers argv i taken) := by
  induction argv generalizing i taken with
  | nil => exact keeps_pure taken
  | cons arg rest ih =>
    rw [convertArgvFrom]
    refine keeps_ite (fun within => ?_) fun _ => keeps_pure taken
    refine (uses .partition i (by omega)).bind fun _ => ?_
    cases found : argvFsid answers arg with
    | none => exact keeps_fail
    | some fsid =>
      obtain ⟨low, high⟩ := argvFsid_inside found
      have used : Keeps inv (useIndex .dicoargv fsid) := by
        have kept := uses .dicoargv fsid.toNat (by omega)
        rwa [Int.toNat_of_nonneg low] at kept
      exact used.bind fun _ => keeps_ite (fun _ => keeps_fail) fun _ => used.bind fun _ => ih _ _

theorem operRestoreIndexes_keeps (argv : List (List UInt8)) (oper : Command) :
    Keeps inv (operRestoreIndexes answers argv oper) := by
  have all : ∀ array, ∀ i < maxFsPerArch, Keeps inv (useIndex array i) :=
    fun array i less => uses array i (Nat.lt_of_lt_of_le less wide)
  have first : ∀ array, Keeps inv (useIndex array (0 : Nat)) := fun array => all array 0 (by decide)
  have loop : ∀ array, Keeps inv (forUpTo maxFsPerArch fun i => useIndex array i) :=
    fun array => keeps_forUpTo fun i less => all array i less
  have args : Keeps inv (operRestoreArgs answers argv oper) := by
    unfold operRestoreArgs
    refine Keeps.bind (loop .dicoargv) fun _ => Keeps.bind (loop .dicofsinfo) fun _ =>
      Keeps.bind (loop .fsbitmap) fun _ => keeps_ite (fun _ => ?_) fun _ =>
        keeps_ite (fun _ => ?_) fun _ => keeps_pure []
    · refine Keeps.bind (convertArgvFrom_keeps uses wide argv 0 []) fun taken =>
        Keeps.bind (keeps_forUpTo fun i less => ?_) fun _ => keeps_pure taken
      exact (all .dicoargv i less).bind fun _ => all .fsbitmap i less
    · exact (first .fsbitmap).bind fun _ => keeps_pure []
  have extract : ∀ taken, Keeps inv (operRestoreExtract answers argv taken) := by
    intro taken
    unfold operRestoreExtract
    cases answers.archtype with
    | filesystems =>
      refine keeps_forUpTo fun i less => (keeps_mayFail _).bind fun _ =>
        (all .dicoargv i (by omega)).bind fun _ => keeps_ite (fun _ => ?_) fun _ => keeps_pure ()
      exact (all .fsid i (by omega)).bind fun _ => (all .dicofsinfo i (by omega)).bind fun _ =>
        keeps_mayFail _
    | directories =>
      exact (first .fsid).bind fun _ => (first .partition).bind fun _ =>
        (keeps_mayFail _).bind fun _ => keeps_mayFail _
  have heads : ∀ taken, Keeps inv (operRestoreHeads answers oper taken) := by
    intro taken
    unfold operRestoreHeads
    refine Keeps.bind (keeps_mayFail _) fun _ => Keeps.bind (keeps_mayFail _) fun _ =>
      Keeps.bind ?_ fun _ => keeps_ite (fun _ => ?_) fun _ => keeps_pure ()
    · exact keeps_forUpTo fun i less => (all .dicoargv i less).bind fun _ => keeps_mayFail _
    · exact keeps_forUpTo fun i less => (all .dicofsinfo i (by omega)).bind fun _ =>
        (keeps_mayFail _).bind fun _ => all .dicoargv i (by omega)
  have body : Keeps inv (operRestoreBody answers argv oper) := by
    unfold operRestoreBody
    refine Keeps.bind args fun taken => Keeps.bind (heads taken) fun _ =>
      keeps_ite (fun _ => ?_) fun _ => keeps_pure ()
    exact (keeps_mayFail _).bind fun _ => extract taken
  unfold operRestoreIndexes
  exact Keeps.bind body.attempt fun _ => Keeps.bind (loop .dicoargv) fun _ => loop .dicofsinfo

theorem operation_keeps {argv : List (List UInt8)} (within : argv.length ≤ limit)
    (cmd : Command) : Keeps inv (operation answers cmd argv) := by
  cases cmd with
  | savefs => exact operSaveIndexes_keeps uses wide within .filesystems
  | savedir => exact operSaveIndexes_keeps uses wide within .directories
  | restfs => exact operRestoreIndexes_keeps uses wide argv .restfs
  | restdir => exact operRestoreIndexes_keeps uses wide argv .restdir
  | archinfo => exact operRestoreIndexes_keeps uses wide argv .archinfo
  | probe => exact keeps_pure ()

end Kept

/-! ## The number of arguments -/

/-- The list of partitions is written from its start on. -/
theorem countUp_useIndex_run (array : FsArray) (count i : Nat) (log : List IndexUse) :
    countUp (fun j => useIndex array j) count i log =
      (some (), log ++ (List.range' i count).map fun j => ⟨array, j⟩) := by
  induction count generalizing i log with
  | zero => simp [countUp]
  | succ count ih =>
    have first : useIndex array i log = (some (), log ++ [⟨array, i⟩]) := rfl
    rw [countUp, bind_run_of first, ih, List.range'_succ, List.map_cons, List.append_assoc,
      List.singleton_append]

/-- What the list of partitions uses. -/
def partitionUses (count : Nat) : List IndexUse :=
  (List.range' 0 count).map fun j : Nat => ⟨.partition, j⟩

/-- An accepted command line uses the list of partitions, then what its operation uses. -/
theorem indexesUsed_eq {cmd : Command} {argv : List (List UInt8)}
    (accepted : argcok cmd argv.length = true) :
    indexesUsed answers cmd argv =
      (operation answers cmd (argv.drop 1) (partitionUses (argv.drop 1).length)).2 := by
  have passed : mayFail (argcok cmd argv.length) [] = (some (), []) := by
    rw [accepted]
    rfl
  have listed : forUpTo (argv.drop 1).length (fun fscount => useIndex .partition fscount) [] =
      (some (), partitionUses (argv.drop 1).length) :=
    countUp_useIndex_run .partition (argv.drop 1).length 0 []
  rw [indexesUsed, processCmdline, bind_run_of passed, bind_run_of listed]

/-- A command line with a wrong number of arguments uses nothing. -/
theorem indexesUsed_of_refused {cmd : Command} {argv : List (List UInt8)}
    (refused : ¬argcok cmd argv.length = true) : indexesUsed answers cmd argv = [] := by
  have failed : mayFail (argcok cmd argv.length) [] = (none, []) := by
    rw [Bool.not_eq_true] at refused
    rw [refused]
    rfl
  rw [indexesUsed, processCmdline, bind_run_none failed]

theorem mem_partitionUses {count : Nat} {used : IndexUse} :
    used ∈ partitionUses count ↔ ∃ i < count, used = ⟨.partition, i⟩ := by
  simp only [partitionUses, List.mem_map, List.mem_range'_1, Nat.zero_add, Nat.zero_le, true_and]
  constructor
  · rintro ⟨i, less, rfl⟩
    exact ⟨i, less, rfl⟩
  · rintro ⟨i, less, rfl⟩
    exact ⟨i, less, rfl⟩

/-- At most 128 arguments behind the archive keep all indexes inside the arrays. -/
theorem inside_of_few {cmd : Command} {argv : List (List UInt8)}
    (few : argcok cmd argv.length = true → (argv.drop 1).length ≤ maxFsPerArch) :
    ∀ used ∈ indexesUsed answers cmd argv, used.Inside := by
  by_cases accepted : argcok cmd argv.length = true
  · have uses : ∀ (array : FsArray) (i : Nat), i < maxFsPerArch →
        Keeps (fun log => ∀ used ∈ log, used.Inside) (useIndex array i) := by
      intro array i less log before used member
      rcases List.mem_append.mp member with earlier | last
      · exact before used earlier
      · rw [List.mem_singleton.mp last]
        exact ⟨Int.natCast_nonneg i, Int.ofNat_lt.mpr less⟩
    rw [indexesUsed_eq accepted]
    refine operation_keeps uses (Nat.le_refl maxFsPerArch) (few accepted) cmd _ ?_
    intro used member
    obtain ⟨i, less, rfl⟩ := mem_partitionUses.mp member
    exact ⟨Int.natCast_nonneg i, Int.ofNat_lt.mpr (Nat.lt_of_lt_of_le less (few accepted))⟩
  · rw [indexesUsed_of_refused accepted]
    exact fun _ none => absurd none List.not_mem_nil

/-- The list of partitions alone leaves its array with more arguments. -/
theorem few_of_inside {cmd : Command} {argv : List (List UInt8)}
    (inside : ∀ used ∈ indexesUsed answers cmd argv, used.Inside)
    (accepted : argcok cmd argv.length = true) : (argv.drop 1).length ≤ maxFsPerArch := by
  by_contra more
  have uses : ∀ (array : FsArray) (i : Nat), i < (argv.drop 1).length →
      Keeps (fun log => (⟨.partition, maxFsPerArch⟩ : IndexUse) ∈ log) (useIndex array i) :=
    fun _ _ _ _ before => List.mem_append_left _ before
  have member : (⟨.partition, maxFsPerArch⟩ : IndexUse) ∈ indexesUsed answers cmd argv := by
    rw [indexesUsed_eq accepted]
    refine operation_keeps uses (by omega) (Nat.le_refl _) cmd _ ?_
    exact mem_partitionUses.mpr ⟨maxFsPerArch, by omega, rfl⟩
  exact Int.lt_irrefl _ (inside _ member).2

end Operations

/-- No index for the arrays of filesystems reaches `FSA_MAX_FSPERARCH`, whatever the calls on the
way answer, exactly if an accepted command line has at most that many arguments behind the
archive. -/
theorem indexes_inside_iff (answers : CallAnswers) (cmd : Command) (argv : List (List UInt8)) :
    (∀ used ∈ indexesUsed answers cmd argv, used.Inside) ↔
      (argcok cmd argv.length = true → (argv.drop 1).length ≤ maxFsPerArch) :=
  ⟨few_of_inside, inside_of_few⟩

/-- Calls that all fail. -/
def failingAnswers : CallAnswers where
  isBlk _ := false
  isDir _ := false
  starts := false
  decrypts := false
  mounts _ := false
  evaluates _ := false
  succeeds _ := false
  interrupted _ := false
  fscount := 0
  archtype := .filesystems

/-- The archive and 129 partitions: `partition[128]` is written. -/
theorem partition_overflows :
    ¬∀ used ∈ indexesUsed failingAnswers .savefs (List.replicate 130 [0x61]), used.Inside := by
  intro inside
  have few := few_of_inside inside (by rw [List.length_replicate]; rfl)
  rw [List.length_drop, List.length_replicate] at few
  exact absurd few (by decide)

end FsArchiver
