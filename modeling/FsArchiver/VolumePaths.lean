import FsArchiver.Creations

/-!
# The paths of the volumes

`get_path_to_volume` and the calls of `archwriter_create`. The first volume has the path of the
archive, which `realpath` may resolve; every other one has the number behind the first two
letters of its extension, with two digits at least and as many as it takes.
-/
namespace FsArchiver

open Lib

/-- The extension `.fsa` of an archive. -/
def archiveExtension : Path := [0x2e, 0x66, 0x73, 0x61]

/-! ## Numbers in paths -/

section Numbers

/-- The number that digits stand for. -/
def digitsValue (digits : Path) : Nat :=
  digits.foldl (fun value digit => 10 * value + (digit.toNat - 0x30)) 0

/-- A digit is the same number as a byte. -/
theorem toNat_of_mem_toDigits {number : Nat} {digit : Char}
    (member : digit ∈ Nat.toDigits 10 number) :
    digit.toNat.toUInt8.toNat = digit.toNat ∧ digit.toNat < 0x3a := by
  have isDigit := Nat.isDigit_of_mem_toDigits (by decide) (by decide) member
  have bound : digit.toNat < 0x3a := by
    simp only [Char.isDigit, Bool.and_eq_true, decide_eq_true_eq] at isDigit
    have upper := UInt32.le_iff_toNat_le.mp isDigit.2
    exact Nat.lt_succ_of_le upper
  refine ⟨?_, bound⟩
  rw [Nat.toUInt8, UInt8.toNat_ofNat']
  exact Nat.mod_eq_of_lt (by omega)

/-- Bytes of digits stand for what the digits stand for. -/
theorem foldl_digits (digits : List Char) (value : Nat)
    (same : ∀ digit ∈ digits, digit.toNat.toUInt8.toNat = digit.toNat) :
    (digits.map fun digit => digit.toNat.toUInt8).foldl
        (fun value digit => 10 * value + (digit.toNat - 0x30)) value =
      Nat.ofDigitChars 10 digits value := by
  induction digits generalizing value with
  | nil => rfl
  | cons digit digits ih =>
    have first := same digit List.mem_cons_self
    rw [List.map_cons, List.foldl_cons, Nat.ofDigitChars_cons, first]
    exact ih _ fun digit member => same digit (List.mem_cons_of_mem _ member)

/-- Leading zeros change no number. -/
theorem digitsValue_zeros (count : Nat) (digits : Path) :
    digitsValue (List.replicate count 0x30 ++ digits) = digitsValue digits := by
  induction count with
  | zero => rfl
  | succ count ih =>
    rw [← ih]
    rfl

/-- The conversion of a number stands for it. -/
theorem digitsValue_twoDigits (number : Nat) : digitsValue (twoDigits number) = number := by
  rw [twoDigits, digitsValue_zeros, digitsValue,
    foldl_digits _ _ fun digit member => (toNat_of_mem_toDigits member).1,
    Nat.ofDigitChars_ten_toDigits]

/-- The last character of a converted number is a digit. -/
theorem getLast_twoDigits (number : Nat) :
    ∃ digit, (twoDigits number).getLast? = some digit ∧ digit.toNat < 0x3a := by
  have nonempty : Nat.toDigits 10 number ≠ [] := Nat.toDigits_ne_nil
  refine ⟨((Nat.toDigits 10 number).getLast nonempty).toNat.toUInt8, ?_, ?_⟩
  · rw [twoDigits, List.getLast?_append, List.getLast?_map,
      List.getLast?_eq_some_getLast nonempty]
    rfl
  · obtain ⟨same, bound⟩ := toNat_of_mem_toDigits (List.getLast_mem nonempty)
    rwa [same]

/-- A number of at most 32 bits takes ten digits at most. -/
theorem length_twoDigits (number : Nat) (bound : number < 2 ^ 32) :
    (twoDigits number).length ≤ 10 := by
  have ten : (Nat.toDigits 10 number).length ≤ 10 :=
    (Nat.length_toDigits_le_iff (by decide) (by decide)).mpr (by omega)
  rw [twoDigits, List.length_append, List.length_replicate, List.length_map]
  omega

end Numbers

/-! ## The path of a volume -/

section Paths

variable {realpath : Option Path} {basepath : Path}

/-- The last character of a path ends its base name, if there is one. -/
theorem getLast_extractBasename {path : Path} {char : UInt8} (last : path.getLast? = some char)
    (noSlash : char ≠ slash) : (extractBasename path).getLast? = some char := by
  obtain ⟨front, rfl⟩ := List.getLast?_eq_some_iff.mp last
  simp [extractBasename, noSlash]

/-- A base name ends as the path does. -/
theorem getLast_of_extractBasename {path : Path} {char : UInt8}
    (last : (extractBasename path).getLast? = some char) : path.getLast? = some char := by
  rw [extractBasename, List.getLast?_reverse] at last
  rw [← List.head?_reverse]
  cases back : path.reverse with
  | nil => simp [back] at last
  | cons first rest =>
    rw [back, List.takeWhile_cons] at last
    split at last
    · exact last
    · cases last

/-- The path of the first volume ends in the last letter of the extension. -/
theorem getLast_firstVolume (suffix : archiveExtension <:+ basepath)
    (resolves : ∀ resolved, realpath = some resolved →
      extractBasename resolved = extractBasename basepath)
    (fits : basepath.length + 8 < pathMax) {path : Path}
    (first : getPathToVolume realpath basepath 0 = some path) : path.getLast? = some 0x61 := by
  have last : basepath.getLast? = some 0x61 := by
    obtain ⟨front, rfl⟩ := suffix
    simp [archiveExtension]
  rw [getPathToVolume, if_neg (by have := suffix.length_le; simp [archiveExtension] at this; omega),
    if_pos rfl] at first
  cases resolved : realpath with
  | none =>
    rw [resolved, Option.getD_none, List.take_of_length_le (by omega)] at first
    cases first
    exact last
  | some resolved' =>
    rw [resolved, Option.getD_some, Option.some.injEq] at first
    subst first
    apply getLast_of_extractBasename
    rw [resolves _ resolved]
    exact getLast_extractBasename last (by decide)

/-- The path of a later volume is cut nowhere. -/
theorem laterVolume_eq (suffix : archiveExtension <:+ basepath)
    (fits : basepath.length + 8 < pathMax) {curvol : UInt32} (later : curvol ≠ 0) :
    getPathToVolume realpath basepath curvol =
      some (basepath.take (basepath.length - 2) ++ twoDigits curvol.toNat) := by
  have long : 4 ≤ basepath.length := suffix.length_le
  have digits := length_twoDigits curvol.toNat curvol.toNat_lt
  rw [getPathToVolume, if_neg (by omega), if_neg later, List.take_of_length_le]
  rw [List.length_append, List.length_take]
  omega

/-- The path of a later volume ends in a digit. -/
theorem getLast_laterVolume (suffix : archiveExtension <:+ basepath)
    (fits : basepath.length + 8 < pathMax) {curvol : UInt32} (later : curvol ≠ 0) {path : Path}
    (volume : getPathToVolume realpath basepath curvol = some path) :
    ∃ digit, path.getLast? = some digit ∧ digit.toNat < 0x3a := by
  rw [laterVolume_eq suffix fits later, Option.some.injEq] at volume
  subst volume
  obtain ⟨digit, last, bound⟩ := getLast_twoDigits curvol.toNat
  exact ⟨digit, by rw [List.getLast?_append, last, Option.some_or], bound⟩

/-- Every volume has a path. -/
theorem getPathToVolume_isSome (realpath : Option Path) (suffix : archiveExtension <:+ basepath) (curvol : UInt32) :
    ∃ path, getPathToVolume realpath basepath curvol = some path := by
  have long : 4 ≤ basepath.length := suffix.length_le
  rw [getPathToVolume, if_neg (by omega)]
  split
  · exact ⟨_, rfl⟩
  · exact ⟨_, rfl⟩

/-- No two volumes have the same path. -/
theorem getPathToVolume_injective (suffix : archiveExtension <:+ basepath)
    (resolves : ∀ resolved, realpath = some resolved →
      extractBasename resolved = extractBasename basepath)
    (fits : basepath.length + 8 < pathMax) :
    Function.Injective (getPathToVolume realpath basepath) := by
  -- the first volume ends in a letter, a later one in a digit
  have apart : ∀ {curvol : UInt32}, curvol ≠ 0 →
      getPathToVolume realpath basepath 0 ≠ getPathToVolume realpath basepath curvol := by
    intro curvol later same
    obtain ⟨path, first⟩ := getPathToVolume_isSome realpath suffix 0
    have letter := getLast_firstVolume suffix resolves fits first
    rw [first] at same
    obtain ⟨digit, last, bound⟩ := getLast_laterVolume suffix fits later same.symm
    rw [letter, Option.some.injEq] at last
    subst last
    revert bound
    decide
  intro left right same
  by_cases first : left = 0
  · subst first
    by_contra different
    exact apart (Ne.symm different) same
  · by_cases first' : right = 0
    · subst first'
      exact absurd same.symm (apart first)
    · rw [laterVolume_eq suffix fits first, laterVolume_eq suffix fits first',
        Option.some.injEq] at same
      have numbers := congrArg digitsValue (List.append_cancel_left same)
      rw [digitsValue_twoDigits, digitsValue_twoDigits] at numbers
      exact UInt32.toNat_inj.mp numbers

end Paths

/-! ## Volumes by number -/

namespace FileWriter

open Failing

section Runs

variable {kernel : Kernel} {options : WriterOptions} {resolved : Option Path} {basepath : Path}
variable {made : List FileWriter} {ai : FileWriter}

/-- A path of an earlier volume than this one. -/
def EarlierPath (resolved : Option Path) (basepath : Path) (number : Nat) (path : Path) : Prop :=
  ∃ earlier < number, getPathToVolume resolved basepath (UInt32.ofNat earlier) = some path

/-- `archwriter_create` is called for the volume of this number: only earlier volumes are in the
list. -/
structure CalledFor (resolved : Option Path) (basepath : Path) (number : Nat) (ai : FileWriter) :
    Prop where
  path : getPathToVolume resolved basepath (UInt32.ofNat number) = some ai.volpath
  listed : ∀ path ∈ ai.vollist, EarlierPath resolved basepath number path

/-- The calls of `archwriter_create` so far are for the volumes in the order of their numbers, and
the writer is at the last one. -/
structure Numbered (resolved : Option Path) (basepath : Path) (made : List FileWriter)
    (ai : FileWriter) : Prop where
  /-- The path of the archive. -/
  base : ai.basepath = basepath
  /-- A volume has been tried. -/
  tried : made ≠ []
  /-- The current volume is the last of them. -/
  vol : ai.curvol + 1 = UInt32.ofNat made.length
  /-- The volumes up to the last number. -/
  called : ∀ index < 2 ^ 32, ∀ call, made[index]? = some call → CalledFor resolved basepath index call
  /-- The list holds paths of volumes up to the current one. -/
  listed : made.length ≤ 2 ^ 32 → ∀ path ∈ ai.vollist,
    EarlierPath resolved basepath made.length path

/-- What leaves the number and the list alone keeps them. -/
theorem Numbered.of_same {ai' : FileWriter} (numbered : Numbered resolved basepath made ai)
    (base : ai'.basepath = ai.basepath) (vol : ai'.curvol = ai.curvol)
    (list : ai'.vollist = ai.vollist) : Numbered resolved basepath made ai' where
  base := by rw [base, numbered.base]
  tried := numbered.tried
  vol := by rw [vol, numbered.vol]
  called := numbered.called
  listed := by
    rw [list]
    exact numbered.listed

/-- What `archwriter_create` does to the list of volumes. -/
theorem archwriterCreate_vollist (kernel : Kernel) (options : WriterOptions) (ai : FileWriter) :
    (archwriterCreate kernel options ai).2.vollist = ai.vollist ∨
      (archwriterCreate kernel options ai).2.vollist =
        strlistAdd (kernel.allocates ai.calls) ai.vollist ai.volpath := by
  rcases archwriterCreate_cases kernel options ai with created | refused
  · rw [created, openVolume, get_bind_run]
    cases kernel.loc ai.volpath with
    | none => exact .inl rfl
    | some inode =>
      rw [ofOption_some, pure_bind_run]
      by_cases opens : kernel.opens ai.calls = true
      · rw [if_pos opens]
        exact .inr rfl
      · rw [if_neg opens]
        exact .inl rfl
  · rw [refused]
    exact .inl rfl

/-- `archwriter_create` changes only the files and the list of volumes. -/
theorem archwriterCreate_same (kernel : Kernel) (options : WriterOptions) (ai : FileWriter) :
    (archwriterCreate kernel options ai).2.basepath = ai.basepath ∧
      (archwriterCreate kernel options ai).2.curvol = ai.curvol := by
  rcases archwriterCreate_cases kernel options ai with created | refused
  · rw [created, openVolume, get_bind_run]
    cases kernel.loc ai.volpath with
    | none => exact ⟨rfl, rfl⟩
    | some inode =>
      rw [ofOption_some, pure_bind_run]
      by_cases opens : kernel.opens ai.calls = true
      · rw [if_pos opens]
        exact ⟨rfl, rfl⟩
      · rw [if_neg opens]
        exact ⟨rfl, rfl⟩
  · rw [refused]
    exact ⟨rfl, rfl⟩

/-- Nothing but the path comes into the list. -/
theorem mem_of_mem_strlistAdd {allocates : Bool} {list : List Path} {str path : Path}
    (member : path ∈ strlistAdd allocates list str) : path ∈ list ∨ path = str := by
  unfold strlistAdd at member
  split at member
  · exact .inl member
  · simpa using member

/-- Behind `archwriter_create` the list may hold the volume it was called for. -/
theorem CalledFor.create {number : Nat} (called : CalledFor resolved basepath number ai) :
    ∀ path ∈ (archwriterCreate kernel options ai).2.vollist,
      EarlierPath resolved basepath (number + 1) path := by
  have longer : ∀ path ∈ ai.vollist, EarlierPath resolved basepath (number + 1) path := by
    intro path member
    obtain ⟨earlier, less, named⟩ := called.listed path member
    exact ⟨earlier, by omega, named⟩
  intro path member
  rcases archwriterCreate_vollist kernel options ai with same | added
  · rw [same] at member
    exact longer path member
  · rw [added] at member
    rcases mem_of_mem_strlistAdd member with known | rfl
    · exact longer path known
    · exact ⟨number, Nat.lt_succ_self number, called.path⟩

/-- `archwriter_create` is called for the first volume. -/
theorem Numbered.first (base : ai.basepath = basepath) (vol : ai.curvol = 0)
    (called : CalledFor resolved basepath 0 ai) :
    Numbered resolved basepath [ai] (archwriterCreate kernel options ai).2 where
  base := (archwriterCreate_same kernel options ai).1.trans base
  tried := List.cons_ne_nil _ _
  vol := by
    rw [(archwriterCreate_same kernel options ai).2, vol]
    rfl
  called index _ call listed := by
    cases index with
    | zero =>
      cases listed
      exact called
    | succ index => cases listed
  listed _ := called.create

/-- `archwriter_create` is called for the next volume. -/
theorem Numbered.next (numbered : Numbered resolved basepath made ai) {call : FileWriter}
    (base : call.basepath = ai.basepath) (vol : call.curvol = ai.curvol + 1)
    (called : made.length < 2 ^ 32 → CalledFor resolved basepath made.length call) :
    Numbered resolved basepath (made ++ [call]) (archwriterCreate kernel options call).2 where
  base := by rw [(archwriterCreate_same kernel options call).1, base, numbered.base]
  tried := by simp
  vol := by
    rw [(archwriterCreate_same kernel options call).2, vol, numbered.vol, List.length_append,
      UInt32.ofNat_add]
    rfl
  called index small other listed := by
    by_cases before : index < made.length
    · rw [List.getElem?_append_left before] at listed
      exact numbered.called index small other listed
    · rw [List.getElem?_append_right (by omega)] at listed
      obtain ⟨inside, rfl⟩ := List.getElem?_eq_some_iff.mp listed
      have last : index = made.length := by
        rw [List.length_singleton] at inside
        omega
      subst last
      simpa using called small
  listed small path member := by
    rw [List.length_append, List.length_singleton] at small ⊢
    exact (called (by omega)).create path member

/-- The path that `archwriter_volpath` computes is that of the current volume. Only for the first
one does it depend on `realpath`. -/
theorem archwriterVolpath_path (kernel : Kernel) (ai : FileWriter)
    (suffix : archiveExtension <:+ ai.basepath) :
    ∃ path, getPathToVolume (kernel.realpath ai.calls ai.basepath) ai.basepath ai.curvol =
        some path ∧
      archwriterVolpath kernel ai = (some (), { ai with calls := ai.calls + 1, volpath := path }) := by
  obtain ⟨path, volume⟩ :=
    getPathToVolume_isSome (kernel.realpath ai.calls ai.basepath) suffix ai.curvol
  refine ⟨path, volume, ?_⟩
  rw [archwriterVolpath, bind_run_of (show nextCall ai = (some ai.calls, _) from rfl), get_bind_run]
  simp only [volume, ofOption_some, pure_bind_run]
  rfl

/-- `archwriter_incvolume` goes on to the next volume. -/
theorem Numbered.incvolume (suffix : archiveExtension <:+ basepath)
    (numbered : Numbered resolved basepath made ai) {call : FileWriter}
    (inc : archwriterIncvolume kernel ai.archwriterClose = (some (), call)) :
    Numbered resolved basepath (made ++ [call]) (archwriterCreate kernel options call).2 := by
  have suffix' : archiveExtension <:+ ai.basepath := numbered.base ▸ suffix
  obtain ⟨path, volume, ran⟩ := archwriterVolpath_path kernel
    { ai.archwriterClose with curvol := ai.curvol + 1 } suffix'
  obtain rfl : call = _ := by
    change attempt (archwriterVolpath kernel)
      { ai.archwriterClose with curvol := ai.curvol + 1 } = _ at inc
    rw [attempt, ran] at inc
    exact (Prod.ext_iff.mp inc).2.symm
  refine numbered.next rfl rfl fun small => ⟨?_, numbered.listed (by omega)⟩
  have later : UInt32.ofNat made.length ≠ 0 := by
    intro same
    have value := congrArg UInt32.toNat same
    rw [UInt32.toNat_ofNat', Nat.mod_eq_of_lt small] at value
    exact numbered.tried (List.length_eq_zero_iff.mp value)
  rw [← numbered.vol] at later ⊢
  change getPathToVolume resolved basepath (ai.curvol + 1) = some path
  rw [← volume]
  dsimp only [archwriterClose]
  simp only [getPathToVolume, later, if_false, numbered.base]

theorem numbered_tracks (suffix : archiveExtension <:+ basepath) :
    Tracks kernel options (Numbered resolved basepath) where
  call numbered := numbered.of_same rfl rfl rfl
  append _ numbered _ := numbered.of_same rfl rfl rfl
  next numbered inc := numbered.incvolume suffix inc

/-- A run calls `archwriter_create` for the volumes in the order of their numbers. -/
theorem creations_called (suffix : archiveExtension <:+ basepath) (archid : UInt32) (disk : Disk)
    (items : List (Option QueueData)) {index : Nat} (small : index < 2 ^ 32) {call : FileWriter}
    (listed : (creations kernel options items (archwriterInit archid basepath disk))[index]? =
      some call) :
    CalledFor (kernel.realpath 0 basepath) basepath index call := by
  obtain ⟨path, volume, ran⟩ :=
    archwriterVolpath_path kernel (archwriterInit archid basepath disk) suffix
  have called : CalledFor (kernel.realpath 0 basepath) basepath 0
      { archwriterInit archid basepath disk with calls := 1, volpath := path } :=
    ⟨volume, fun path member => absurd member List.not_mem_nil⟩
  exact ((numbered_tracks suffix).writeArchive_tracked items ran
    (Numbered.first rfl rfl called)).called index small call listed

/-! ## Volumes that stay -/

/-- `archwriter_create` does not change this file: its path leads elsewhere, or overwriting is off
and `stat64` finds the file. -/
def Spares (kernel : Kernel) (options : WriterOptions) (ai : FileWriter) (inode : Nat) : Prop :=
  kernel.loc ai.volpath ≠ some inode ∨
    options.overwrite = false ∧ kernel.stats ai.calls = true ∧ ai.disk inode ≠ none

theorem archwriterCreate_spares {inode : Nat} (spares : Spares kernel options ai inode) :
    (archwriterCreate kernel options ai).2.disk inode = ai.disk inode := by
  by_cases leads : kernel.loc ai.volpath = some inode
  · obtain ⟨keeps, stats, existed⟩ := spares.resolve_left fun other => other leads
    have seen : kernel.stat64 ai.calls ai.volpath ai.disk = ai.disk inode := by
      rw [Kernel.stat64, if_pos stats, leads, Option.bind_some]
    rw [archwriterCreate, bind_run_of (show nextCall ai = (some ai.calls, _) from rfl),
      get_bind_run]
    simp only [seen]
    cases node : ai.disk inode with
    | none => exact absurd node existed
    | some node' =>
      cases node' with
      | special => exact node
      | regular content =>
        simp only [keeps]
        exact node
  · have opened : (openVolume kernel ai.calls { ai with calls := ai.calls + 1 }).2.disk inode =
        ai.disk inode := by
      rw [openVolume, get_bind_run]
      cases found : kernel.loc ai.volpath with
      | none => rfl
      | some named =>
        have different : inode ≠ named := by
          rintro rfl
          exact leads found
        by_cases opens : kernel.opens ai.calls = true
        · simp [opens, open64, Function.update_of_ne different]
        · simp [opens]
    rcases archwriterCreate_cases kernel options ai with created | refusal
    · rw [created]
      exact opened
    · rw [refusal]

/-- In a run each volume is created at a path that no earlier one has, and the files of the earlier
volumes for which this holds stay as they are. -/
def NeverOverwrites (kernel : Kernel) (options : WriterOptions) (items : List (Option QueueData))
    (start : FileWriter) (stays : FileWriter → Nat → Prop) : Prop :=
  ∀ index < 2 ^ 32, ∀ ai, (creations kernel options items start)[index]? = some ai →
    ∀ earlier < index, ∀ before, (creations kernel options items start)[earlier]? = some before →
      before.volpath ≠ ai.volpath ∧
        ∀ inode, kernel.loc before.volpath = some inode → stays ai inode →
          (archwriterCreate kernel options ai).2.disk inode = ai.disk inode

/-- Volumes never overwrite each other: `get_path_to_volume` gives different volumes different
paths, so in every run of the writer, whatever fails and whatever exists before, no volume is
created at the path of an earlier one or one of the list. The file of an earlier volume stays as
it is unless a later path leads to it as well, and is not refused there. -/
theorem volumes_never_overwrite (kernel : Kernel) (options : WriterOptions) (archid : UInt32)
    (basepath : Path) (disk : Disk) (items : List (Option QueueData))
    (suffix : archiveExtension <:+ basepath)
    (resolves : ∀ call resolved, kernel.realpath call basepath = some resolved →
      extractBasename resolved = extractBasename basepath)
    (fits : basepath.length + 8 < pathMax) :
    (∀ call, Function.Injective (getPathToVolume (kernel.realpath call basepath) basepath)) ∧
      NeverOverwrites kernel options items (archwriterInit archid basepath disk)
        (Spares kernel options) ∧
      ∀ index < 2 ^ 32, ∀ ai,
        (creations kernel options items (archwriterInit archid basepath disk))[index]? = some ai →
        ai.volpath ∉ ai.vollist := by
  have injective : ∀ call,
      Function.Injective (getPathToVolume (kernel.realpath call basepath) basepath) :=
    fun call => getPathToVolume_injective suffix (resolves call) fits
  have apart : ∀ {left right : Nat} {path : Path}, left < right → right < 2 ^ 32 →
      getPathToVolume (kernel.realpath 0 basepath) basepath (UInt32.ofNat left) = some path →
      getPathToVolume (kernel.realpath 0 basepath) basepath (UInt32.ofNat right) ≠ some path := by
    intro left right path less small first second
    have same := congrArg UInt32.toNat (injective 0 (first.trans second.symm))
    rw [UInt32.toNat_ofNat', UInt32.toNat_ofNat', Nat.mod_eq_of_lt (by omega),
      Nat.mod_eq_of_lt small] at same
    omega
  refine ⟨injective, fun index small ai created earlier less before created' => ?_,
    fun index small ai created member => ?_⟩
  · have later := creations_called suffix archid disk items small created
    have first := creations_called suffix archid disk items (by omega) created'
    refine ⟨fun same => ?_, fun inode _ spares => archwriterCreate_spares spares⟩
    exact apart less small (same ▸ first.path) later.path
  · have later := creations_called suffix archid disk items small created
    obtain ⟨earlier, less, named⟩ := later.listed _ member
    exact apart less small named later.path

end Runs

/-- A system on which nothing fails, with these inodes for the paths. -/
def rootKernel (inode : Path → Nat) : Kernel where
  loc path := if path = [] then none else some (inode path)
  empty := rfl
  realpath _ path := some (slash :: path)
  stats _ := true
  opens _ := true
  stops _ := none
  allocates _ := true

/-- The writer of the archive `a.fsa`, with no files yet. -/
def rootStart : FileWriter := archwriterInit 1 (0x61 :: archiveExtension) fun _ => none

/-- Each path has an inode of its own: two headers make two volumes behind the first one, and none
of the three files is changed later. -/
theorem volumes_never_overwrite_three :
    let kernel := rootKernel fun path => path.foldl (fun number char => 256 * number + char.toNat) 0
    (creations kernel ⟨true, 1⟩ [some (.header smallMain), some (.header smallMain)]
        rootStart).map FileWriter.volpath =
      [ascii "/a.fsa", ascii "a.f01", ascii "a.f02"] ∧
      NeverOverwrites kernel ⟨true, 1⟩ [some (.header smallMain), some (.header smallMain)]
        rootStart (Spares kernel ⟨true, 1⟩) := by
  intro kernel
  refine ⟨by decide +kernel, ?_⟩
  refine (volumes_never_overwrite kernel ⟨true, 1⟩ 1 (0x61 :: archiveExtension) (fun _ => none)
    [some (.header smallMain), some (.header smallMain)] ⟨[0x61], rfl⟩ (fun call resolved same => ?_)
    (by decide)).2.1
  rw [← Option.some.inj same]
  decide

/-- Where the path of the second volume is a link to the first one, `-o` has the second volume
created over the first. -/
theorem volume_overwritten :
    let kernel := rootKernel fun _ => 1
    ¬NeverOverwrites kernel ⟨true, 1⟩ [some (.header smallMain)] rootStart fun _ _ => True := by
  intro kernel never
  have first : ((creations kernel ⟨true, 1⟩ [some (.header smallMain)] rootStart)[0]?).bind
      (fun before => kernel.loc before.volpath) = some 1 := by decide +kernel
  have second : ((creations kernel ⟨true, 1⟩ [some (.header smallMain)] rootStart)[1]?).map
      (fun ai => decide ((archwriterCreate kernel ⟨true, 1⟩ ai).2.disk 1 = ai.disk 1)) =
        some false := by decide +kernel
  obtain ⟨before, created, named⟩ := Option.bind_eq_some_iff.mp first
  obtain ⟨ai, created', changed⟩ := Option.map_eq_some_iff.mp second
  obtain ⟨-, stays⟩ := never 1 (by omega) ai created' 0 (by omega) before created
  exact of_decide_eq_false changed (stays 1 named trivial)

end FileWriter

end FsArchiver
