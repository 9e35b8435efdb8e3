import FsArchiver.Lib.Transition
import FsArchiver.Hardlinks
import FsArchiver.WriterThread

/-!
# The archive in the tree

The walk and the writer run side by side. `createar_save_file` asks `archwriter_is_path_to_curvol`
about every object before it archives it, so that the archive does not get into itself. This
compares the path of the object with that of the current volume, character by character: an older
volume passes, and so does any volume under another spelling of its path, and a volume may be
created at the path of an object that has passed.
-/
namespace FsArchiver

open Lib

open FileWriter (WriterThread WriterPc)

/-! ## The two threads -/

/-- `archwriter_is_path_to_curvol`. -/
def archwriterIsPathToCurvol (ai : FileWriter) (path : Path) : Bool :=
  decide (ai.volpath.take pathMax = path.take pathMax)

/-- One call of `createar_save_directory_wrapper`: the directory that paths begin at, and the
visits that are left. -/
structure TreeWalk where
  root : Path
  visits : List Visit

/-- An object that `createar_save_file` archives. -/
structure PassedObject extends SavedObject where
  /-- `fullpath`. -/
  fullpath : Path

/-- What the threads are given. -/
structure SaveEnv where
  kernel : Kernel
  options : WriterOptions
  mem : Mem
  md5 : Md5
  opts : SaveOptions

/-- The state of a save. -/
structure SaveRun where
  writer : WriterThread
  /-- The trees that are left, the current one first. -/
  trees : List TreeWalk
  /-- `createar_save_file` is past its check of this object. -/
  passed : Option PassedObject
  save : Savear

/-- What happens next. -/
inductive SaveAct where
  /-- A call of the writer. -/
  | writer
  /-- `createar_save_file` begins: it builds the path of the next object and checks it. -/
  | look
  /-- The rest of `createar_save_file` for an object that has passed. -/
  | archive
  /-- A tree is done, or `lstat64` has failed in it. -/
  | leave
  deriving DecidableEq

/-- The object that is visited next, with its path. -/
def SaveRun.next (s : SaveRun) : Option PassedObject :=
  match s.passed, s.trees with
  | none, ⟨root, .object relpath st calls :: _⟩ :: _ =>
    some ⟨⟨relpath, st, calls⟩, concatenatePaths root relpath⟩
  | _, _ => none

/-- The visits that are left behind the next one. -/
def nextVisits : List TreeWalk → List TreeWalk
  | ⟨root, _ :: visits⟩ :: trees => ⟨root, visits⟩ :: trees
  | trees => trees

/-- The visits that are left when `createar_save_file` fails. -/
def noVisits : List TreeWalk → List TreeWalk
  | ⟨root, _⟩ :: trees => ⟨root, []⟩ :: trees
  | [] => []

/-- One step of a save. -/
def SaveRun.step (env : SaveEnv) (s : SaveRun) : SaveAct → Option SaveRun
  | .writer => (s.writer.step env.kernel env.options).map fun writer => { s with writer }
  | .look => s.next.map fun object =>
      let trees := nextVisits s.trees
      if archwriterIsPathToCurvol s.writer.ai object.fullpath then
        let (_, save) := createarSaveFile env.mem env.md5 env.opts s.save object.relpath object.st
          { object.calls with isCurvol := true } false
        { s with trees, save }
      else { s with trees, passed := some object }
  | .archive => s.passed.map fun object =>
      let (ok, save) := createarSaveFile env.mem env.md5 env.opts s.save object.relpath object.st
        { object.calls with isCurvol := false } false
      { s with trees := if ok then s.trees else noVisits s.trees, passed := none, save }
  | .leave =>
    match s.passed, s.trees with
    | none, ⟨_, []⟩ :: trees | none, ⟨_, .stop :: _⟩ :: trees =>
      -- the last pack of a tree goes to the queue, and the next tree starts afresh
      let (pushed, _) := regmultiSaveEnqueue env.mem s.save.regmulti s.save.fsid
      some { s with trees, save := walkStart env.opts (s.save.push pushed) }
    | _, _ => none

/-- The steps of a save. -/
def SaveRun.Step (env : SaveEnv) (s : SaveRun) (act : SaveAct) (s' : SaveRun) : Prop :=
  s.step env act = some s'

/-- A save that begins. -/
def SaveRun.start (env : SaveEnv) (archid : UInt32) (basepath : Path) (disk : Disk)
    (items : List (Option QueueData)) (trees : List TreeWalk) (save : Savear) : SaveRun where
  writer := ⟨.volpath, items, FileWriter.archwriterInit archid basepath disk⟩
  trees := trees
  passed := none
  save := walkStart env.opts save

/-! ## Volumes in the tree -/

/-- Two paths lead to one file. -/
def SameFile (kernel : Kernel) (path path' : Path) : Prop :=
  ∃ inode, kernel.loc path = some inode ∧ kernel.loc path' = some inode

/-- The file at this path is a volume that was created so far. -/
def IsVolume (kernel : Kernel) (ai : FileWriter) (path : Path) : Prop :=
  ∃ inode ∈ ai.created, kernel.loc path = some inode

/-- In no state of the run is a volume archived that was created so far. -/
def NeverInItself (env : SaveEnv) (start : SaveRun) (trace : List (SaveAct × SaveRun)) : Prop :=
  ∀ s ∈ Trace.states start trace, ∀ object, s.passed = some object →
    ¬IsVolume env.kernel s.writer.ai object.fullpath

/-- When a step does no harm: a volume that is looked at is the current one, under the path that
the writer has for it, and no volume is created at the path of an object that has passed. -/
def SaveRun.Harmless (env : SaveEnv) (s : SaveRun) : SaveAct → Prop
  | .look => ∀ object, s.next = some object → IsVolume env.kernel s.writer.ai object.fullpath →
      archwriterIsPathToCurvol s.writer.ai object.fullpath = true
  | .writer => ∀ object, s.passed = some object → s.writer.Creates env.kernel env.options →
      ¬SameFile env.kernel s.writer.ai.volpath object.fullpath
  | _ => True

variable {env : SaveEnv} {s s' start : SaveRun} {act : SaveAct} {trace : List (SaveAct × SaveRun)}

/-- The volume that is created becomes one of the volumes, and no other file does. -/
theorem isVolume_created {ai ai' : FileWriter} {path : Path}
    (opened : ∃ inode, env.kernel.loc ai.volpath = some inode ∧ ai'.created = ai.created ++ [inode]) :
    IsVolume env.kernel ai' path ↔
      IsVolume env.kernel ai path ∨ SameFile env.kernel ai.volpath path := by
  obtain ⟨inode, named, list⟩ := opened
  unfold IsVolume SameFile
  rw [list, named]
  constructor
  · rintro ⟨volume, member, leads⟩
    rcases List.mem_append.mp member with known | new
    · exact .inl ⟨volume, known, leads⟩
    · obtain rfl := List.mem_singleton.mp new
      exact .inr ⟨volume, rfl, leads⟩
  · rintro (⟨volume, known, leads⟩ | ⟨volume, same, leads⟩)
    · exact ⟨volume, List.mem_append_left _ known, leads⟩
    · obtain rfl := Option.some.inj same
      exact ⟨inode, List.mem_append_right _ List.mem_cons_self, leads⟩

/-- What the check of an object leaves behind. -/
theorem step_look (step : s.Step env .look s') : ∃ object, s.next = some object ∧
    s'.writer = s.writer ∧ s'.save.pushed = s.save.pushed ∧ s'.save.regmulti = s.save.regmulti ∧
    s'.passed =
      if archwriterIsPathToCurvol s.writer.ai object.fullpath then none else some object := by
  unfold SaveRun.Step SaveRun.step at step
  obtain ⟨object, found, taken⟩ := Option.map_eq_some_iff.mp step
  have free : s.passed = none := by
    unfold SaveRun.next at found
    split at found
    next idle _ => exact idle
    next => cases found
  refine ⟨object, found, ?_⟩
  by_cases current : archwriterIsPathToCurvol s.writer.ai object.fullpath = true
  · simp only [if_pos current] at taken
    subst taken
    rw [if_pos current]
    exact ⟨rfl, rfl, rfl, free⟩
  · simp only [if_neg current] at taken
    subst taken
    rw [if_neg current]
    exact ⟨rfl, rfl, rfl, rfl⟩

/-- What a call of the writer leaves behind. -/
theorem step_writer (step : s.Step env .writer s') :
    s.writer.step env.kernel env.options = some s'.writer ∧ s'.passed = s.passed ∧
      s'.save = s.save := by
  unfold SaveRun.Step SaveRun.step at step
  obtain ⟨writer, taken, rfl⟩ := Option.map_eq_some_iff.mp step
  exact ⟨taken, rfl, rfl⟩

/-- Behind any other step no object has passed the check. -/
theorem step_other (step : s.Step env act s') (look : act ≠ .look) (writer : act ≠ .writer) :
    s'.passed = none ∧ s'.writer = s.writer := by
  unfold SaveRun.Step SaveRun.step at step
  cases act with
  | look => exact absurd rfl look
  | writer => exact absurd rfl writer
  | archive =>
    obtain ⟨object, found, rfl⟩ := Option.map_eq_some_iff.mp step
    exact ⟨rfl, rfl⟩
  | leave =>
    dsimp only at step
    split at step
    next idle _ =>
      obtain rfl := Option.some.inj step
      exact ⟨idle, rfl⟩
    next idle _ =>
      obtain rfl := Option.some.inj step
      exact ⟨idle, rfl⟩
    next => cases step

/-- No volume has passed the check. -/
def SaveRun.Clean (env : SaveEnv) (s : SaveRun) : Prop :=
  ∀ object, s.passed = some object → ¬IsVolume env.kernel s.writer.ai object.fullpath

/-- A harmless step lets no volume pass. -/
theorem Clean.step (clean : s.Clean env) (harmless : s.Harmless env act) (step : s.Step env act s') :
    s'.Clean env := by
  intro object passed
  cases act with
  | look =>
    obtain ⟨looked, found, same, -, -, outcome⟩ := step_look step
    rw [outcome] at passed
    split at passed
    · cases passed
    next other =>
      obtain rfl := Option.some.inj passed
      rw [same]
      exact fun volume => other (harmless looked found volume)
  | writer =>
    obtain ⟨taken, same, -⟩ := step_writer step
    rw [same] at passed
    by_cases creates : s.writer.Creates env.kernel env.options
    · intro volume
      rcases (isVolume_created (WriterThread.step_creates taken creates)).mp volume with known | new
      · exact clean object passed known
      · exact harmless object passed creates new
    · have list := WriterThread.step_created taken creates
      rintro ⟨volume, member, leads⟩
      rw [list] at member
      exact clean object passed ⟨volume, member, leads⟩
  | archive | leave =>
    obtain ⟨idle, -⟩ := step_other step nofun nofun
    rw [idle] at passed
    cases passed

/-- A step that does harm lets a volume pass. -/
theorem Clean.harmless (clean : s'.Clean env) (step : s.Step env act s') : s.Harmless env act := by
  cases act with
  | look =>
    intro object found volume
    obtain ⟨looked, found', same, -, -, outcome⟩ := step_look step
    obtain rfl := Option.some.inj (found'.symm.trans found)
    by_contra other
    rw [if_neg other] at outcome
    refine clean looked outcome ?_
    rw [same]
    exact volume
  | writer =>
    intro object passed creates same
    obtain ⟨taken, kept, -⟩ := step_writer step
    exact clean object (kept.trans passed)
      ((isVolume_created (WriterThread.step_creates taken creates)).mpr (.inr same))
  | archive | leave => trivial

/-- For any trees, any name of the archive, any items that the writer gets, any answers of the
system and any order of the steps: the archive never gets into itself in a run if and only if all
steps of the run are harmless. -/
theorem never_in_itself_iff (env : SaveEnv) (archid : UInt32) (basepath : Path) (disk : Disk)
    (items : List (Option QueueData)) (trees : List TreeWalk) (save : Savear)
    (trace : List (SaveAct × SaveRun))
    (run : Trace (SaveRun.Step env) (.start env archid basepath disk items trees save) trace) :
    NeverInItself env (.start env archid basepath disk items trees save) trace ↔
      ∀ before act after rest, trace = before ++ (act, after) :: rest →
        (Trace.last (.start env archid basepath disk items trees save) before).Harmless env act := by
  constructor
  · rintro never before act after rest rfl
    have clean := never after (Trace.mem_states_of_split _ _ _ _ _).2
    exact Clean.harmless clean (Trace.step_of_split run)
  · intro harmless
    have start : (SaveRun.start env archid basepath disk items trees save).Clean env :=
      fun object passed => by cases passed
    exact Trace.invariant (fun s act => s.Harmless env act)
      (fun s act s' clean harmless step => Clean.step clean harmless step) run start harmless

/-- Whatever the order of the steps, the writer does what it would do alone. -/
theorem writer_outcome (run : Trace (SaveRun.Step env) start trace) :
    ∀ s ∈ Trace.states start trace, s.writer.outcome env.kernel env.options =
      start.writer.outcome env.kernel env.options := by
  refine Trace.invariant_of_step (fun s act s' same step => ?_) run rfl
  rw [← same]
  cases act with
  | writer => exact WriterThread.outcome_step (step_writer step).1
  | look =>
    obtain ⟨-, -, kept, -⟩ := step_look step
    rw [kept]
  | archive | leave => rw [(step_other step nofun nofun).2]

/-! ## Two names for one archive -/

/-- The run that these steps make. -/
def SaveRun.runOf (env : SaveEnv) : SaveRun → List SaveAct → List (SaveAct × SaveRun)
  | _, [] => []
  | s, act :: acts =>
    match s.step env act with
    | some s' => (act, s') :: runOf env s' acts
    | none => []

theorem trace_runOf (env : SaveEnv) (s : SaveRun) (acts : List SaveAct) :
    Trace (SaveRun.Step env) s (s.runOf env acts) := by
  induction acts generalizing s with
  | nil => exact .nil s
  | cons act acts ih =>
    unfold SaveRun.runOf
    cases taken : s.step env act with
    | none => exact .nil s
    | some s' => exact .cons taken (ih s')

/-- The name `d/x.fsa`. -/
def selfName : Path := [0x64, slash, 0x78, 0x2e, 0x66, 0x73, 0x61]

/-- A system whose current directory is the root, where nothing fails and the archive is a new
file. -/
def selfEnv : SaveEnv where
  kernel :=
    { loc := fun path => if path ∈ [selfName, slash :: selfName, 0x2e :: slash :: selfName]
        then some 1 else none
      empty := rfl
      realpath := fun _ _ => none
      stats := fun _ => true
      opens := fun _ => true
      stops := fun _ => none
      allocates := fun _ => true }
  options := ⟨false, 0⟩
  mem := ⟨fun _ => 0, fun _ => 0⟩
  md5 := ⟨fun _ => List.replicate 16 0, length_zeroDigest⟩
  opts := plainOptions

/-- A save of the directory `d` in which the archive is made, with this path to it. -/
def selfStart (basepath root path : Path) : SaveRun :=
  .start selfEnv 1 basepath (fun _ => none) []
    [⟨root, treeVisits plainOptions path plainDirCalls
      (.entry [0x78, 0x2e, 0x66, 0x73, 0x61] (some { linkedStat 1 with nlink := 1 })
        (emptyFileCalls true) plainDirCalls .eof .eof)⟩] plainSavear

/-- The archive is created before the directory is walked. -/
def selfActs : List SaveAct := [.writer, .writer, .look, .archive, .look]

/-- With an absolute path for both, the archive is left out. -/
theorem never_in_itself_absolute : NeverInItself selfEnv
    (selfStart (slash :: selfName) [slash] [slash, 0x64])
    ((selfStart (slash :: selfName) [slash] [slash, 0x64]).runOf selfEnv selfActs) := by
  apply (never_in_itself_iff selfEnv 1 _ _ [] _ plainSavear _ (trace_runOf selfEnv _ selfActs)).mpr
  refine Trace.allowed_cons nofun (Trace.allowed_cons nofun (Trace.allowed_cons ?_
    (Trace.allowed_cons trivial (Trace.allowed_cons ?_ (Trace.allowed_nil _)))))
  · rintro object found ⟨inode, -, named⟩
    have path := congrArg (Option.map PassedObject.fullpath) found
    obtain path : [slash, 0x64] = object.fullpath := Option.some.inj path
    rw [← path] at named
    cases (show none = some inode from named)
  · rintro object found -
    have path := congrArg (Option.map PassedObject.fullpath) found
    obtain path : slash :: selfName = object.fullpath := Option.some.inj path
    rw [← path]
    rfl

/-- With a relative path for both, the archive gets into itself: its header is on the queue. -/
theorem in_itself_relative :
    let start := selfStart selfName [0x2e] [0x64]
    ∃ trace, Trace (SaveRun.Step selfEnv) start trace ∧ ¬NeverInItself selfEnv start trace ∧
      ∃ head, .header head ∈ (Trace.last start trace).save.pushed ∧
        readPath selfEnv.mem head.dico ItemKey.path = some selfName := by
  intro start
  refine ⟨start.runOf selfEnv (selfActs ++ [.archive]), trace_runOf selfEnv start _, fun never => ?_, ?_⟩
  · have passed : (Trace.last start (start.runOf selfEnv selfActs)).passed.map PassedObject.fullpath =
        some (0x2e :: slash :: selfName) := by decide +kernel
    have volumes : (Trace.last start (start.runOf selfEnv selfActs)).writer.ai.created = [1] := by
      decide +kernel
    obtain ⟨object, found, path⟩ := Option.map_eq_some_iff.mp passed
    have reached : Trace.last start (start.runOf selfEnv selfActs) ∈
        Trace.states start (start.runOf selfEnv (selfActs ++ [.archive])) :=
      (Trace.mem_states_iff _ _ _).mpr ⟨start.runOf selfEnv selfActs, _, rfl, rfl⟩
    refine never _ reached object found ⟨1, ?_, ?_⟩
    · rw [volumes]
      exact List.mem_cons_self
    · rw [path]
      decide
  · have archived : (Trace.last start (start.runOf selfEnv (selfActs ++ [.archive]))).save.pushed.any
        (QueueData.isNamed selfEnv.mem selfName) = true := by decide +kernel
    obtain ⟨item, member, named⟩ := List.any_eq_true.mp archived
    cases item with
    | block blkinfo => cases named
    | header head => exact ⟨head, member, of_decide_eq_true named⟩

end FsArchiver
