import FsArchiver.ArchFiles

/-!
# The calls of `archwriter_create`

One for each volume: `thread_writer_fct` makes the first, and `archwriter_split_if_necessary`
makes the others. What is kept by the calls between them and by the step to the next volume holds
behind a whole run, of all volumes that the run has tried to create.
-/
namespace FsArchiver

open Lib

namespace FileWriter

open Failing

/-- The state in which `archwriter_split_if_necessary` calls `archwriter_create`, if it does. -/
def splitCreation (kernel : Kernel) (options : WriterOptions) (wb : List UInt8)
    (ai : FileWriter) : Option FileWriter :=
  if ai.archwriterSplitCheck options wb then
    match archwriterWriteVolfooter kernel false ai with
    | (none, _) => none
    | (some (), ai) => some (archwriterIncvolume kernel ai.archwriterClose).2
  else none

/-- The state in which `archwriter_dowrite_block` or `archwriter_dowrite_header` calls
`archwriter_create`, if it does. -/
def itemCreation (kernel : Kernel) (options : WriterOptions) (item : QueueData)
    (ai : FileWriter) : Option FileWriter :=
  match allocate kernel ai with
  | (none, _) => none
  | (some (), ai) => (item.record ai.archid).bind (splitCreation kernel options · ai)

/-- `archwriter_dowrite_block` or `archwriter_dowrite_header`. -/
def dowriteItem (kernel : Kernel) (options : WriterOptions) : QueueData → Writing Unit
  | .block blkinfo => archwriterDowriteBlock kernel options blkinfo
  | .header headinfo => archwriterDowriteHeader kernel options headinfo

/-- The states in which the loop of `thread_writer_fct` has `archwriter_create` called. -/
def itemsCreations (kernel : Kernel) (options : WriterOptions) :
    List (Option QueueData) → FileWriter → List FileWriter
  | [], _ | none :: _, _ => []
  | some item :: rest, ai =>
    (itemCreation kernel options item ai).toList ++
      match dowriteItem kernel options item ai with
      | (none, _) => []
      | (some (), ai) => itemsCreations kernel options rest ai

/-- The states in which a run of `thread_writer_fct` has `archwriter_create` called, one for each
volume. -/
def creations (kernel : Kernel) (options : WriterOptions) (items : List (Option QueueData))
    (ai : FileWriter) : List FileWriter :=
  match archwriterVolpath kernel ai with
  | (none, _) => []
  | (some (), ai) =>
    ai ::
      match (archwriterCreate kernel options >>= fun _ => archwriterWriteVolheader kernel) ai with
      | (none, _) => []
      | (some (), ai) => itemsCreations kernel options items ai

variable {kernel : Kernel} {options : WriterOptions} {ai : FileWriter}

/-- An item is written behind a split in front of its record. -/
theorem dowriteItem_eq (item : QueueData) :
    dowriteItem kernel options item = allocate kernel >>= fun _ => get >>= fun ai =>
      ofOption (item.record ai.archid) >>= fun wb =>
        archwriterSplitIfNecessary kernel options wb >>= fun _ => archwriterWriteBuffer kernel wb := by
  cases item with
  | block blkinfo => rfl
  | header headinfo => rfl

/-- The loop writes its first item and goes on. -/
theorem writeItems_cons (item : QueueData) (rest : List (Option QueueData)) :
    writeItems kernel options (some item :: rest) =
      dowriteItem kernel options item >>= fun _ => writeItems kernel options rest := by
  cases item with
  | block blkinfo => rfl
  | header headinfo => rfl

/-- `archwriter_volpath` changes the path at most. -/
theorem archwriterVolpath_same {value : Option Unit} {at' : FileWriter}
    (ran : archwriterVolpath kernel ai = (value, at')) :
    ∃ volpath, at' = { ai with calls := ai.calls + 1, volpath } := by
  rw [archwriterVolpath, bind_run_of (show nextCall ai = (some ai.calls, _) from rfl),
    get_bind_run] at ran
  dsimp only at ran
  cases found : getPathToVolume (kernel.realpath ai.calls ai.basepath) ai.basepath ai.curvol with
  | none =>
    rw [found] at ran
    cases ran
    exact ⟨ai.volpath, rfl⟩
  | some volpath =>
    rw [found] at ran
    cases ran
    exact ⟨volpath, rfl⟩

/-- `archwriter_incvolume` changes the number and the path. -/
theorem archwriterIncvolume_same {value : Option Unit} {at' : FileWriter}
    (ran : archwriterIncvolume kernel ai = (value, at')) :
    ∃ volpath, at' = { ai with curvol := ai.curvol + 1, calls := ai.calls + 1, volpath } := by
  cases volpath : archwriterVolpath kernel { ai with curvol := ai.curvol + 1 } with
  | mk result after =>
    have same : at' = after := by
      change (some (), (archwriterVolpath kernel { ai with curvol := ai.curvol + 1 }).2) = _ at ran
      rw [volpath] at ran
      exact (Prod.ext_iff.mp ran).2.symm
    rw [same]
    exact archwriterVolpath_same volpath

/-! ## Invariants of the calls -/

/-- A property of the writer and of the calls of `archwriter_create` so far is kept. -/
structure Tracks (kernel : Kernel) (options : WriterOptions)
    (inv : List FileWriter → FileWriter → Prop) : Prop where
  /-- A call that changes nothing. -/
  call : ∀ {made ai}, inv made ai → inv made { ai with calls := ai.calls + 1 }
  /-- Writing to the open file. -/
  append : ∀ {made ai inode} (data : List UInt8), inv made ai → ai.archfd = some inode →
    inv made { ai with disk := appendTo ai.disk inode data }
  /-- Going on to the next volume. -/
  next : ∀ {made ai at'}, inv made ai →
    archwriterIncvolume kernel ai.archwriterClose = (some (), at') →
    inv (made ++ [at']) (archwriterCreate kernel options at').2

namespace Tracks

variable {inv : List FileWriter → FileWriter → Prop} {made : List FileWriter}

theorem nextCall_keeps (tracks : Tracks kernel options inv) : Keeps (inv made) nextCall :=
  keeps_get_bind fun _ holds => tracks.call holds

theorem allocate_keeps (tracks : Tracks kernel options inv) : Keeps (inv made) (allocate kernel) :=
  tracks.nextCall_keeps.bind fun _ => keeps_ite (fun _ => keeps_pure ()) fun _ => keeps_fail

theorem archwriterWriteBuffer_keeps (tracks : Tracks kernel options inv) (wb : List UInt8) :
    Keeps (inv made) (archwriterWriteBuffer kernel wb) := by
  refine keeps_ite (fun _ => keeps_fail) fun _ => tracks.nextCall_keeps.bind fun call =>
    keeps_get_bind fun ai holds => ?_
  cases opened : ai.archfd with
  | none => exact holds
  | some inode =>
    have appended := tracks.append (wb.take ((kernel.stops call).getD wb.length)) holds opened
    exact (keeps_ite (fun _ => keeps_pure ()) fun _ => keeps_fail) _ appended

theorem archwriterWriteVolheader_keeps (tracks : Tracks kernel options inv) :
    Keeps (inv made) (archwriterWriteVolheader kernel) :=
  tracks.allocate_keeps.bind fun _ => keeps_get fun _ =>
    (keeps_ofOption _).bind tracks.archwriterWriteBuffer_keeps

theorem archwriterWriteVolfooter_keeps (tracks : Tracks kernel options inv) (lastvol : Bool) :
    Keeps (inv made) (archwriterWriteVolfooter kernel lastvol) :=
  tracks.allocate_keeps.bind fun _ => keeps_get fun _ =>
    (keeps_ofOption _).bind tracks.archwriterWriteBuffer_keeps

/-- A split goes on to the next volume or changes nothing but the open file. -/
theorem archwriterSplitIfNecessary_tracked (tracks : Tracks kernel options inv) (wb : List UInt8)
    (holds : inv made ai) :
    inv (made ++ (splitCreation kernel options wb ai).toList)
      (archwriterSplitIfNecessary kernel options wb ai).2 := by
  have footed := tracks.archwriterWriteVolfooter_keeps false ai holds
  rw [archwriterSplitIfNecessary, get_bind_run, splitCreation]
  by_cases full : ai.archwriterSplitCheck options wb = true
  · rw [if_pos full, if_pos full]
    cases footer : archwriterWriteVolfooter kernel false ai with
    | mk value closed =>
      rw [footer] at footed
      cases value with
      | none =>
        rw [bind_run_none footer, Option.toList_none, List.append_nil]
        exact footed
      | some value =>
        have inc : archwriterIncvolume kernel closed.archwriterClose =
            (some (), (archwriterIncvolume kernel closed.archwriterClose).2) := rfl
        rw [bind_run_of footer, bind_run_of (modify_run archwriterClose closed), bind_run_of inc]
        exact Keeps.behind (fun _ => tracks.archwriterWriteVolheader_keeps) (tracks.next footed inc)
  · rw [if_neg full, if_neg full, Option.toList_none, List.append_nil]
    exact holds

/-- An item is written behind a split in front of its record. -/
theorem dowriteItem_tracked (tracks : Tracks kernel options inv) (item : QueueData)
    (holds : inv made ai) :
    inv (made ++ (itemCreation kernel options item ai).toList)
      (dowriteItem kernel options item ai).2 := by
  have allocated := tracks.allocate_keeps ai holds
  rw [dowriteItem_eq, itemCreation]
  cases ran : allocate kernel ai with
  | mk value after =>
    rw [ran] at allocated
    cases value with
    | none =>
      rw [bind_run_none ran, Option.toList_none, List.append_nil]
      exact allocated
    | some value =>
      rw [bind_run_of ran, get_bind_run]
      cases record : item.record after.archid with
      | none =>
        simp only [Option.bind_none, Option.toList_none, List.append_nil, ofOption_none,
          fail_bind_run, record]
        exact allocated
      | some wb =>
        simp only [Option.bind_some, ofOption_some, pure_bind_run, record]
        exact Keeps.behind (fun _ => tracks.archwriterWriteBuffer_keeps wb)
          (tracks.archwriterSplitIfNecessary_tracked wb allocated)

/-- The loop writes one item after the other. -/
theorem writeItems_tracked (tracks : Tracks kernel options inv) (items : List (Option QueueData))
    (holds : inv made ai) :
    inv (made ++ itemsCreations kernel options items ai) (writeItems kernel options items ai).2 := by
  induction items generalizing made ai with
  | nil =>
    rw [itemsCreations, List.append_nil]
    exact holds
  | cons item rest ih =>
    cases item with
    | none =>
      rw [itemsCreations, List.append_nil]
      exact holds
    | some item =>
      have written := tracks.dowriteItem_tracked item holds
      rw [writeItems_cons, itemsCreations, ← List.append_assoc]
      cases ran : dowriteItem kernel options item ai with
      | mk value after =>
        rw [ran] at written
        cases value with
        | none =>
          rw [bind_run_none ran, List.append_nil]
          exact written
        | some value =>
          rw [bind_run_of ran]
          exact ih written

/-- What holds behind the first call holds at the end, of all calls that were made. -/
theorem writeArchive_tracked (tracks : Tracks kernel options inv) (items : List (Option QueueData))
    {first : FileWriter} (volpath : archwriterVolpath kernel ai = (some (), first))
    (created : inv [first] (archwriterCreate kernel options first).2) :
    inv (creations kernel options items ai) (writeArchive kernel options items ai).2 := by
  have headed : inv [first]
      ((archwriterCreate kernel options >>= fun _ => archwriterWriteVolheader kernel) first).2 :=
    Keeps.behind (fun _ => tracks.archwriterWriteVolheader_keeps) created
  rw [writeArchive, bind_run_of volpath, creations, volpath, ← bind_bind]
  dsimp only
  cases ran : (archwriterCreate kernel options >>= fun _ => archwriterWriteVolheader kernel)
      first with
  | mk value after =>
    rw [ran] at headed
    cases value with
    | none =>
      rw [bind_run_none ran]
      exact headed
    | some value =>
      rw [bind_run_of ran]
      exact Keeps.behind (fun _ => tracks.archwriterWriteVolfooter_keeps true)
        (tracks.writeItems_tracked items headed)

end Tracks

end FileWriter

end FsArchiver
