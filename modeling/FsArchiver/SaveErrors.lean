import FsArchiver.Excludes
import FsArchiver.SavedParts

/-!
# Errors of a walk

A call of `createar_save_file` counts an error if the object is the archive itself, if one of its
attributes cannot be read, or if its contents cannot be read to their end. What is asked for
depends on the objects before it: further links of a file are not opened. The counters tell at the
end of a walk whether there was such a call, and the status whether the walk got to its end.
-/
namespace FsArchiver

open Lib

/-! ## Contents that are read -/

/-- Bytes that were read at their positions, from a position on. -/
def Delivers (file : Nat → Nat → Option (List UInt8)) (pos : Nat) (data : List UInt8) : Prop :=
  ∀ i byte, data[i]? = some byte → ∃ start count read, readFile file start count = some read ∧
    start ≤ pos + i ∧ read[pos + i - start]? = some byte

/-- A block and what follows it. -/
theorem Delivers.cons {file : Nat → Nat → Option (List UInt8)} {pos count : Nat}
    {read data : List UInt8} (found : readFile file pos count = some read)
    (rest : Delivers file (pos + read.length) data) : Delivers file pos (read ++ data) := by
  intro i byte at'
  by_cases inside : i < read.length
  · rw [List.getElem?_append_left inside] at at'
    exact ⟨pos, count, read, found, by omega, by rw [Nat.add_sub_cancel_left]; exact at'⟩
  · rw [List.getElem?_append_right (by omega)] at at'
    obtain ⟨start, count', read', found', before, own⟩ := rest _ _ at'
    have same : pos + read.length + (i - read.length) = pos + i := by omega
    rw [same] at before own
    exact ⟨start, count', read', found', before, own⟩

/-- A read that delivers all it is asked for. -/
def FullRead (file : Nat → Nat → Option (List UInt8)) (blksize filesize pos : Nat) : Prop :=
  ∃ read, readFile file pos (min (filesize - pos) blksize) = some read ∧
    read.length = min (filesize - pos) blksize

/-- The loop has read the whole file. -/
def RegfileBlocks.Whole (loop : RegfileBlocks) : Prop := loop.failed = false ∧ loop.complete = true

/-- The loop over the blocks of a file reads all of it if every block is read in full. -/
theorem regfileBlocks_whole_iff (fsid : UInt16) {blksize filesize : Nat}
    (file : Nat → Nat → Option (List UInt8)) (positive : 0 < blksize) (fuel pos : Nat)
    (aligned : blksize ∣ pos ∨ filesize ≤ pos) (enough : filesize ≤ pos + fuel) :
    (regfileBlocks fsid blksize filesize file fuel pos false).Whole ↔
      ∀ start, pos ≤ start → start < filesize → blksize ∣ start →
        FullRead file blksize filesize start := by
  induction fuel generalizing pos with
  | zero =>
    simp only [regfileBlocks, RegfileBlocks.Whole, and_self, true_iff]
    intro start behind inside
    omega
  | succ fuel ih =>
    by_cases more : pos < filesize
    · have divides : blksize ∣ pos := aligned.resolve_right (by omega)
      have here {read : List UInt8}
          (found : readFile file pos (min (filesize - pos) blksize) = some read)
          (full : FullRead file blksize filesize pos) :
          read.length = min (filesize - pos) blksize := by
        obtain ⟨read', found', length⟩ := full
        rw [found] at found'
        rw [Option.some.inj found', length]
      have onward := ih (pos + min (filesize - pos) blksize)
      simp only [RegfileBlocks.Whole, regfileBlocks, more, ↓reduceIte, Bool.false_eq_true] at onward ⊢
      cases found : readFile file pos (min (filesize - pos) blksize) with
      | none =>
        simp only [Bool.true_eq_false, Bool.false_eq_true, and_self, false_iff]
        intro full
        obtain ⟨read, found', -⟩ := full pos (Nat.le_refl pos) more divides
        rw [found] at found'
        cases found'
      | some read =>
        by_cases whole : read.length = min (filesize - pos) blksize
        · simp only [whole, ↓reduceIte, Bool.true_and]
          have next : blksize ∣ pos + min (filesize - pos) blksize ∨
              filesize ≤ pos + min (filesize - pos) blksize := by
            by_cases last : filesize - pos ≤ blksize
            · exact .inr (by omega)
            · rw [Nat.min_eq_right (by omega)]
              exact .inl ((Nat.dvd_add_right divides).mpr (Nat.dvd_refl blksize))
          rw [onward next (by omega)]
          constructor
          · intro later start behind inside divides'
            by_cases same : start = pos
            · rw [same]
              exact ⟨read, found, whole⟩
            · -- the next multiple of the block size is behind this block
              have gap : blksize ≤ start - pos :=
                Nat.le_of_dvd (by omega) (Nat.dvd_sub divides' divides)
              exact later start (by omega) inside divides'
          · intro all start behind inside divides'
            exact all start (by omega) inside divides'
        · simp only [whole, ↓reduceIte, Bool.false_and, Bool.false_eq_true, and_false, false_iff]
          intro full
          exact whole (here found (full pos (Nat.le_refl pos) more divides))
    · simp only [regfileBlocks, RegfileBlocks.Whole, more, ↓reduceIte, and_self, true_iff]
      intro start behind inside
      omega

/-- The blocks of a file that was read hold its data. -/
theorem regfileBlocks_delivers (fsid : UInt16) {blksize filesize : Nat}
    (file : Nat → Nat → Option (List UInt8)) (fuel pos : Nat)
    (whole : (regfileBlocks fsid blksize filesize file fuel pos false).Whole) :
    Delivers file pos
      (blocksData (regfileBlocks fsid blksize filesize file fuel pos false).blocks) := by
  induction fuel generalizing pos with
  | zero =>
    intro i byte found
    cases found
  | succ fuel ih =>
    by_cases more : pos < filesize
    · simp only [RegfileBlocks.Whole, regfileBlocks, more, ↓reduceIte, Bool.false_eq_true] at whole ⊢
      cases found : readFile file pos (min (filesize - pos) blksize) with
      | none => simp [found] at whole
      | some read =>
        by_cases full : read.length = min (filesize - pos) blksize
        · simp only [found, full, ↓reduceIte, Bool.true_and] at whole ⊢
          have rest : Delivers file (pos + read.length) (blocksData (regfileBlocks fsid blksize
              filesize file fuel (pos + min (filesize - pos) blksize) false).blocks) := by
            rw [full]
            exact ih _ whole
          exact Delivers.cons found rest
        · simp [found, full] at whole
    · simp only [regfileBlocks, more, ↓reduceIte]
      intro i byte found
      cases found

namespace SavedObject

/-- A regular file with several links whose keys are those of an earlier one. -/
def IsLink (before : List SavedObject) (object : SavedObject) : Prop :=
  object.st.nlink > 1 ∧
    (firstWith SavedObject.key (before.filter SavedObject.several) object.key).isSome

/-- The file is opened, and every block is read in full. -/
def ReadsWhole (opts : SaveOptions) (object : SavedObject) : Prop :=
  ∃ file, object.calls.openFile = some file ∧ ∀ start < object.st.size.toNat,
    opts.datablocksize ∣ start → FullRead file opts.datablocksize object.st.size.toNat start

/-- A call on the object fails, and the error is counted. -/
def Errs (opts : SaveOptions) (fstype : Filesys) (before : List SavedObject)
    (object : SavedObject) : Prop :=
  object.calls.isCurvol = true ∨ (object.st.fileType ≠ .other ∧
    (attrsOk fstype object.relpath object.st object.calls = false ∨
      (object.st.fileType = .reg ∧ ¬object.IsLink before ∧ ¬object.ReadsWhole opts)))

/-- The data of a file: as many bytes as `st_size` says, which were read at their positions. -/
def HasData (object : SavedObject) (data : List UInt8) : Prop :=
  data.length = object.st.size.toNat ∧
    ∃ file, object.calls.openFile = some file ∧ Delivers file 0 data

end SavedObject

section Saved

variable {md5 : Md5} {opts : SaveOptions}

/-- The contents of a file are saved if all of it is read. -/
theorem producedContents_reg (sizes : opts.FromCmdline) {call : SaveCall}
    {objtype : ObjType} (d : Dico) (fsid : UInt16)
    (regular : objtype = .regfileunique ∨
      (objtype = .regfilemulti ∧ 0 < call.st.size.toNat ∧
        call.st.size.toNat < opts.smallfilethresh)) :
    (producedContents md5 opts fsid objtype d call.st call.calls).2 = true ↔
      call.toSavedObject.ReadsWhole opts := by
  obtain ⟨positive, -⟩ := sizes.blocksize
  unfold SavedObject.ReadsWhole
  rcases regular with rfl | ⟨rfl, nonempty, small⟩
  · cases opened : call.calls.openFile with
    | none => simp [producedContents, opened]
    | some file =>
      have complete := regfileBlocks_whole_iff fsid file positive call.st.size.toNat 0
        (.inl (Nat.dvd_zero _)) (Nat.le_add_left _ _)
      have loop : (producedContents md5 opts fsid .regfileunique d call.st call.calls).2 = true ↔
          (readBlocks opts fsid call.st file).Whole := by
        simp only [producedContents, opened, RegfileBlocks.Whole]
        cases (readBlocks opts fsid call.st file).failed <;> simp
      rw [loop, readBlocks, complete]
      simp
  · cases opened : call.calls.openFile with
    | none => simp [producedContents, opened]
    | some file =>
      obtain ⟨-, fits⟩ := sizes.fits small
      have room : call.st.size.toNat ≤ opts.datablocksize := by omega
      have once : (∀ start < call.st.size.toNat, opts.datablocksize ∣ start →
          FullRead file opts.datablocksize call.st.size.toNat start) ↔
          FullRead file opts.datablocksize call.st.size.toNat 0 := by
        constructor
        · intro all
          exact all 0 nonempty (Nat.dvd_zero _)
        · intro first start inside divides
          have zero : start = 0 := Nat.eq_zero_of_dvd_of_lt divides (by omega)
          rw [zero]
          exact first
      simp only [producedContents, opened, Option.some.injEq, exists_eq_left', once]
      unfold FullRead
      rw [Nat.sub_zero, Nat.min_eq_left room]
      cases readFile file 0 call.st.size.toNat with
      | none => simp
      | some read => simp

end Saved

/-- The call counts an error. -/
def SaveCall.fails (md5 : Md5) (opts : SaveOptions) (call : SaveCall) : Bool :=
  call.calls.isCurvol || (decide (objectType opts call.save call.st ≠ .null) &&
    !(call.produced md5 opts).2)

/-- Files with contents of their own are no links. -/
theorem linkTarget_of_contents {opts : SaveOptions} {save : Savear} {st : Stat}
    (contents : objectType opts save st = .regfileunique ∨ objectType opts save st = .regfilemulti) :
    linkTarget save st = none := by
  have isReg := isReg_of_objectType contents
  cases seen : linkTarget save st with
  | none => rfl
  | some target =>
    have link : objectType opts save st = .hardlink :=
      objectType_hardlink.mpr ⟨isReg, by rw [seen]; rfl⟩
    rw [link] at contents
    exact absurd contents (by decide)

/-- A call counts an error if one on its object fails. -/
theorem SaveCall.fails_iff {md5 : Md5} {opts : SaveOptions} (sizes : opts.FromCmdline)
    {call : SaveCall} {before : List SavedObject}
    (linked : (linkTarget call.save call.st).isSome = true ↔ call.IsLink before) :
    call.fails md5 opts = true ↔ call.Errs opts call.save.fstype before := by
  unfold SaveCall.fails SavedObject.Errs
  cases curvol : call.calls.isCurvol with
  | true => simp
  | false =>
    by_cases unknown : objectType opts call.save call.st = .null
    · simp [unknown, objectType_eq_null.mp unknown]
    · have known := mt objectType_eq_null.mpr unknown
      cases attrs : attrsOk call.save.fstype call.relpath call.st call.calls with
      | false =>
        have nothing : (call.produced md5 opts).2 = false := by
          simp [SaveCall.produced, FsArchiver.produced, attrs]
        simp [unknown, known, nothing]
      | true =>
        have made : call.produced md5 opts =
            producedContents md5 opts call.save.fsid (objectType opts call.save call.st)
              (objectDico opts call.save call.relpath call.st call.calls) call.st call.calls := by
          simp [SaveCall.produced, FsArchiver.produced, curvol, unknown, attrs]
        simp only [Bool.false_or, Bool.false_eq_true, false_or, unknown, known, ne_eq,
          not_false_eq_true, decide_true, Bool.true_and, true_and, Bool.not_eq_true',
          ← Bool.not_eq_true, made]
        rw [← linked]
        cases type : objectType opts call.save call.st with
        | null => exact absurd type unknown
        | regfileunique =>
          have isReg := isReg_of_objectType (.inl type)
          have alone := linkTarget_of_contents (.inl type)
          rw [producedContents_reg sizes _ _ (.inl rfl)]
          simp [isReg, alone]
        | regfilemulti =>
          have isReg := isReg_of_objectType (.inr type)
          have alone := linkTarget_of_contents (.inr type)
          rw [producedContents_reg sizes _ _
            (.inr ⟨rfl, positive_of_objectType type, small_of_objectType type⟩)]
          simp [isReg, alone]
        | hardlink =>
          have seen := (objectType_hardlink.mp type).2
          cases call.calls.openFile <;> simp [producedContents, seen]
        | dir | symlink | chardev | blockdev | fifo | socket =>
          have other : call.st.fileType ≠ .reg := by
            intro isReg
            have regular := type
            simp only [objectType, isReg] at regular
            unfold regfileType at regular
            split at regular
            · cases regular
            · split at regular <;> cases regular
          cases call.calls.openFile <;> simp [producedContents, other]

/-! ## Walks that get to their end -/

section Walk

variable {mem : Mem} {md5 : Md5} {opts : SaveOptions}

/-- An evaluation gets to its end unless `lstat64` fails. -/
theorem saveVisits_eval_ok (visits : List Visit) (save : Savear) :
    (saveVisits mem md5 opts true visits save).1 = true ↔ .stop ∉ visits := by
  induction visits generalizing save with
  | nil => simp [saveVisits]
  | cons visit rest ih =>
    cases visit with
    | stop => simp [saveVisits]
    | object relpath st calls =>
      have ok := @createarSaveFile_ok mem md5 opts true save relpath st calls
      simp only [Bool.or_true, Bool.true_or] at ok
      simp only [saveVisits]
      cases ran : createarSaveFile mem md5 opts save relpath st calls true with
      | mk returned save' =>
        rw [ran] at ok
        subst ok
        simpa using ih save'

/-- A walk that copies gets to its end if every visit goes on. -/
theorem saveVisits_copy_ok (visits : List Visit) (save : Savear) :
    (saveVisits mem md5 opts false visits save).1 = true ↔ ∀ visit ∈ visits, visit.GoesOn := by
  induction visits generalizing save with
  | nil => simp [saveVisits]
  | cons visit rest ih =>
    cases visit with
    | stop => simp [saveVisits, Visit.GoesOn]
    | object relpath st calls =>
      have ok := @createarSaveFile_ok mem md5 opts false save relpath st calls
      have goes : (Visit.object relpath st calls).GoesOn ↔
          (createarSaveFile mem md5 opts save relpath st calls false).1 = true := by
        rw [ok]
        simp [Visit.GoesOn]
      rw [List.forall_mem_cons, goes]
      simp only [saveVisits]
      cases ran : createarSaveFile mem md5 opts save relpath st calls false with
      | mk returned save' =>
        cases returned with
        | false => simp
        | true => simpa using ih save'

/-- An evaluation leaves the small files alone. -/
theorem saveVisits_eval_regmulti (visits : List Visit) (save : Savear) :
    (saveVisits mem md5 opts true visits save).2.regmulti = save.regmulti := by
  induction visits generalizing save with
  | nil => rfl
  | cons visit rest ih =>
    cases visit with
    | stop => rfl
    | object relpath st calls =>
      have same : (createarSaveFile mem md5 opts save relpath st calls true).2.regmulti =
          save.regmulti := by
        unfold createarSaveFile
        rw [createarItemStdattr_eq]
        cases calls.isCurvol <;> rfl
      simp only [saveVisits]
      cases ran : createarSaveFile mem md5 opts save relpath st calls true with
      | mk returned save' =>
        rw [ran] at same
        cases returned with
        | false => exact same
        | true => exact (ih save').trans same

end Walk

/-! ## Errors that are counted -/

section Errors

variable {mem : Mem} {md5 : Md5} {opts : SaveOptions}

/-- Objects that are saved are no errors. -/
theorem errcount_count (stats : Stats) (objtype : ObjType) :
    statsErrcount (stats.count objtype) = statsErrcount stats := by
  cases objtype <;> rfl

/-- Every type has a counter of errors. -/
theorem errcount_fail (stats : Stats) {objtype : ObjType} (known : objtype ≠ .null) :
    statsErrcount (stats.fail objtype) = statsErrcount stats + 1 := by
  unfold statsErrcount Stats.fail
  cases objtype with
  | null => exact absurd rfl known
  | dir | symlink | hardlink | chardev | blockdev | fifo | socket | regfileunique | regfilemulti =>
    simp only
    omega

/-- A call counts its error. -/
theorem VisitAdds.errcount {save save' : Savear} {relpath : Path} {st : Stat} {calls : ObjectCalls}
    {added : List Packet × List PackEntry}
    (visited : VisitAdds md5 opts save save' relpath st calls added) :
    statsErrcount save'.stats = statsErrcount save.stats +
      if SaveCall.fails md5 opts ⟨⟨relpath, st, calls⟩, save⟩ then 1 else 0 := by
  rw [visited.stats]
  unfold SaveCall.fails SaveCall.produced
  cases curvol : calls.isCurvol with
  | true => simp [errcount_fail]
  | false =>
    by_cases unknown : objectType opts save st = .null
    · simp [unknown]
    · cases saved : (produced md5 opts save relpath st calls).2 with
      | true => simp [unknown, errcount_count]
      | false => simp [unknown, errcount_fail]

/-- The errors of a walk are those of its calls. -/
theorem errcount_saveVisits (sizes : opts.FromCmdline) (visits : List Visit) {save : Savear}
    {files : List PackEntry} (pends : Pends opts save files) :
    statsErrcount (saveVisits mem md5 opts false visits save).2.stats = statsErrcount save.stats +
      (savedCalls mem md5 opts false visits save).countP (SaveCall.fails md5 opts) := by
  induction visits generalizing save files with
  | nil => rfl
  | cons visit rest ih =>
    cases visit with
    | stop => rfl
    | object relpath st calls =>
      obtain ⟨-, visited⟩ := @createarSaveFile_adds mem md5 _ _ _ pends sizes relpath st calls
      have counted := visited.errcount
      simp only [saveVisits, savedCalls, List.countP_cons]
      cases ran : createarSaveFile mem md5 opts save relpath st calls false with
      | mk returned save' =>
        rw [ran] at visited counted
        cases returned with
        | false => simpa using counted
        | true =>
          have onward := ih visited.pends
          simp only at onward counted ⊢
          omega

end Errors

/-! ## Walks without errors -/

/-- No call on an object of a walk fails. -/
def NoErrors (opts : SaveOptions) (fstype : Filesys) (objects : List SavedObject) : Prop :=
  ∀ before object after, objects = before ++ object :: after → ¬object.Errs opts fstype before

section Walk

variable {mem : Mem} {md5 : Md5} {opts : SaveOptions} {visits : List Visit} {save : Savear}

/-- A call finds an earlier link in the table if there is one among the objects before it. -/
theorem isLink_iff (empty : save.dichardlinks = []) (fit : PathsFit (visitedPaths visits))
    {before after : List SaveCall} {call : SaveCall}
    (split : savedCalls mem md5 opts false visits save = before ++ call :: after) :
    (linkTarget call.save call.st).isSome = true ↔
      call.IsLink (before.map SaveCall.toSavedObject) := by
  rw [linkTarget_savedCalls empty fit split]
  unfold SavedObject.IsLink
  by_cases several : call.st.nlink > 1 <;> simp [several]

/-- A call of a walk counts an error if one on its object fails. -/
theorem fails_savedCalls (sizes : opts.FromCmdline) {files : List PackEntry}
    (pends : Pends opts save files) (empty : save.dichardlinks = [])
    (fit : PathsFit (visitedPaths visits)) {before after : List SaveCall} {call : SaveCall}
    (split : savedCalls mem md5 opts false visits save = before ++ call :: after) :
    call.fails md5 opts = true ↔
      call.Errs opts save.fstype (before.map SaveCall.toSavedObject) := by
  have fstype : call.save.fstype = save.fstype :=
    fstype_savedCalls sizes pends (by rw [split]; exact List.mem_append_right _ List.mem_cons_self)
  rw [SaveCall.fails_iff sizes (isLink_iff empty fit split), fstype]

/-- A walk has no errors if none of its calls counts one. -/
theorem noErrors_iff (sizes : opts.FromCmdline) {files : List PackEntry}
    (pends : Pends opts save files) (empty : save.dichardlinks = [])
    (fit : PathsFit (visitedPaths visits)) :
    NoErrors opts save.fstype (savedObjects false visits) ↔
      ∀ call ∈ savedCalls mem md5 opts false visits save, call.fails md5 opts = false := by
  constructor
  · intro none call member
    obtain ⟨before, after, split⟩ := List.append_of_mem member
    have calm := none _ _ _ (savedObjects_split split)
    rw [← fails_savedCalls sizes pends empty fit split] at calm
    simpa using calm
  · intro calm before object after split errs
    rw [← @savedCalls_objects mem md5 opts false visits save] at split
    obtain ⟨front, rest, splitCalls, rfl, tail⟩ := List.map_eq_append_iff.mp split
    obtain ⟨call, later, rfl, rfl, -⟩ := List.map_eq_cons_iff.mp tail
    have fails := (fails_savedCalls sizes pends empty fit splitCalls).mpr errs
    rw [calm call (by rw [splitCalls]; exact List.mem_append_right _ List.mem_cons_self)] at fails
    cases fails

/-- The counters of a walk tell whether it had errors. -/
theorem errcount_walk (sizes : opts.FromCmdline) (save : Savear)
    (fit : PathsFit (visitedPaths visits)) :
    let walked := saveVisits mem md5 opts false visits (walkStart opts save)
    statsErrcount save.stats ≤ statsErrcount walked.2.stats ∧
      (statsErrcount walked.2.stats = statsErrcount save.stats ↔
        NoErrors opts save.fstype (savedObjects false visits)) := by
  have pends := pends_walkStart opts save
  have counted := @errcount_saveVisits mem md5 opts sizes visits _ _ pends
  have errors := @noErrors_iff mem md5 opts visits _ sizes _ pends rfl fit
  have fstype : (walkStart opts save).fstype = save.fstype := rfl
  have stats : (walkStart opts save).stats = save.stats := rfl
  rw [stats] at counted
  rw [fstype] at errors
  intro walked
  change statsErrcount walked.2.stats = _ at counted
  refine ⟨by omega, ?_⟩
  have none : statsErrcount walked.2.stats = statsErrcount save.stats ↔
      (savedCalls mem md5 opts false visits (walkStart opts save)).countP
        (SaveCall.fails md5 opts) = 0 := by omega
  rw [none, errors, List.countP_eq_zero]
  simp

end Walk

end FsArchiver
