import FsArchiver.HeaderBounds
import FsArchiver.Lib.Transition
import FsArchiver.Splitting

/-!
# Runs of the reader

The loop of `thread_reader_fct` over any content of the volume files. An iteration leaves the
reader further on in its volume, or in the next one: wherever a header or a block is given up, at
least the magic and the archive id are behind the reader. The number of the volume has 32 bits, so
that the loop may go round.
-/
namespace FsArchiver

open Lib

variable {src : Source} {mem : Mem} {ai ai' : ArchReader} {item : Option Enqueued}

/-! ## What one iteration does -/

/-- One iteration of the loop of `thread_reader_fct` that does not leave it. -/
def ReaderStep (src : Source) (ai : ArchReader) (item : Option Enqueued) (ai' : ArchReader) :
    Prop :=
  readNext src ai = .next item ai'

/-- The reader behind what it read, unless it gave up. -/
def Read.after {α : Type} : Read α → Option ArchReader
  | .ok _ ai => some ai
  | .minor ai => some ai
  | .fatal => none

/-- The next header is a volume footer. -/
def ArchReader.AtVolfooter (src : Source) (ai : ArchReader) : Prop :=
  ∃ head after, archreaderReadHeader src.mem ai true = .ok head after ∧ head.magic = .volf

/-- A dico leaves the reader further on in its volume. -/
theorem archreaderReadDico_after (left : (archreaderReadDico mem ai).after = some ai') :
    ∃ size, ai' = ai.skip size := by
  unfold archreaderReadDico at left
  simp only at left
  split at left
  · cases left
  split at left
  · cases left
  next len atBody readLen =>
  obtain ⟨-, -, rfl⟩ := archreaderReadData_ahead readLen
  split at left
  · cases left
  next buffer atSum readBody =>
  obtain ⟨-, -, rfl⟩ := archreaderReadData_ahead readBody
  split at left
  · cases left
  next sum after readSum =>
  obtain ⟨-, -, rfl⟩ := archreaderReadData_ahead readSum
  rw [ArchReader.skip_skip, ArchReader.skip_skip] at left
  split at left
  · cases left
    exact ⟨_, rfl⟩
  split at left
  · cases left
  · cases left
    exact ⟨_, rfl⟩

/-- Behind a magic at least the archive id is read. -/
theorem readHeaderAt_after {start : Nat} {magic : Magic}
    (left : (readHeaderAt mem ai start magic).after = some ai') :
    ∃ size, ai' = { ai with pos := start + 8 + size } := by
  unfold readHeaderAt at left
  split at left
  · cases left
  next id atFsid readId =>
  obtain ⟨-, -, rfl⟩ := archreaderReadData_ahead readId
  split at left
  · cases left
    exact ⟨0, rfl⟩
  split at left
  · cases left
  next fsid atDico readFsid =>
  obtain ⟨-, -, rfl⟩ := archreaderReadData_ahead readFsid
  rw [ArchReader.skip_skip] at left
  split at left
  next d after read =>
    cases left
    obtain ⟨size, same⟩ := archreaderReadDico_after (congrArg Read.after read)
    subst same
    exact ⟨2 + size, by simp [ArchReader.skip, sizeofMagic]; omega⟩
  next after read =>
    cases left
    obtain ⟨size, same⟩ := archreaderReadDico_after (congrArg Read.after read)
    subst same
    exact ⟨2 + size, by simp [ArchReader.skip, sizeofMagic]; omega⟩
  · cases left

/-- A header leaves the reader at least eight bytes further on in its volume, which it has not
read to the end. -/
theorem archreaderReadHeader_after {allowseek : Bool}
    (left : (archreaderReadHeader mem ai allowseek).after = some ai') :
    ai.pos < ai.file.length ∧ ∃ size, 8 ≤ size ∧ ai' = ai.skip size := by
  unfold archreaderReadHeader at left
  split at left
  · cases left
  next offset magic found =>
  split at left
  · cases left
  obtain ⟨size, rfl⟩ := readHeaderAt_after left
  constructor
  · apply Nat.lt_of_not_le
    intro beyond
    rw [List.drop_of_length_le beyond] at found
    cases found
  · refine ⟨offset + 8 + size, by omega, ?_⟩
    simp only [ArchReader.skip, Nat.add_assoc]

/-- A block leaves the reader where it is or further on in its volume. -/
theorem archreaderReadBlock_after {d : Dico} {skipblock : Bool} {block : Option (BlockInfo × Bool)}
    (read : archreaderReadBlock mem ai d skipblock = some (block, ai')) :
    ∃ size, ai' = ai.skip size := by
  unfold archreaderReadBlock at read
  obtain ⟨head, -, read⟩ := Option.bind_eq_some_iff.mp read
  split at read
  · cases read
    exact ⟨_, rfl⟩
  obtain ⟨⟨buffer, after⟩, taken, read⟩ := Option.bind_eq_some_iff.mp read
  obtain ⟨-, -, rfl⟩ := archreaderReadData_ahead taken
  simp only at read
  split at read
  · cases read
    exact ⟨_, rfl⟩
  · cases read
    exact ⟨0, rfl⟩

/-- Reading a volume header stays in the volume. -/
theorem archreaderReadVolheader_keeps (read : archreaderReadVolheader mem ai = some ai') :
    ai'.file = ai.file ∧ ai'.curvol = ai.curvol := by
  unfold archreaderReadVolheader at read
  split at read
  · cases read
  · cases read
  next head after header =>
  obtain ⟨-, size, -, rfl⟩ := archreaderReadHeader_after (congrArg Read.after header)
  have kept : (ai.skip size).file = ai.file ∧ (ai.skip size).curvol = ai.curvol := ⟨rfl, rfl⟩
  generalize ai.skip size = behind at kept read
  obtain ⟨file, curvol⟩ := kept
  rw [← file, ← curvol]
  cases readid : dicoGetU32 mem head.dico 0 VolumeKey.headArchid with
  | none => simp [readid] at read
  | some readid =>
  cases volnum : dicoGetU32 mem head.dico 0 VolumeKey.headVolnum with
  | none => simp [volnum] at read
  | some volnum =>
  cases filefmt : dicoGetData head.dico 0 VolumeKey.headFileformatver maxFileFmtLen with
  | none => simp [filefmt] at read
  | some filefmt =>
  cases creatver : dicoGetData head.dico 0 VolumeKey.headProgvercreat maxProgVerLen with
  | none => simp [creatver] at read
  | some creatver =>
  simp only [readid, volnum, filefmt, creatver, Option.bind_eq_bind, Option.bind_some] at read
  -- no branch touches the file or the volume number
  grind

/-- A volume that is opened is the one the reader stands in. -/
theorem archreaderOpen_keeps {file : List UInt8} (opened : archreaderOpen ai file = some ai') :
    ai'.file = file ∧ ai'.curvol = ai.curvol := by
  unfold archreaderOpen at opened
  obtain ⟨volhead, -, opened⟩ := Option.bind_eq_some_iff.mp opened
  simp only at opened
  split at opened
  · cases opened
    exact ⟨rfl, rfl⟩
  split at opened
  · cases opened
    exact ⟨rfl, rfl⟩
  · cases opened

/-- A volume footer takes the reader to the next volume. -/
theorem readVolfooter_next {d : Dico} (taken : readVolfooter src ai d = .next item ai') :
    src.volume (ai.curvol + 1) = some ai'.file ∧ ai'.curvol = ai.curvol + 1 := by
  unfold readVolfooter at taken
  split at taken
  · cases taken
  split at taken
  · cases taken
  simp only at taken
  split at taken
  · cases taken
  next opened found =>
  obtain ⟨file, served, opening⟩ := Option.bind_eq_some_iff.mp found
  obtain ⟨unread, open', read⟩ := Option.bind_eq_some_iff.mp opening
  obtain ⟨file', curvol⟩ := archreaderReadVolheader_keeps read
  have unread' := archreaderOpen_keeps open'
  split at taken
  · cases taken
    rw [file', unread'.1, curvol, unread'.2]
    exact ⟨served, rfl⟩
  · cases taken

/-- An iteration that does not leave the loop reads a header of a volume that is not read to its
end. A volume footer takes it to the next volume, anything else further on in this one. -/
theorem ReaderStep.cases (step : ReaderStep src ai item ai') :
    ai.pos < ai.file.length ∧
      ((ai.AtVolfooter src ∧ src.volume (ai.curvol + 1) = some ai'.file ∧
          ai'.curvol = ai.curvol + 1) ∨
        (¬ai.AtVolfooter src ∧ ∃ size, 8 ≤ size ∧ ai' = ai.skip size)) := by
  unfold ReaderStep readNext at step
  cases read : archreaderReadHeader src.mem ai true with
  | fatal =>
    rw [read] at step
    cases step
  | minor after =>
    rw [read] at step
    cases step
    obtain ⟨unread, size, far, rfl⟩ := archreaderReadHeader_after (congrArg Read.after read)
    refine ⟨unread, .inr ⟨?_, size, far, rfl⟩⟩
    rintro ⟨head, after, delivered, -⟩
    rw [read] at delivered
    cases delivered
  | ok head after =>
    rw [read] at step
    obtain ⟨unread, size, far, rfl⟩ := archreaderReadHeader_after (congrArg Read.after read)
    refine ⟨unread, ?_⟩
    have noFooter (content : head.magic ≠ .volf) : ¬ai.AtVolfooter src := by
      rintro ⟨other, after, delivered, foot⟩
      rw [read] at delivered
      cases delivered
      exact content foot
    have other (content : head.magic ≠ .volf)
        (taken : readOther src (ai.skip size) head = .next item ai') :
        (ai.AtVolfooter src ∧ src.volume (ai.curvol + 1) = some ai'.file ∧
          ai'.curvol = ai.curvol + 1) ∨
        (¬ai.AtVolfooter src ∧ ∃ size, 8 ≤ size ∧ ai' = ai.skip size) := by
      refine .inr ⟨noFooter content, size, far, ?_⟩
      unfold readOther at taken
      split at taken
      · cases taken
        rfl
      · cases taken
        rfl
    cases magic : head.magic with
    | volf =>
      simp only [magic] at step
      obtain ⟨served, curvol⟩ := readVolfooter_next step
      exact .inl ⟨⟨head, _, read, magic⟩, served, curvol⟩
    | blkh =>
      simp only [magic] at step
      refine .inr ⟨noFooter (by rw [magic]; decide), ?_⟩
      unfold readBlock at step
      simp only at step
      split at step
      · cases step
      next taken =>
        cases step
        obtain ⟨more, rfl⟩ := archreaderReadBlock_after taken
        exact ⟨size + more, by omega, ArchReader.skip_skip ..⟩
      next taken =>
        cases step
        obtain ⟨more, rfl⟩ := archreaderReadBlock_after taken
        exact ⟨size + more, by omega, ArchReader.skip_skip ..⟩
    | volh | main | fsin | fsyb | dirs | objt | filf | datf =>
      simp only [magic] at step
      exact other (by rw [magic]; decide) step

/-! ## The loop ends -/

/-- The pair of volume number and position increases. -/
def ArchReader.Before (ai ai' : ArchReader) : Prop :=
  ai.curvol < ai'.curvol ∨ ai.curvol = ai'.curvol ∧ ai.pos < ai'.pos

/-- The reader is about to leave the volume with the greatest number for the next one. -/
def ArchReader.LeavesLast (src : Source) (ai : ArchReader) : Prop :=
  ai.curvol = 0xffffffff ∧ ai.AtVolfooter src

/-- No iteration of a run starts where this holds. -/
def NeverBefore (holds : ArchReader → Prop) (ai : ArchReader)
    (trace : List (Option Enqueued × ArchReader)) : Prop :=
  ∀ before item after rest, trace = before ++ (item, after) :: rest →
    ¬holds (Trace.last ai before)

/-- An iteration moves the reader on exactly if it does not leave the last volume. -/
theorem ReaderStep.before_iff (step : ReaderStep src ai item ai') :
    ai.Before ai' ↔ ¬ai.LeavesLast src := by
  obtain ⟨-, ⟨foot, -, curvol⟩ | ⟨content, size, far, rfl⟩⟩ := step.cases
  · have bound := ai.curvol.toNat_lt
    have sum : (ai.curvol + 1).toNat = (ai.curvol.toNat + 1) % 4294967296 := by
      rw [UInt32.toNat_add]
      rfl
    unfold ArchReader.Before ArchReader.LeavesLast
    rw [curvol, UInt32.lt_iff_toNat_lt, ← UInt32.toNat_inj, ← UInt32.toNat_inj, sum]
    have greatest : (0xffffffff : UInt32).toNat = 4294967295 := rfl
    rw [greatest]
    constructor
    · rintro increases ⟨last, -⟩
      rw [last] at increases
      omega
    · intro inside
      have other : ai.curvol.toNat ≠ 4294967295 := fun last => inside ⟨last, foot⟩
      omega
  · constructor
    · rintro - ⟨-, foot⟩
      exact content foot
    · intro
      refine .inr ⟨rfl, ?_⟩
      rw [ArchReader.skip_pos]
      omega

/-- A reader that never leaves the last volume comes to its end. The bytes ahead in a volume are
fewer behind each iteration, and the volumes behind it are fewer after each change. -/
theorem Reads.finishes (ai : ArchReader)
    (stays : ∀ trace, Trace (ReaderStep src) ai trace → NeverBefore (·.LeavesLast src) ai trace) :
    ∃ found, Reads src ai found := by
  cases next : readNext src ai with
  | stop => exact ⟨[], .stop next⟩
  | next item ai' =>
    have step : ReaderStep src ai item ai' := next
    have inside : ¬ai.LeavesLast src :=
      stays [(item, ai')] (.cons step (.nil ai')) [] item ai' [] rfl
    have stays' (trace) (run : Trace (ReaderStep src) ai' trace) :
        NeverBefore (·.LeavesLast src) ai' trace := by
      intro before item' after rest split
      exact stays _ (.cons step run) ((item, ai') :: before) item' after rest
        (congrArg ((item, ai') :: ·) split)
    have before := step.before_iff.mpr inside
    have less : 4294967295 - ai'.curvol.toNat < 4294967295 - ai.curvol.toNat ∨
        4294967295 - ai'.curvol.toNat = 4294967295 - ai.curvol.toNat ∧
          ai'.file.length - ai'.pos < ai.file.length - ai.pos := by
      obtain ⟨unread, ⟨-, -, curvol⟩ | ⟨-, size, far, rfl⟩⟩ := step.cases
      · left
        rcases before with increases | ⟨same, -⟩
        · rw [UInt32.lt_iff_toNat_lt] at increases
          have bound := ai'.curvol.toNat_lt
          omega
        · rw [same] at curvol
          simp at curvol
      · right
        rw [ArchReader.skip_file, ArchReader.skip_pos, ArchReader.skip_curvol]
        omega
    obtain ⟨found, reads⟩ := Reads.finishes ai' stays'
    exact ⟨_, .next next reads⟩
termination_by (4294967295 - ai.curvol.toNat, ai.file.length - ai.pos)
decreasing_by
  rcases less with fewer | ⟨same, fewer⟩
  · exact Prod.Lex.left _ _ fewer
  · rw [same]
    exact Prod.Lex.right _ fewer

/-- In every run of the loop each iteration moves the reader on exactly if none of them leaves the
last volume through its footer, and if no run does, the reader comes to its end. -/
theorem reader_finishes_iff (src : Source) :
    (∀ first ai trace, readStart src = some (first, ai) → Trace (ReaderStep src) ai trace →
      ((∀ before item after rest, trace = before ++ (item, after) :: rest →
          (Trace.last ai before).Before after) ↔
        NeverBefore (·.LeavesLast src) ai trace)) ∧
    ((∀ first ai trace, readStart src = some (first, ai) → Trace (ReaderStep src) ai trace →
        NeverBefore (·.LeavesLast src) ai trace) →
      ∃ enough, ∀ fuel, enough ≤ fuel → ∃ found, threadReaderFct src fuel = some found) := by
  constructor
  · intro first ai trace _ run
    constructor
    · intro increases before item after rest split
      have step : ReaderStep src (Trace.last ai before) item after :=
        Trace.step_of_split (split ▸ run)
      exact step.before_iff.mp (increases before item after rest split)
    · intro stays before item after rest split
      have step : ReaderStep src (Trace.last ai before) item after :=
        Trace.step_of_split (split ▸ run)
      exact step.before_iff.mpr (stays before item after rest split)
  · intro stays
    cases started : readStart src with
    | none => exact ⟨0, fun fuel _ => ⟨[], by rw [threadReaderFct, started]⟩⟩
    | some start =>
      obtain ⟨first, ai⟩ := start
      obtain ⟨found, reads⟩ := Reads.finishes ai fun trace run => stays first ai trace started run
      obtain ⟨enough, looped⟩ := Source.reads_of_start started reads
      exact ⟨enough, fun fuel more => ⟨_, looped fuel more⟩⟩

/-! ## Volumes that are there -/

/-- The loop starts in the first volume. -/
theorem readStart_served {first : Enqueued} (started : readStart src = some (first, ai)) :
    src.volume 0 = some ai.file ∧ ai.curvol = 0 := by
  unfold readStart at started
  obtain ⟨file, served, started⟩ := Option.bind_eq_some_iff.mp started
  obtain ⟨unread, opened, started⟩ := Option.bind_eq_some_iff.mp started
  obtain ⟨known, headed, started⟩ := Option.bind_eq_some_iff.mp started
  obtain ⟨fileOpen, volOpen⟩ := archreaderOpen_keeps opened
  obtain ⟨fileHead, volHead⟩ := archreaderReadVolheader_keeps headed
  split at started
  · cases started
  · cases started
  next head after read =>
    obtain ⟨-, size, -, rfl⟩ := archreaderReadHeader_after (congrArg Read.after read)
    obtain ⟨archid, -, started⟩ := Option.bind_eq_some_iff.mp started
    cases started
    constructor
    · rw [served, ← fileOpen, ← fileHead]
      rfl
    · rw [ArchReader.skip_curvol, volHead, volOpen]
      rfl

/-- The volumes up to the one the reader stands in are there. -/
def Source.ServesUpTo (src : Source) (ai : ArchReader) : Prop :=
  ∀ vol : UInt32, vol.toNat ≤ ai.curvol.toNat → (src.volume vol).isSome

/-- A reader that misses a volume does not come to the last one. -/
theorem neverBefore_of_missing {first : Enqueued} {trace : List (Option Enqueued × ArchReader)}
    {vol : UInt32} (missing : src.volume vol = none) (started : readStart src = some (first, ai))
    (run : Trace (ReaderStep src) ai trace) : NeverBefore (·.LeavesLast src) ai trace := by
  have notAll (ai : ArchReader) (there : src.ServesUpTo ai) : ai.curvol.toNat < 4294967295 := by
    apply Nat.lt_of_not_le
    intro last
    have found := there vol (Nat.le_trans (Nat.le_of_lt_succ vol.toNat_lt) last)
    rw [missing] at found
    cases found
  have start : src.ServesUpTo ai := by
    obtain ⟨found, curvol⟩ := readStart_served started
    intro vol inside
    rw [curvol] at inside
    have zero : vol = 0 := UInt32.toNat_inj.mp (Nat.le_zero.mp inside)
    rw [zero, found]
    rfl
  have keeps (before : ArchReader) (item : Option Enqueued) (after : ArchReader)
      (there : src.ServesUpTo before) (step : ReaderStep src before item after) :
      src.ServesUpTo after := by
    obtain ⟨-, ⟨-, served, curvol⟩ | ⟨-, size, -, rfl⟩⟩ := step.cases
    · intro vol inside
      have bound := notAll before there
      have next : (before.curvol + 1).toNat = before.curvol.toNat + 1 := by
        rw [UInt32.toNat_add]
        exact Nat.mod_eq_of_lt (Nat.succ_lt_succ bound)
      rw [curvol, next] at inside
      rcases Nat.lt_or_eq_of_le inside with earlier | this
      · exact there vol (Nat.le_of_lt_succ earlier)
      · rw [← next, UInt32.toNat_inj] at this
        rw [this, served]
        rfl
    · exact there
  intro before item after rest split leaves
  have reached := Trace.invariant_of_step keeps run start (Trace.last ai before)
    (by
      rw [split]
      exact (Trace.mem_states_of_split ai after item before rest).1)
  have bound := notAll _ reached
  rw [leaves.1] at bound
  exact absurd bound (by decide)

/-- An archive with one volume. -/
theorem reader_finishes_one_volume :
    let src : Source := ⟨fun vol => if vol = 0 then some (volumeBytes 1 0 [.header smallMain] true)
      else none, fun _ => 1, ⟨fun _ => 0, fun _ => 0⟩⟩
    ∃ enough, ∀ fuel, enough ≤ fuel → ∃ found, threadReaderFct src fuel = some found := by
  intro src
  apply (reader_finishes_iff src).2
  intro first ai trace started run
  exact neverBefore_of_missing (show src.volume 1 = none from rfl) started run

/-! ## All volumes -/

/-- The main header and the footer of a volume that is not the last one. -/
def onwardBytes (vol : UInt32) : List UInt8 :=
  itemBytes 1 (.header smallMain) ++ volfootBytes 1 vol false

/-- An archive in which every volume number has a file, and none is marked as the last. -/
def endlessSource : Source where
  volume vol := some (volheadBytes 1 vol ++ onwardBytes vol)
  fsbitmap _ := 1
  mem := ⟨fun _ => 0, fun _ => 0⟩

/-- A reader in one of these volumes, in front of the main header or of the footer. -/
structure ArchReader.InEndless (ai : ArchReader) : Prop where
  /-- It knows the archive. -/
  knows : ai.Knows endlessSource.mem 1
  /-- The version of the format. -/
  version : ai.filefmtver = 2
  /-- What is ahead. -/
  ahead : ai.ahead = onwardBytes ai.curvol ∨ ai.ahead = volfootBytes 1 ai.curvol false

/-- An iteration in these volumes ends in these volumes. -/
theorem ArchReader.InEndless.step (inside : ai.InEndless) :
    ∃ item ai', readNext endlessSource ai = .next item ai' ∧ ai'.InEndless := by
  obtain ⟨knows, version, front | foot⟩ := inside
  · have read : archreaderReadHeader endlessSource.mem ai true =
        .ok ⟨ai.pos, .main, filesysidNull, smallMain.dico⟩ _ :=
      archreaderReadHeader_of_ahead endlessSource.mem true version (.inr knows.id)
        isMain_smallMain.fits front
    refine ⟨some ⟨ai.curvol, ai.pos, .header smallMain⟩,
      ai.skip (itemBytes 1 (.header smallMain)).length, ?_, ⟨knows.id, knows.format⟩, version,
      .inr (ArchReader.ahead_skip front)⟩
    rw [readNext, read]
    simp only [readOther, true_or, if_true]
    rfl
  · have here : ai.ahead = volfootBytes 1 ai.curvol false ++ [] := by
      rw [foot, List.append_nil]
    have read : archreaderReadHeader endlessSource.mem ai true =
        .ok ⟨ai.pos, .volf, filesysidNull, _⟩ _ :=
      archreaderReadHeader_of_ahead endlessSource.mem true version (.inr knows.id)
        (fits_volfooter ai.curvol 1 false) here
    have lastvol : dicoGetU32 endlessSource.mem
        (dicoAddAll Dico.alloc (volfooterCalls ai.curvol 1 false)) 0 VolumeKey.footLastvol =
          some 0 :=
      dicoGetU32_of_call (items_volfooter ai.curvol 1 false) (by simp [volfooterCalls])
    have onward : ArchReader.Knows endlessSource.mem 1 { ai.skip
        (volfootBytes 1 ai.curvol false).length with curvol := ai.curvol + 1 } :=
      ⟨knows.id, knows.format⟩
    obtain ⟨ai', opened, knows', version', curvol, -, ahead⟩ := open_volume endlessSource.mem 1
      (ai.curvol + 1) (onwardBytes (ai.curvol + 1)) (.inr onward) rfl
    refine ⟨none, ai', ?_, knows', version', .inl (by rw [ahead, curvol])⟩
    rw [volfootBytes] at opened
    rw [readNext, read]
    simp only [readVolfooter, lastvol]
    simp only [endlessSource] at opened
    simp only [endlessSource, ArchReader.skip_curvol, Option.bind_some, opened]
    rfl

/-- The reader of these volumes goes on behind the last one with the first one again. -/
theorem reader_endless : ¬∃ fuel found, threadReaderFct endlessSource fuel = some found := by
  rintro ⟨fuel, found, ends⟩
  have served : endlessSource.volume 0 = some (volheadBytes 1 0 ++
      (itemBytes 1 (.header smallMain) ++ volfootBytes 1 0 false)) := rfl
  obtain ⟨ai, started, knows, version, vol, -, here⟩ := readStart_volume isMain_smallMain served
  have inside : ai.InEndless := ⟨knows, version, .inr (by rw [here, vol])⟩
  have loops : ∀ fuel (ai : ArchReader), ai.InEndless → readLoop endlessSource fuel ai = none := by
    intro fuel
    induction fuel with
    | zero => exact fun _ _ => rfl
    | succ fuel ih =>
      intro ai inside
      obtain ⟨item, ai', taken, inside'⟩ := inside.step
      rw [readLoop, taken]
      simp only [ih ai' inside', Option.map_none]
  rw [threadReaderFct, started] at ends
  simp only [loops fuel ai inside, Option.map_none] at ends
  cases ends

end FsArchiver
