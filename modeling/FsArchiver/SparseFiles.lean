import FsArchiver.RestoreFiles

/-!
# Sparse files

A file that is opened, written chunk by chunk and closed, on any system. The calls may fail; what
is said of the file is said of the runs in which none does. Zeros that a seek leaves out are
missing from the file until it is cut to the position at the end.
-/
namespace FsArchiver

open Lib

/-! ## Runs without a failing call -/

/-- The call did what it was asked to. -/
def succeeded : SysCall × Int → Bool
  | (.write _ data, res) => res = data.length
  | (_, res) => 0 ≤ res

/-- The log goes on from this one, with something that holds unless a call failed since. -/
def UnlessFailed (start log : Log) (holds : Prop) : Prop :=
  ∃ made, log = start ++ made ∧ ((∀ entry ∈ made, succeeded entry) → holds)

theorem UnlessFailed.refl (start : Log) {holds : Prop} (known : holds) :
    UnlessFailed start start holds :=
  ⟨[], (List.append_nil start).symm, fun _ => known⟩

theorem UnlessFailed.mono {start log : Log} {holds weaker : Prop}
    (known : UnlessFailed start log holds) (weakens : holds → weaker) :
    UnlessFailed start log weaker := by
  obtain ⟨made, added, fine⟩ := known
  exact ⟨made, added, fun all => weakens (fine all)⟩

/-- One more call. -/
theorem UnlessFailed.call {start log : Log} {holds after : Prop}
    (known : UnlessFailed start log holds) (entry : SysCall × Int)
    (step : holds → succeeded entry → after) : UnlessFailed start (log ++ [entry]) after := by
  obtain ⟨made, rfl, fine⟩ := known
  refine ⟨made ++ [entry], List.append_assoc .., fun all => ?_⟩
  apply step
  · apply fine
    intro other member
    exact all other (List.mem_append_left _ member)
  · exact all entry (List.mem_append_right _ List.mem_cons_self)

/-- What holds at the end of a run without failures. -/
theorem UnlessFailed.elim {start log : Log} {holds : Prop} (known : UnlessFailed start log holds)
    (fine : ∀ entry ∈ log.drop start.length, succeeded entry) : holds := by
  obtain ⟨made, rfl, conclude⟩ := known
  rw [List.drop_left] at fine
  exact conclude fine

/-! ## A file written as a whole -/

/-- Calls of `datafile_write`, up to the first that fails. -/
def datafileWriteAll (os : Os) (f : Datafile) : List (List UInt8) → Sys (Bool × Datafile)
  | [] => return (true, f)
  | data :: chunks => do
    let res ← datafileWrite os f data
    if !res.1 then return res else datafileWriteAll os res.2 chunks

/-- What the calls on a file return. -/
structure Session where
  /-- None of them fails. -/
  ok : Bool
  /-- The digest, if none fails before the file is closed. -/
  md5 : Option (List UInt8)
  deriving DecidableEq

/-- `datafile_open_write` on a new file, `datafile_write` for each chunk and `datafile_close`. The
first failure ends it. -/
def datafileSession (os : Os) (md5 : Md5) (path : Path) (simul sparse : Bool)
    (chunks : List (List UInt8)) : Sys Session := do
  let opened ← datafileOpenWrite os datafileAlloc path simul sparse
  if !opened.1 then return ⟨false, none⟩
  else
    let written ← datafileWriteAll os opened.2 chunks
    if !written.1 then return ⟨false, none⟩
    else
      let closed ← datafileClose os md5 written.2
      return ⟨closed.ok, closed.md5⟩

/-- The file is open, and these bytes were written to it. -/
structure BeingWritten (sparse : Bool) (path : Path) (log : Log) (f : Datafile) (bytes : List UInt8) :
    Prop where
  /-- The file as it was opened. -/
  opened : f = { simul := false, isOpen := true, sparse, path, hashed := bytes }
  /-- The position is behind the bytes, of which only zeros may be missing. -/
  holds : ∃ file, fileAt log path = some file ∧ file.Holds bytes ∧
    (sparse = false → file.content = bytes)

variable {os : Os} {start log : Log} {path : Path} {sparse : Bool} {f : Datafile}
  {bytes : List UInt8}

theorem fileAt_append (log made : Log) (path : Path) :
    fileAt (log ++ made) path = made.foldl (replay path) (fileAt log path) :=
  List.foldl_append

/-- A chunk of zeros. -/
theorem eq_zeros_of_isBlockZero {data : List UInt8} (zero : datafileIsBlockZero data = true) :
    data = List.replicate data.length 0 := by
  refine List.eq_replicate_iff.mpr ⟨rfl, fun byte member => ?_⟩
  have all := List.all_eq_true.mp zero byte member
  exact of_decide_eq_true all

/-- A chunk that is written, or sought over. -/
theorem BeingWritten.write (writing : BeingWritten sparse path log f bytes) (data : List UInt8) {res : Int}
    (fine : succeeded (blockCall sparse path data, res)) :
    BeingWritten sparse path (log ++ [(blockCall sparse path data, res)])
      { f with hashed := f.hashed ++ data } (bytes ++ data) := by
  obtain ⟨file, found, holds, dense⟩ := writing.holds
  refine ⟨by rw [writing.opened], ?_⟩
  rw [fileAt_append, found]
  unfold blockCall at fine ⊢
  by_cases seek : (sparse && datafileIsBlockZero data) = true
  · rw [if_pos seek] at fine ⊢
    rw [Bool.and_eq_true] at seek
    have forward : 0 ≤ res := of_decide_eq_true fine
    refine ⟨{ file with offset := file.offset + data.length }, ?_, ?_, ?_⟩
    · simp [replay, forward]
    · have sought := holds.seek data.length
      rw [← eq_zeros_of_isBlockZero seek.2] at sought
      exact sought
    · intro plain
      rw [plain] at seek
      exact absurd seek.1 Bool.false_ne_true
  · rw [if_neg seek] at fine ⊢
    have whole : res = data.length := of_decide_eq_true fine
    obtain ⟨written, content⟩ := holds.write data
    refine ⟨file.write data, ?_, written, fun _ => content⟩
    simp [replay, whole]

/-- Nothing more is done. -/
theorem ensures_return {α : Type} {before : Log → Prop} {after : α → Log → Prop} {value : α}
    (step : ∀ log, before log → after value log) :
    Traced.Ensures (fun log => UnlessFailed start log (before log)) (pure value : Sys α)
      (fun value log => UnlessFailed start log (after value log)) := by
  apply Traced.Ensures.pure
  intro log known
  exact known.mono (step log)

/-- More is known before. -/
theorem ensures_weaken {α : Type} {before stronger : Log → Prop} {after : α → Log → Prop}
    {prog : Sys α}
    (ensures : Traced.Ensures (fun log => UnlessFailed start log (before log)) prog after)
    (weakens : ∀ log, stronger log → before log) :
    Traced.Ensures (fun log => UnlessFailed start log (stronger log)) prog after := by
  intro log known
  exact ensures log (known.mono (weakens log))

/-- What went well goes on. -/
theorem ensures_goes_on {α : Type} {ok : Bool} {holds : Log → Prop} {after : α → Log → Prop}
    {stop : α} {prog : Sys α}
    (ensures : Traced.Ensures (fun log => UnlessFailed start log (holds log)) prog
      (fun value log => UnlessFailed start log (after value log))) :
    Traced.Ensures (fun log => UnlessFailed start log (ok = true ∧ holds log))
      (if !ok then pure stop else prog)
      (fun value log => UnlessFailed start log (after value log)) := by
  apply Traced.Ensures.ite
  · intro failed
    apply ensures_return
    intro log known
    rw [known.1] at failed
    exact absurd failed Bool.false_ne_true
  · intro _
    exact ensures_weaken ensures fun _ => And.right

/-- A call whose result is checked. -/
theorem ensures_checked {before : Log → Prop} (after : Datafile → Log → Prop) {call : SysCall}
    {failed : Int → Prop} [DecidablePred failed] {f g : Datafile}
    (checked : ∀ res, succeeded (call, res) → ¬failed res)
    (step : ∀ log res, before log → succeeded (call, res) → after g (log ++ [(call, res)])) :
    Traced.Ensures (fun log => UnlessFailed start log (before log))
      (do let res ← os.call call
          if failed res then return (false, f) else return (true, g))
      (fun res log => UnlessFailed start log (res.1 = true ∧ after res.2 log)) := by
  have called : Traced.Ensures (fun log => UnlessFailed start log (before log)) (os.call call)
      (fun res log => UnlessFailed start log (¬failed res ∧ after g log)) := by
    intro log known
    apply known.call
    intro holds fine
    exact ⟨checked _ fine, step log _ holds fine⟩
  refine Traced.Ensures.bind called fun res => ?_
  apply Traced.Ensures.ite
  · intro bad
    apply ensures_return
    intro log holds
    exact absurd bad holds.1
  · intro _
    apply ensures_return
    intro log holds
    exact ⟨rfl, holds.2⟩

/-- `datafile_open_write` on a new file. -/
theorem datafileOpenWrite_writing :
    Traced.Ensures (fun log => UnlessFailed start log True)
      (datafileOpenWrite os datafileAlloc path false sparse)
      (fun res log => UnlessFailed start log (res.1 = true ∧
        BeingWritten sparse path log res.2 [])) := by
  unfold datafileOpenWrite
  apply Traced.Ensures.ite
  · intro isOpen
    exact absurd isOpen Bool.false_ne_true
  · intro _
    apply Traced.Ensures.ite
    · intro simul
      exact absurd simul Bool.false_ne_true
    · intro _
      apply ensures_checked fun f log => BeingWritten sparse path log f []
      · intro fd fine
        have opened : 0 ≤ fd := of_decide_eq_true fine
        omega
      · intro log fd _ fine
        have opened : 0 ≤ fd := of_decide_eq_true fine
        refine ⟨rfl, ⟨[], 0⟩, ?_, ⟨rfl, rfl⟩, fun _ => rfl⟩
        simp [fileAt_append, replay, opened]

/-- `datafile_write` on an open file. -/
theorem datafileWrite_writing (f : Datafile) (data : List UInt8) :
    Traced.Ensures (fun log => UnlessFailed start log (BeingWritten sparse path log f bytes))
      (datafileWrite os f data)
      (fun res log => UnlessFailed start log (res.1 = true ∧
        BeingWritten sparse path log res.2 (bytes ++ data))) := by
  unfold datafileWrite
  apply Traced.Ensures.ite
  · intro closed
    apply ensures_return
    intro log writing
    rw [writing.opened] at closed
    exact absurd closed Bool.false_ne_true
  · intro _
    apply Traced.Ensures.ite
    · intro simul
      apply ensures_return
      intro log writing
      rw [writing.opened] at simul
      exact absurd simul Bool.false_ne_true
    · intro _
      apply Traced.Ensures.ite
      · intro seek
        apply ensures_checked fun f log => BeingWritten sparse path log f (bytes ++ data)
        · intro lres fine
          have moved : 0 ≤ lres := of_decide_eq_true fine
          omega
        · intro log lres writing fine
          have call : blockCall sparse path data = .lseek f.path data.length := by
            rw [writing.opened] at seek ⊢
            exact if_pos seek
          rw [← call] at fine ⊢
          exact writing.write data fine
      · intro whole
        apply ensures_checked fun f log => BeingWritten sparse path log f (bytes ++ data)
        · intro lres fine
          have all : lres = data.length := of_decide_eq_true fine
          exact not_not.mpr all
        · intro log lres writing fine
          have call : blockCall sparse path data = .write f.path data := by
            rw [writing.opened] at whole ⊢
            exact if_neg whole
          rw [← call] at fine ⊢
          exact writing.write data fine

/-- Chunk after chunk. -/
theorem datafileWriteAll_writing (chunks : List (List UInt8)) (f : Datafile) (bytes : List UInt8) :
    Traced.Ensures (fun log => UnlessFailed start log (BeingWritten sparse path log f bytes))
      (datafileWriteAll os f chunks)
      (fun res log => UnlessFailed start log (res.1 = true ∧
        BeingWritten sparse path log res.2 (bytes ++ chunks.flatten))) := by
  induction chunks generalizing f bytes with
  | nil =>
    apply ensures_return
    intro log writing
    rw [List.flatten_nil, List.append_nil]
    exact ⟨rfl, writing⟩
  | cons data chunks ih =>
    unfold datafileWriteAll
    refine Traced.Ensures.bind (datafileWrite_writing f data) fun res => ?_
    rw [List.flatten_cons, ← List.append_assoc]
    exact ensures_goes_on (ih res.2 (bytes ++ data))

/-- The file is cut to the position if it is sparse; then it has all bytes. -/
theorem cut_writing (f : Datafile) :
    Traced.Ensures (fun log => UnlessFailed start log (BeingWritten sparse path log f bytes))
      (if f.sparse then os.call (.ftruncate f.path) else pure 0)
      (fun cut log => UnlessFailed start log (0 ≤ cut ∧ f.hashed = bytes ∧
        contentAt log path = some bytes)) := by
  apply Traced.Ensures.ite
  · intro holes log known
    apply known.call
    intro writing fine
    have cut : 0 ≤ os.answer log (.ftruncate f.path) := of_decide_eq_true fine
    have same : f.path = path := congrArg Datafile.path writing.opened
    have hashed : f.hashed = bytes := congrArg Datafile.hashed writing.opened
    obtain ⟨file, found, holds, dense⟩ := writing.holds
    refine ⟨cut, hashed, ?_⟩
    show contentAt (log ++ [(.ftruncate f.path, os.answer log (.ftruncate f.path))]) path = _
    rw [contentAt, fileAt_append, found, same]
    rw [same] at cut
    simp [replay, cut, holds.resize]
  · intro plain
    apply ensures_return
    intro log writing
    have hashed : f.hashed = bytes := congrArg Datafile.hashed writing.opened
    have whole : sparse = false := by
      rw [writing.opened] at plain
      exact Bool.eq_false_iff.mpr plain
    obtain ⟨file, found, holds, dense⟩ := writing.holds
    refine ⟨Int.le_refl 0, hashed, ?_⟩
    rw [contentAt, found, Option.map_some, dense whole]

/-- `datafile_close` on an open file. -/
theorem datafileClose_writing (md5 : Md5) (f : Datafile) :
    Traced.Ensures (fun log => UnlessFailed start log (BeingWritten sparse path log f bytes))
      (datafileClose os md5 f)
      (fun closed log => UnlessFailed start log (closed.ok = true ∧
        closed.md5 = some (md5.digest bytes) ∧ contentAt log path = some bytes)) := by
  unfold datafileClose
  apply Traced.Ensures.ite
  · intro closed
    apply ensures_return
    intro log writing
    rw [writing.opened] at closed
    exact absurd closed Bool.false_ne_true
  · intro _
    apply Traced.Ensures.ite
    · intro simul
      apply ensures_return
      intro log writing
      rw [writing.opened] at simul
      exact absurd simul Bool.false_ne_true
    · intro _
      refine Traced.Ensures.bind (cut_writing f) fun cut log known => ?_
      apply known.call (.close f.path, os.answer log (.close f.path))
      intro holds fine
      obtain ⟨cut, hashed, content⟩ := holds
      have closed : 0 ≤ os.answer log (.close f.path) := of_decide_eq_true fine
      refine ⟨decide_eq_true ⟨cut, closed⟩, ?_, ?_⟩
      · exact congrArg (fun data => some (md5.digest data)) hashed
      · show contentAt (log ++ [(.close f.path, os.answer log (.close f.path))]) path = _
        rw [contentAt, fileAt_append]
        exact content

/-- A whole run. -/
theorem datafileSession_writes (md5 : Md5) (chunks : List (List UInt8)) :
    Traced.Ensures (fun log => UnlessFailed start log True)
      (datafileSession os md5 path false sparse chunks)
      (fun res log => UnlessFailed start log (res = ⟨true, some (md5.digest chunks.flatten)⟩ ∧
        contentAt log path = some chunks.flatten)) := by
  unfold datafileSession
  refine Traced.Ensures.bind datafileOpenWrite_writing fun opened => ?_
  apply ensures_goes_on
  refine Traced.Ensures.bind (datafileWriteAll_writing chunks opened.2 []) fun written => ?_
  apply ensures_goes_on
  refine Traced.Ensures.bind (datafileClose_writing md5 written.2) fun closed => ?_
  apply ensures_return
  intro log holds
  obtain ⟨ok, digest, content⟩ := holds
  rw [ok, digest]
  exact ⟨rfl, content⟩

/-! ## Simulation -/

/-- With `simul` the data only goes into the digest. -/
theorem datafileWriteAll_simul (chunks : List (List UInt8)) {f : Datafile}
    (isOpen : f.isOpen = true) (simul : f.simul = true) (log : Log) :
    Traced.Gives (datafileWriteAll os f chunks) log
      (true, { f with hashed := f.hashed ++ chunks.flatten }) [] := by
  induction chunks generalizing f with
  | nil =>
    rw [List.flatten_nil, List.append_nil]
    exact Traced.Gives.pure _ log
  | cons data chunks ih =>
    have written : Traced.Gives (datafileWrite os f data) log
        (true, { f with hashed := f.hashed ++ data }) [] := by
      unfold datafileWrite
      rw [isOpen, simul]
      exact Traced.Gives.pure _ log
    rw [List.flatten_cons, ← List.append_assoc]
    unfold datafileWriteAll
    apply written.bind
    rw [List.append_nil]
    exact ih (f := { f with hashed := f.hashed ++ data }) isOpen simul

/-- A whole run. -/
theorem datafileSession_simul (md5 : Md5) (chunks : List (List UInt8)) (log : Log) :
    Traced.Gives (datafileSession os md5 path true sparse chunks) log
      ⟨true, some (md5.digest chunks.flatten)⟩ [] := by
  let f : Datafile := { simul := true, isOpen := true, sparse, path, hashed := [] }
  have opened : Traced.Gives (datafileOpenWrite os datafileAlloc path true sparse) log
      (true, f) [] := Traced.Gives.pure _ log
  have written : Traced.Gives (datafileWriteAll os f chunks) log
      (true, { f with hashed := f.hashed ++ chunks.flatten }) [] :=
    datafileWriteAll_simul chunks rfl rfl log
  unfold datafileSession
  apply opened.bind
  rw [List.append_nil]
  apply written.bind
  exact Traced.Gives.pure _ _

/-! ## The same file -/

/-- Sparse or not, a run in which no call fails leaves the concatenation of the chunks behind and
gives its digest; a simulation makes no call and gives the same digest. -/
theorem sparse_writing_same (os : Os) (md5 : Md5) (path : Path) (chunks : List (List UInt8))
    (sparse : Bool) (log : Log) :
    let (res, after) := (datafileSession os md5 path false sparse chunks).run log
    ((∀ entry ∈ after.drop log.length, succeeded entry) →
      res = ⟨true, some (md5.digest chunks.flatten)⟩ ∧ contentAt after path = some chunks.flatten) ∧
    (datafileSession os md5 path true sparse chunks).run log =
      (⟨true, some (md5.digest chunks.flatten)⟩, log) := by
  have simulated : Traced.Gives (datafileSession os md5 path true sparse chunks) log
      ⟨true, some (md5.digest chunks.flatten)⟩ [] := datafileSession_simul md5 chunks log
  unfold Traced.Gives at simulated
  rw [List.append_nil] at simulated
  apply And.intro _ simulated
  intro fine
  have written : Traced.Ensures (fun after => UnlessFailed log after True)
      (datafileSession os md5 path false sparse chunks) _ := datafileSession_writes md5 chunks
  exact (written log (UnlessFailed.refl log trivial)).elim fine

/-- A system on which no call fails, with the digest of four bytes. -/
def seekingOs : Os where
  answer log
    | .write _ data => data.length
    | .lseek path len => ((fileAt log path).elim 0 FileState.offset + len : Nat)
    | _ => 0
  missing _ _ := false
  dirTimes _ _ := (0, 0)

def fourMd5 : Md5 where
  digest data :=
    if data = [0, 0, 1, 0] then
      [0x2a, 0xb4, 0xb9, 0x06, 0xfa, 0xbd, 0x1c, 0x15, 0x4d, 0x3d, 0x8f, 0xd7, 0x79, 0x42, 0x02, 0x8e]
    else List.replicate 16 0
  length_digest data := by split <;> rfl

theorem sparse_writing_same_hole :
    ((datafileSession seekingOs fourMd5 [0x66] false true [[0, 0], [1], [0]]).run []).2 =
        [(.create [0x66], 0), (.lseek [0x66] 2, 2), (.write [0x66] [1], 1), (.lseek [0x66] 1, 4),
          (.ftruncate [0x66], 0), (.close [0x66], 0)] ∧
      contentAt ((datafileSession seekingOs fourMd5 [0x66] false true [[0, 0], [1], [0]]).run []).2
        [0x66] = some [0, 0, 1, 0] :=
  ⟨by decide, ((sparse_writing_same seekingOs fourMd5 [0x66] [[0, 0], [1], [0]] true []).1
    (by decide)).2⟩

end FsArchiver
