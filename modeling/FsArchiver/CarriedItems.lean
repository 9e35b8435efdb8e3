import FsArchiver.SaveThreads
import FsArchiver.ThreadComp

/-!
# What the threads make of the items

Between the main thread and the thread of the archive stand the threads of `compression_function`.
In whatever order they take their steps, what comes out is what went in, item by item, each block as
`compress_block_generic` or `decompress_block_generic` leaves it; and every such sequence can come
out. Then nothing is said of queues and threads any more.
-/
namespace FsArchiver

open Lib

/-- These items come out for these inputs when so many threads have worked on them. -/
def Carries (outcome : Outcome) (n : Nat) (inputs : List Input) (items : List QueueData) : Prop :=
  ∃ (blkmax : Nat) (labels : List (Act (Fin n))) (s : Pipe (Fin n)),
    Steps (Pipe.Step outcome) (Pipe.init (Fin n) blkmax) labels s ∧
      s.pushed = inputs ∧ s.taken = items.map some ∧ queueGetEndOfQueue s.queue = true

/-! ## All that comes out -/

section Runs

variable {outcome : Outcome} {n : Nat} {inputs : List Input} {items : List QueueData}

/-- In every run the items keep their order. -/
theorem order_of_steps {s t : Pipe (Fin n)} {labels : List (Act (Fin n))}
    (run : Steps (Pipe.Step outcome) s labels t) (inv : s.Inv outcome)
    (order : s.relay.InOrder (SaveThreads.Delivers outcome)) :
    t.Inv outcome ∧ t.relay.InOrder (SaveThreads.Delivers outcome) := by
  induction run with
  | nil s => exact ⟨inv, order⟩
  | cons first tail ih => exact ih (inv.step first) (SaveThreads.order_step inv order first)

/-- What comes out is what went in, item by item. -/
theorem Carries.yields (carries : Carries outcome n inputs items) :
    List.Forall₂ (Yields outcome) inputs items := by
  obtain ⟨blkmax, labels, s, run, pushed, taken, ended⟩ := carries
  obtain ⟨inv, order⟩ := order_of_steps run (.init blkmax) Relay.InOrder.init
  rw [← pushed]
  exact SaveThreads.items_of_ended inv order ended taken

/-! ## All that can come out -/

/-- Everything added so far has been received, and all threads are at the start of their loop. -/
def restingPipe (n blkmax : Nat) (inputs : List Input) (items : List QueueData) : Pipe (Fin n) where
  queue := { queueInit blkmax with curitemnum := inputs.length + 1 }
  adding := none
  workers := fun _ => .top
  pushed := inputs
  taken := items.map some
  sawEnd := false

variable {blkmax : Nat}

/-- A step in which no block is processed. -/
theorem step_of_next {s t : Pipe (Fin n)} {act : Act (Fin n)} (taken : s.next act = some t)
    (other : ∀ w result, act ≠ .worker w (.process result)) : Pipe.Step outcome s act t :=
  ⟨taken, fun w result _ _ same => absurd same (other w result)⟩

/-- One more item has been added, which stands like this on the queue. -/
def holdingPipe (n blkmax : Nat) (inputs : List Input) (items : List QueueData) (input : Input)
    (status : ItemStatus) (data : QueueData) : Pipe (Fin n) :=
  { restingPipe n blkmax (inputs ++ [input]) items with
    queue :=
      { items := [⟨inputs.length + 1, status, data⟩]
        curitemnum := inputs.length + 1 + 1, itemcount := 1
        blkcount := if data.isBlock then 1 else 0, blkmax, endofqueue := false } }

theorem next_add (input : Input) :
    (restingPipe n blkmax inputs items).next (.add input) =
      some (holdingPipe n blkmax inputs items input input.status input.data) := by
  cases input <;> rfl

theorem next_dequeue (input : Input) (data : QueueData) :
    (holdingPipe n blkmax inputs items input .done data).next (.consume .dequeueFirst) =
      some (restingPipe n blkmax (inputs ++ [input]) (items ++ [data])) := by
  cases data <;> simp [holdingPipe, restingPipe, Pipe.next, ConsumerCall.run, Locked.map,
    queueDequeueFirst, waitFirst, queueGetEndOfQueue, Queue.unlinkHead, Except.map, Pipe.consumed,
    queueInit, QueueData.isBlock]

/-- A thread goes once round its loop. -/
theorem steps_process (w : Fin n) {blkinfo blkinfo' : BlockInfo}
    (success : outcome blkinfo (some blkinfo')) :
    Steps (Pipe.Step outcome)
      (holdingPipe n blkmax inputs items (.todo blkinfo) .todo (.block blkinfo))
      [.worker w .test, .worker w .get, .worker w (.process (some blkinfo')), .worker w .replace]
      (holdingPipe n blkmax inputs items (.todo blkinfo) .done (.block blkinfo')) := by
  let start := holdingPipe n blkmax inputs items (.todo blkinfo) .todo (.block blkinfo)
  let taken := holdingPipe n blkmax inputs items (.todo blkinfo) .progress (.block blkinfo)
  let num := inputs.length + 1
  have test : start.next (.worker w .test) = some (start.move w .getting) := rfl
  have get : (start.move w .getting).next (.worker w .get) =
      some (taken.move w (.processing num blkinfo)) := by
    simp [Pipe.next, Pipe.nextWorker, Pipe.move, start, taken, num, holdingPipe,
      queueGetFirstBlockTodo, queueGetEndOfQueue, takeTodo, QueueData.isBlock]
  have process : (taken.move w (.processing num blkinfo)).next
      (.worker w (.process (some blkinfo'))) = some (taken.move w (.replacing num blkinfo')) := by
    simp [Pipe.next, Pipe.nextWorker, Pipe.move]
  have replace : (taken.move w (.replacing num blkinfo')).next (.worker w .replace) =
      some (holdingPipe n blkmax inputs items (.todo blkinfo) .done (.block blkinfo')) := by
    simp [Pipe.next, Pipe.nextWorker, Pipe.move, taken, num, holdingPipe, restingPipe,
      queueReplaceBlock, replaceItem, QueueData.isBlock]
  refine .cons (step_of_next test (by simp)) (.cons (step_of_next get (by simp)) (.cons ⟨process, ?_⟩
    (.single (step_of_next replace (by simp)))))
  intro w' result num' blk same place
  simp only [Act.worker.injEq, WorkerAct.process.injEq] at same
  obtain ⟨rfl, rfl⟩ := same
  simp only [Pipe.move_same, WorkerPc.processing.injEq] at place
  rw [← place.2]
  exact success

/-- Every item that may come out next can. -/
theorem steps_item (w : Fin n) {input : Input} {item : QueueData} (yields : Yields outcome input item) :
    ∃ labels, Steps (Pipe.Step outcome) (restingPipe n blkmax inputs items) labels
      (restingPipe n blkmax (inputs ++ [input]) (items ++ [item])) := by
  have add := @step_of_next outcome _ _ _ _ (@next_add n inputs items blkmax input) (by simp)
  have receive := @step_of_next outcome _ _ _ _ (@next_dequeue n inputs items blkmax input item)
    (by simp)
  cases yields with
  | header headinfo | ready blkinfo => exact ⟨_, .cons add (.single receive)⟩
  | todo success => exact ⟨_, .cons add ((steps_process w success).append (.single receive))⟩

/-- One thread is enough for all that may come out. -/
theorem carries_of_yields (w : Fin n) (yields : List.Forall₂ (Yields outcome) inputs items) :
    Carries outcome n inputs items := by
  have reached : ∀ (before : List Input) (received : List QueueData), ∃ labels,
      Steps (Pipe.Step outcome) (restingPipe n 0 before received) labels
        (restingPipe n 0 (before ++ inputs) (received ++ items)) := by
    induction yields with
    | nil =>
      intro before received
      rw [List.append_nil, List.append_nil]
      exact ⟨[], .nil _⟩
    | @cons input item inputs items first rest ih =>
      intro before received
      obtain ⟨labels, here⟩ := @steps_item outcome n before received 0 w _ _ first
      obtain ⟨more, onward⟩ := ih (before ++ [input]) (received ++ [item])
      simp only [List.append_assoc, List.singleton_append] at onward
      exact ⟨labels ++ more, here.append onward⟩
  obtain ⟨labels, run⟩ := reached [] []
  let last := restingPipe n 0 inputs items
  have close : last.next .setEnd =
      some { last with queue := queueSetEndOfQueue last.queue true } := rfl
  exact ⟨0, _, _, run.append (.single (step_of_next close (by simp))), rfl, rfl, rfl⟩

end Runs

/-! ## Blocks -/

/-- How `queue_add_block` and `queue_add_header` are called for an item of a save. -/
def QueueData.toDo : QueueData → Input
  | .header headinfo => .header headinfo
  | .block blkinfo => .todo blkinfo

/-- What `compress_block_generic` may do. Memory may run out, and the libraries are in another state
for each block. -/
def Compressing (build : Build) (lib : Decompressors) (gcrypt : Gcrypt) (options : Options) : Outcome
  | _, none => True
  | blkinfo, some blkinfo' => ∃ libs : Nat → Compressors,
      (∀ attempt, (libs attempt).InvertedBy lib) ∧
        compressBlockGeneric build libs gcrypt options blkinfo = some blkinfo'

/-- The bytes of a buffer, those that were not set included. -/
def Buffer.bytes (mem : Mem) (buffer : Buffer) : List UInt8 :=
  buffer.mapIdx fun i byte => byte.getD (mem.heap i)

/-- What `decompress_block_generic` may do. Memory may run out, and past the end of a buffer anything
may happen. -/
def Decompressing (build : Build) (lib : Decompressors) (gcrypt : Gcrypt) (options : Options)
    (mem : Mem) : Outcome
  | _, none => True
  | blkinfo, some blkinfo' =>
    match decompressBlockGeneric build lib gcrypt options mem blkinfo with
    | .overflow => True
    | .error => False
    | .done buffer => blkinfo' = { blkinfo with blkdata := buffer.bytes mem }

/-- A block as the main thread fills it. -/
structure BlockInfo.Fresh (blkinfo : BlockInfo) : Prop where
  nonempty : 0 < blkinfo.blkrealsize.toNat
  filled : blkinfo.blkdata.length = blkinfo.blkrealsize.toNat
  small : blkinfo.blkrealsize.toNat ≤ maxBlkSize

/-- The second block is the first one as it is stored. -/
structure BlockInfo.StoredAs (build : Build) (lib : Decompressors) (restore : Gcrypt)
    (restoring : Options) (mem : Mem) (blkinfo blkinfo' : BlockInfo) : Prop where
  offset : blkinfo'.blkoffset = blkinfo.blkoffset
  real : blkinfo'.blkrealsize = blkinfo.blkrealsize
  fsid : blkinfo'.blkfsid = blkinfo.blkfsid
  size : blkinfo'.blkdata.length = blkinfo'.blkarsize.toNat
  sum : blkinfo'.blkarcsum = fletcher32 blkinfo'.blkdata
  back : decompressBlockGeneric build lib restore restoring mem blkinfo' =
    .done (blkinfo.blkdata.map some)

section Blocks

variable {build : Build} {lib : Decompressors} {save restore : Gcrypt} {saving restoring : Options}
  {mem : Mem} {blkinfo blkinfo' : BlockInfo}

@[simp] theorem bytes_map_some (mem : Mem) (data : List UInt8) :
    Buffer.bytes mem (data.map some) = data := by
  unfold Buffer.bytes
  apply List.ext_getElem
  · simp
  · simp

/-- The attempts to compress a block leave its place alone. -/
theorem compressed_place (blkinfo : BlockInfo) (res : Except FsaErr (List UInt8))
    (compalgo : UInt16) :
    (blkinfo.compressed res compalgo).blkoffset = blkinfo.blkoffset ∧
      (blkinfo.compressed res compalgo).blkrealsize = blkinfo.blkrealsize ∧
      (blkinfo.compressed res compalgo).blkfsid = blkinfo.blkfsid := by
  unfold BlockInfo.compressed
  split
  · exact ⟨rfl, rfl, rfl⟩
  · split
    · exact ⟨rfl, rfl, rfl⟩
    · exact ⟨rfl, rfl, rfl⟩

/-- So does encryption. -/
theorem encrypted_place (succeeds : blkinfo.encrypted save saving = some blkinfo') :
    blkinfo'.blkoffset = blkinfo.blkoffset ∧ blkinfo'.blkfsid = blkinfo.blkfsid := by
  unfold BlockInfo.encrypted at succeeds
  split at succeeds
  · split at succeeds
    · cases succeeds
    · cases succeeds
      exact ⟨rfl, rfl⟩
  · cases succeeds
    exact ⟨rfl, rfl⟩

/-- A block that comes out of a compression thread can be stored. -/
theorem BlockInfo.Fresh.storedAs (fresh : blkinfo.Fresh) (cipher : save.InvertedBy restore)
    (password : saving.encryptalgo = encryptBlowfish →
      restoring.encryptalgo = encryptBlowfish ∧ restoring.encryptpass = saving.encryptpass)
    (mem : Mem) (compressing : Compressing build lib save saving blkinfo (some blkinfo')) :
    blkinfo.StoredAs build lib restore restoring mem blkinfo' := by
  obtain ⟨libs, inverted, succeeds⟩ := compressing
  simp only [compressBlockGeneric, Option.bind_eq_bind, Option.bind_eq_some_iff] at succeeds
  obtain ⟨⟨res, compalgo⟩, loop, encrypted, crypted, ended⟩ := succeeds
  simp only [Option.some.injEq] at ended
  subst ended
  obtain ⟨offset, real, fsid⟩ := compressed_place blkinfo res compalgo
  obtain ⟨offset', fsid'⟩ := encrypted_place crypted
  have packed := BlockInfo.packs_compressed inverted fresh.nonempty fresh.filled loop
  obtain ⟨packs, stored, real', readable, clears⟩ :=
    BlockInfo.decrypted_encrypted cipher password packed crypted mem
  have whole : encrypted.blkdata.take encrypted.blkarsize.toNat = encrypted.blkdata := by
    rw [← stored, List.take_length]
  have sum : fletcher32 (encrypted.stored mem) = fletcher32 encrypted.blkdata := by
    rw [BlockInfo.stored, ← stored, heapBytes_all]
  refine ⟨offset'.trans offset, real'.trans real, fsid'.trans fsid, stored, by rw [whole], ?_⟩
  unfold decompressBlockGeneric
  rw [if_neg (fun corrupt => corrupt (by rw [whole]; exact sum))]
  rw [if_neg (fun locked => locked.2 (readable locked.1))]
  calc (encrypted.decrypted restore restoring mem).andThen (encrypted.uncompressed build lib mem)
      = encrypted.uncompressed build lib mem (blkinfo.compressed res compalgo).blkdata := by
        rw [clears, Filled.done_andThen]
    _ = .done (blkinfo.blkdata.map some) := packs.uncompressed mem

/-- What a decompression thread makes of it has its data, and its size and place. -/
theorem BlockInfo.StoredAs.restored (storedAs : blkinfo.StoredAs build lib restore restoring mem
      blkinfo') {fsid : UInt16} {result : BlockInfo}
    (decompressing : Decompressing build lib restore restoring mem { blkinfo' with blkfsid := fsid }
      (some result)) :
    result.blkdata = blkinfo.blkdata ∧ result.blkrealsize = blkinfo.blkrealsize ∧
      result.blkoffset = blkinfo.blkoffset := by
  have back : decompressBlockGeneric build lib restore restoring mem
      { blkinfo' with blkfsid := fsid } = .done (blkinfo.blkdata.map some) := storedAs.back
  simp only [Decompressing, back, bytes_map_some] at decompressing
  rw [decompressing]
  exact ⟨rfl, storedAs.real, storedAs.offset⟩

end Blocks

end FsArchiver
