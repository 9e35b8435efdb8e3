import Mathlib.Data.List.Range
import FsArchiver.Dico

/-!
# The queue

`queue.c`: the list of headers and blocks between the thread that reads data, the threads that
process blocks and the thread that writes. Every function here is one critical section under
the mutex. A function that calls `pthread_cond_timedwait` gives the mutex back at that point
and tries again later, which is the outcome `wait`: the queue is then unchanged. The counters
are 64 bits wide in the source and are natural numbers here.
-/
namespace FsArchiver

/-- `s_blockinfo`: a data block and what is known about its stored form. -/
structure BlockInfo where
  /-- The block as it is at this time, compressed or not. -/
  blkdata : List UInt8
  /-- Size of the data when neither compressed nor encrypted. -/
  blkrealsize : UInt32
  /-- Offset of the block in the file. -/
  blkoffset : UInt64
  /-- Checksum of the block as it is in the archive. -/
  blkarcsum : UInt32
  /-- Size of the block as it is in the archive. -/
  blkarsize : UInt32
  /-- Compression algorithm. -/
  blkcompalgo : UInt16
  /-- Size after compression and before encryption. -/
  blkcompsize : UInt32
  /-- Encryption algorithm. -/
  blkcryptalgo : UInt16
  /-- Filesystem the block belongs to. -/
  blkfsid : UInt16
  deriving DecidableEq

/-- A block cleared by `memset`. -/
def BlockInfo.zero : BlockInfo :=
  { blkdata := [], blkrealsize := 0, blkoffset := 0, blkarcsum := 0, blkarsize := 0
    blkcompalgo := 0, blkcompsize := 0, blkcryptalgo := 0, blkfsid := 0 }

/-- A block with one byte. -/
def byteBlock (byte : UInt8) : BlockInfo :=
  { BlockInfo.zero with blkdata := [byte], blkrealsize := 1 }

/-- A block with another compression algorithm. -/
def marked (blk : BlockInfo) : BlockInfo := { blk with blkcompalgo := 1 }

/-- `s_headinfo`: a header and its dico. -/
structure HeadInfo where
  /-- Type of header. -/
  magic : Magic
  /-- Filesystem the header belongs to, or `filesysidNull` for a global header. -/
  fsid : UInt16
  /-- Contents. -/
  dico : Dico
  deriving DecidableEq

/-- `QITEM_STATUS_*`; a queue item never has the null status. -/
inductive ItemStatus where
  | todo | progress | done
  deriving DecidableEq, Repr

/-- What an item holds, by `QITEM_TYPE_*`. -/
inductive QueueData where
  /-- `QITEM_TYPE_BLOCK`. -/
  | block (blkinfo : BlockInfo)
  /-- `QITEM_TYPE_HEADER`. -/
  | header (headinfo : HeadInfo)
  deriving DecidableEq

/-- Whether an item counts in `blkcount`. -/
def QueueData.isBlock : QueueData → Bool
  | .block _ => true
  | .header _ => false

/-- `s_queueitem`. -/
structure QueueItem where
  /-- Unique identifier of the item in the queue. -/
  itemnum : Nat
  /-- Not yet processed, being processed, or ready. -/
  status : ItemStatus
  /-- Block or header. -/
  data : QueueData
  deriving DecidableEq

/-- `s_queue`. -/
structure Queue where
  /-- The linked list from `head`. -/
  items : List QueueItem
  /-- Number for the next new item. -/
  curitemnum : Nat
  /-- How many items there are. -/
  itemcount : Nat
  /-- How many of them are blocks. -/
  blkcount : Nat
  /-- A queue with more blocks than this is full. -/
  blkmax : Nat
  /-- No more data will be added. -/
  endofqueue : Bool
  deriving DecidableEq

/-- How a critical section ends: back to its wait, or out of the function with a result. -/
inductive Locked (α : Type) where
  /-- The thread waits on the condition variable and will run the section again. -/
  | wait
  /-- The function returns and leaves this queue behind. -/
  | unlock (queue : Queue) (result : α)

/-- `queue_init`. -/
def queueInit (blkmax : Nat) : Queue :=
  { items := [], curitemnum := 1, itemcount := 0, blkcount := 0, blkmax, endofqueue := false }

/-- `queue_set_end_of_queue`. -/
def queueSetEndOfQueue (q : Queue) (state : Bool) : Queue := { q with endofqueue := state }

/-- `queue_get_end_of_queue` and `queuelocked_get_end_of_queue`. -/
def queueGetEndOfQueue (q : Queue) : Bool := decide (q.itemcount < 1) && q.endofqueue

/-- `queue_count_items_todo`: blocks that are not ready. -/
def queueCountItemsTodo (q : Queue) : Nat :=
  q.items.countP fun item => item.data.isBlock && decide (item.status ≠ .done)

/-! ## Adding items -/

/-- The end of `queue_add_block` and `queue_add_header_internal`: the new item goes last. -/
def Queue.link (q : Queue) (data : QueueData) (status : ItemStatus) : Queue :=
  { q with
    items := q.items ++ [{ itemnum := q.curitemnum, status, data }]
    curitemnum := q.curitemnum + 1
    itemcount := q.itemcount + 1
    blkcount := if data.isBlock then q.blkcount + 1 else q.blkcount }

/-- The wait of the two functions for a queue that is not full, and what follows it. A thread
woken up here does not look at `endofqueue` again. -/
def queueAddResume (q : Queue) (data : QueueData) (status : ItemStatus) :
    Locked (Except FsaErr Unit) :=
  if q.blkcount > q.blkmax then .wait else .unlock (q.link data status) (.ok ())

/-- Both functions from the moment they take the mutex. -/
def queueAddEnter (q : Queue) (data : QueueData) (status : ItemStatus) :
    Locked (Except FsaErr Unit) :=
  if q.endofqueue then .unlock q (.error .endoffile) else queueAddResume q data status

/-- `queue_add_block`. -/
def queueAddBlock (q : Queue) (blkinfo : BlockInfo) (status : ItemStatus) :
    Locked (Except FsaErr Unit) :=
  queueAddEnter q (.block blkinfo) status

/-- `queue_add_header`: a header is ready at once. -/
def queueAddHeader (q : Queue) (headinfo : HeadInfo) : Locked (Except FsaErr Unit) :=
  queueAddEnter q (.header headinfo) .done

/-! ## Processing blocks -/

/-- The search of `queue_get_first_block_todo`: the first block to do, and the list in which it
is in progress. -/
def takeTodo : List QueueItem → Option (Nat × BlockInfo × List QueueItem)
  | [] => none
  | ⟨num, .todo, .block blk⟩ :: rest => some (num, blk, ⟨num, .progress, .block blk⟩ :: rest)
  | item :: rest => (takeTodo rest).map fun found => (found.1, found.2.1, item :: found.2.2)

/-- `queue_get_first_block_todo`. -/
def queueGetFirstBlockTodo (q : Queue) : Locked (Except FsaErr (Nat × BlockInfo)) :=
  if queueGetEndOfQueue q then .unlock q (.error .endoffile)
  else
    match takeTodo q.items with
    | some (num, blk, items) => .unlock { q with items } (.ok (num, blk))
    | none => .wait

/-- The search of `queue_replace_block`: the item with this number gets the new block. Only
`blkinfo` is written, which a header does not read. -/
def replaceItem (num : Nat) (blkinfo : BlockInfo) (newstatus : ItemStatus) :
    List QueueItem → Option (List QueueItem)
  | [] => none
  | item :: rest =>
    if item.itemnum = num then
      let data := match item.data with
        | .block _ => .block blkinfo
        | .header headinfo => .header headinfo
      some ({ item with status := newstatus, data } :: rest)
    else (replaceItem num blkinfo newstatus rest).map (item :: ·)

/-- `queue_replace_block`. -/
def queueReplaceBlock (q : Queue) (num : Nat) (blkinfo : BlockInfo) (newstatus : ItemStatus) :
    Queue × Except FsaErr Unit :=
  match replaceItem num blkinfo newstatus q.items with
  | some items => ({ q with items }, .ok ())
  | none => (q, .error .enoent)

/-! ## Taking items -/

/-- The queue without its first item. -/
def Queue.unlinkHead (q : Queue) (head : QueueItem) (rest : List QueueItem) : Queue :=
  { q with
    items := rest
    itemcount := q.itemcount - 1
    blkcount := if head.data.isBlock then q.blkcount - 1 else q.blkcount }

/-- The wait shared by the functions of the consumer, until the first item is ready or the
queue has ended. -/
def waitFirst {α : Type} (q : Queue) (ready : ItemStatus → Bool)
    (found : QueueItem → List QueueItem → Locked (Except FsaErr α)) : Locked (Except FsaErr α) :=
  if queueGetEndOfQueue q then .unlock q (.error .endoffile)
  else
    match q.items with
    | [] => .wait
    | head :: rest => if ready head.status then found head rest else .wait

/-- `queue_dequeue_first`: the first item, whatever its type. -/
def queueDequeueFirst (q : Queue) : Locked (Except FsaErr QueueData) :=
  waitFirst q (· = .done) fun head rest => .unlock (q.unlinkHead head rest) (.ok head.data)

/-- `queue_dequeue_block`: the first item if it is a block. -/
def queueDequeueBlock (q : Queue) : Locked (Except FsaErr BlockInfo) :=
  waitFirst q (· = .done) fun head rest =>
    match head.data with
    | .block blkinfo => .unlock (q.unlinkHead head rest) (.ok blkinfo)
    | .header _ => .unlock q (.error .wrongtype)

/-- `queue_dequeue_header`: the first item if it is a header. -/
def queueDequeueHeader (q : Queue) : Locked (Except FsaErr HeadInfo) :=
  waitFirst q (· = .done) fun head rest =>
    match head.data with
    | .header headinfo => .unlock (q.unlinkHead head rest) (.ok headinfo)
    | .block _ => .unlock q (.error .wrongtype)

/-- `queue_check_next_item`: the magic of the first item, or nothing for a block. -/
def queueCheckNextItem (q : Queue) : Locked (Except FsaErr (Option Magic)) :=
  waitFirst q (· = .done) fun head _ =>
    match head.data with
    | .header headinfo => .unlock q (.ok (some headinfo.magic))
    | .block _ => .unlock q (.ok none)

/-- `queue_destroy_first_item`: the first item is dropped, processed or not. -/
def queueDestroyFirstItem (q : Queue) : Locked (Except FsaErr Unit) :=
  waitFirst q (· ≠ .progress) fun head rest => .unlock (q.unlinkHead head rest) (.ok ())

/-! ## What the list searches do -/

/-- The search for a block to do changes the status of one item. -/
theorem takeTodo_eq_some {items items' : List QueueItem} {num : Nat} {blk : BlockInfo}
    (h : takeTodo items = some (num, blk, items')) :
    ∃ front rest, items = front ++ ⟨num, .todo, .block blk⟩ :: rest ∧
      items' = front ++ ⟨num, .progress, .block blk⟩ :: rest := by
  induction items using takeTodo.induct generalizing items' with
  | case1 => cases h
  | case2 num' blk' rest =>
    simp only [takeTodo, Option.some.injEq, Prod.mk.injEq] at h
    obtain ⟨rfl, rfl, rfl⟩ := h
    exact ⟨[], rest, rfl, rfl⟩
  | case3 item rest other ih =>
    rw [takeTodo.eq_3 _ _ other, Option.map_eq_some_iff] at h
    obtain ⟨⟨num', blk', rest'⟩, found, same⟩ := h
    simp only [Prod.mk.injEq] at same
    obtain ⟨rfl, rfl, rfl⟩ := same
    obtain ⟨front, back, rfl, rfl⟩ := ih found
    exact ⟨item :: front, back, rfl, rfl⟩

/-- A replacement changes the first item with the number. -/
theorem replaceItem_eq_some {num : Nat} {blk : BlockInfo} {status : ItemStatus}
    {items items' : List QueueItem} (h : replaceItem num blk status items = some items') :
    ∃ front item rest, items = front ++ item :: rest ∧ item.itemnum = num ∧
      items' = front ++ { item with
        status := status
        data := match item.data with
          | .block _ => .block blk
          | .header headinfo => .header headinfo } :: rest := by
  induction items generalizing items' with
  | nil => cases h
  | cons item rest ih =>
    simp only [replaceItem] at h
    split at h
    next same =>
      simp only [Option.some.injEq] at h
      exact ⟨[], item, rest, rfl, same, h.symm⟩
    next =>
      rw [Option.map_eq_some_iff] at h
      obtain ⟨rest', found, rfl⟩ := h
      obtain ⟨front, item', back, rfl, num', rfl⟩ := ih found
      exact ⟨item :: front, item', back, rfl, num', rfl⟩

/-- A replacement fails only where no item has the number. -/
theorem replaceItem_eq_none {num : Nat} {blk : BlockInfo} {status : ItemStatus}
    {items : List QueueItem} (h : replaceItem num blk status items = none) :
    ∀ item ∈ items, item.itemnum ≠ num := by
  induction items with
  | nil => simp
  | cons item rest ih =>
    simp only [replaceItem] at h
    split at h
    next => cases h
    next other =>
      rw [Option.map_eq_none_iff] at h
      intro item' member
      rcases List.mem_cons.mp member with rfl | member
      · exact other
      · exact ih h item' member

/-- The consumer's wait ends at the end of the queue or with a ready first item. -/
theorem waitFirst_eq_unlock {α : Type} {q q' : Queue} {ready : ItemStatus → Bool}
    {found : QueueItem → List QueueItem → Locked (Except FsaErr α)} {result : Except FsaErr α}
    (h : waitFirst q ready found = .unlock q' result) :
    (queueGetEndOfQueue q = true ∧ q' = q ∧ result = .error .endoffile) ∨
    ∃ head rest, q.items = head :: rest ∧ ready head.status = true ∧
      found head rest = .unlock q' result := by
  unfold waitFirst at h
  split at h
  next ended =>
    cases h
    exact .inl ⟨ended, rfl, rfl⟩
  next =>
    split at h
    next => cases h
    next head rest items =>
      split at h
      next isReady => exact .inr ⟨head, rest, items, isReady, h⟩
      next => cases h

/-! ## Well-formed queues -/

/-- The counters agree with the list, and the items are numbered in order from the one after
the last item taken. -/
structure Queue.Wf (q : Queue) (taken : Nat) : Prop where
  /-- Items are numbered one by one from 1. -/
  numbered : q.items.map QueueItem.itemnum = List.range' (taken + 1) q.items.length
  /-- The next number continues the list. -/
  next : q.curitemnum = taken + q.items.length + 1
  /-- `itemcount` is the length of the list. -/
  items : q.itemcount = q.items.length
  /-- `blkcount` is the number of blocks in the list. -/
  blocks : q.blkcount = q.items.countP fun item => item.data.isBlock
  /-- A header is ready from the start. -/
  ready : ∀ item ∈ q.items, item.data.isBlock = false → item.status = .done

namespace Queue.Wf

variable {q : Queue} {taken : Nat}

/-- A new queue is well formed. -/
theorem init (blkmax : Nat) : (queueInit blkmax).Wf 0 :=
  ⟨rfl, rfl, rfl, rfl, by simp [queueInit]⟩

/-- The end flag plays no part. -/
theorem setEnd (wf : q.Wf taken) (state : Bool) : (queueSetEndOfQueue q state).Wf taken :=
  ⟨wf.numbered, wf.next, wf.items, wf.blocks, wf.ready⟩

/-- Adding an item keeps the queue well formed; a header must be ready. -/
theorem link (wf : q.Wf taken) {data : QueueData} {status : ItemStatus}
    (header : data.isBlock = false → status = .done) : (q.link data status).Wf taken := by
  obtain ⟨numbered, next, items, blocks, ready⟩ := wf
  refine ⟨?_, ?_, ?_, ?_, ?_⟩
  · simp only [Queue.link, List.map_append, numbered, List.map_cons, List.map_nil,
      List.length_append, List.length_cons, List.length_nil, List.range'_concat, next, Nat.zero_add,
      Nat.one_mul, List.append_cancel_left_eq, List.cons.injEq, and_true]
    omega
  · simp only [Queue.link, List.length_append, List.length_cons, List.length_nil]
    omega
  · simp only [Queue.link, List.length_append, List.length_cons, List.length_nil]
    omega
  · simp only [Queue.link, List.countP_append, List.countP_cons, List.countP_nil, ← blocks]
    split <;> omega
  · intro item member
    simp only [Queue.link, List.mem_append, List.mem_cons, List.not_mem_nil, or_false] at member
    rcases member with member | rfl
    · exact ready item member
    · exact header

/-- Changing one item in place keeps the queue well formed when number and type stay. -/
theorem change (wf : q.Wf taken) {front rest : List QueueItem} {item item' : QueueItem}
    (split : q.items = front ++ item :: rest) (num : item'.itemnum = item.itemnum)
    (type : item'.data.isBlock = item.data.isBlock)
    (header : item'.data.isBlock = false → item'.status = .done) :
    ({ q with items := front ++ item' :: rest } : Queue).Wf taken := by
  obtain ⟨numbered, next, items, blocks, ready⟩ := wf
  rw [split] at numbered next items blocks ready
  refine ⟨?_, ?_, ?_, ?_, ?_⟩
  · simpa [num] using numbered
  · simpa using next
  · simpa using items
  · simpa [List.countP_append, List.countP_cons, type] using blocks
  · intro other member
    rcases List.mem_append.mp member with member | member
    · exact ready other (by simp [member])
    · rcases List.mem_cons.mp member with rfl | member
      · exact header
      · exact ready other (by simp [member])

/-- Taking the first item keeps the queue well formed. -/
theorem unlinkHead (wf : q.Wf taken) {head : QueueItem} {rest : List QueueItem}
    (split : q.items = head :: rest) : (q.unlinkHead head rest).Wf (taken + 1) := by
  obtain ⟨numbered, next, items, blocks, ready⟩ := wf
  rw [split] at numbered next items blocks ready
  simp only [List.map_cons, List.length_cons, List.range'_succ, List.cons.injEq] at numbered
  refine ⟨numbered.2, ?_, ?_, ?_, fun item member => ready item (List.mem_cons_of_mem head member)⟩
  · simp only [Queue.unlinkHead, List.length_cons] at next ⊢
    omega
  · simp only [Queue.unlinkHead, items, List.length_cons, Nat.add_sub_cancel]
  · rw [List.countP_cons] at blocks
    simp only [Queue.unlinkHead, blocks]
    split <;> simp_all

/-- Numbers are positions. -/
theorem num_of_getElem? (wf : q.Wf taken) {index : Nat} {item : QueueItem}
    (found : q.items[index]? = some item) : item.itemnum = taken + 1 + index := by
  have numbered := congrArg (·[index]?) wf.numbered
  have inside := (List.getElem?_eq_some_iff.mp found).1
  simp only [List.getElem?_map, found, Option.map_some] at numbered
  rw [List.getElem?_range' inside] at numbered
  simpa using numbered

/-- Two items with one number are one item. -/
theorem unique (wf : q.Wf taken) {item item' : QueueItem} (left : item ∈ q.items)
    (right : item' ∈ q.items) (num : item.itemnum = item'.itemnum) : item = item' := by
  obtain ⟨index, found⟩ := List.mem_iff_getElem?.mp left
  obtain ⟨index', found'⟩ := List.mem_iff_getElem?.mp right
  have same : index = index' := by
    have first := wf.num_of_getElem? found
    have second := wf.num_of_getElem? found'
    omega
  rw [same, found'] at found
  exact (Option.some.inj found).symm

/-- A queue at its end is empty. -/
theorem items_of_end (wf : q.Wf taken) (ended : queueGetEndOfQueue q = true) : q.items = [] := by
  simp only [queueGetEndOfQueue, wf.items, Bool.and_eq_true, decide_eq_true_eq] at ended
  exact List.eq_nil_of_length_eq_zero (by omega)

end Queue.Wf

end FsArchiver
