import FsArchiver.Lib.Transition
import FsArchiver.Writebuf

/-!
# Dictionaries and failing allocations

`dico_add_generic` with the two allocations it makes. The node of a new item is linked into the
list before the memory for its payload is allocated: when that allocation fails the call returns
an error, and the item stays in the list without its payload.
-/
namespace FsArchiver

open Lib

/-! ## Items without a payload -/

/-- `s_dicoitem` with its pointer. -/
structure DicoNode where
  /-- `DICTYPE_*`. -/
  type : UInt8
  /-- `DICO_OBJ_SECTION_*`. -/
  sect : UInt8
  /-- Key within the section. -/
  key : UInt16
  /-- Size of the payload. -/
  size : UInt16
  /-- The payload, or the null pointer. -/
  data : Option (List UInt8)
  deriving DecidableEq

/-- The pair a dico is searched for. -/
def DicoNode.name (node : DicoNode) : UInt8 × UInt16 := (node.sect, node.key)

/-- Which allocations of a call succeed. -/
structure Mallocs where
  /-- `malloc(sizeof(cdicoitem))`. -/
  node : Bool
  /-- `malloc(size)`. -/
  data : Bool

/-- The item that `dico_add_generic` has linked when it comes to the payload. -/
def DicoCall.node (call : DicoCall) (data : Option (List UInt8)) : DicoNode where
  type := call.type
  sect := call.sect
  key := call.key
  size := UInt16.ofNat call.data.length
  data := data

/-- `dico_add_generic`: the list and what it returns. -/
def dicoAddMalloc (items : List DicoNode) (call : DicoCall) (mallocs : Mallocs) :
    List DicoNode × Int :=
  if mallocs.node = false then (items, -3)
  else if items.any fun item => item.sect = call.sect ∧ item.key = call.key then (items, -3)
  else if UInt16.ofNat call.data.length > 0 then
    if mallocs.data then (items ++ [call.node (some (sizedData call.data))], 0)
    else (items ++ [call.node none], -3)
  else (items ++ [call.node none], 0)

/-- The bytes `writebuf_add_dico` copies from an item, or nothing if it reads from the null
pointer. -/
def DicoNode.encode (node : DicoNode) : Option (List UInt8) :=
  let head := [node.type, node.sect] ++ leBytes 2 node.key.toNat ++ leBytes 2 node.size.toNat
  if node.size > 0 then node.data.map (head ++ ·) else some head

/-- The contents `writebuf_add_dico` puts together from a list. -/
def encodeNodes (items : List DicoNode) : Option (List UInt8) := do
  let encoded ← items.mapM DicoNode.encode
  some (leBytes 2 items.length ++ encoded.flatten)

/-! ## Runs of additions -/

/-- An addition and which of its allocations succeed. -/
abbrev Addition := DicoCall × Mallocs

/-- The list after an addition. -/
def addStep (items : List DicoNode) (addition : Addition) (after : List DicoNode) : Prop :=
  after = (dicoAddMalloc items addition.1 addition.2).1

/-- The states of a dico from `dico_alloc` on. -/
def additionsRun (additions : List Addition) : List (Addition × List DicoNode) :=
  Trace.runOf (fun items (addition : Addition) =>
    some (dicoAddMalloc items addition.1 addition.2).1) [] additions

/-- Every item of non-zero size has its payload, the pairs are distinct, and writing the dico
reads no missing buffer. -/
structure SoundNodes (items : List DicoNode) : Prop where
  /-- Payloads are there. -/
  payloads : ∀ node ∈ items, node.size ≠ 0 → node.data.isSome = true
  /-- No pair is there twice. -/
  distinct : (items.map DicoNode.name).Nodup
  /-- The dico can be written. -/
  readable : encodeNodes items ≠ none

/-- A run in which every failed addition leaves the list as it was, and every list is sound. -/
structure UnchangedByFailures (additions : List Addition) : Prop where
  /-- Failures change nothing. -/
  unchanged : ∀ before addition after rest,
    additionsRun additions = before ++ (addition, after) :: rest →
    (dicoAddMalloc (Trace.last [] before) addition.1 addition.2).2 ≠ 0 →
      after = Trace.last [] before
  /-- All states are sound. -/
  sound : ∀ items ∈ Trace.states [] (additionsRun additions), SoundNodes items

/-- The pair of the call is free and it has a payload, for which there is no memory although
there was some for its node. -/
def LosesPayload (items : List DicoNode) (addition : Addition) : Prop :=
  addition.2.node = true ∧ addition.2.data = false ∧
    UInt16.ofNat addition.1.data.length > 0 ∧
    (addition.1.sect, addition.1.key) ∉ items.map DicoNode.name

section Additions

variable {items after : List DicoNode} {addition : Addition}

theorem additionsRun_trace (additions : List Addition) :
    Trace addStep [] (additionsRun additions) :=
  Trace.trace_runOf (fun _ _ _ taken => (Option.some.inj taken).symm) [] additions

/-- The search of the list looks for the pair. -/
theorem any_name_iff (items : List DicoNode) (call : DicoCall) :
    (items.any fun item => decide (item.sect = call.sect ∧ item.key = call.key)) = true ↔
      (call.sect, call.key) ∈ items.map DicoNode.name := by
  simp only [List.any_eq_true, decide_eq_true_eq, List.mem_map, DicoNode.name, Prod.mk.injEq]

/-- What an addition may do: nothing, with an error; a sound item at the end; or an item without
its payload, with an error. -/
theorem dicoAddMalloc_cases (items : List DicoNode) (addition : Addition) :
    (dicoAddMalloc items addition.1 addition.2 = (items, -3) ∧ ¬LosesPayload items addition) ∨
    (∃ node : DicoNode, dicoAddMalloc items addition.1 addition.2 = (items ++ [node], 0) ∧
      node.name ∉ items.map DicoNode.name ∧ (node.size ≠ 0 → node.data.isSome = true) ∧
      ¬LosesPayload items addition) ∨
    (dicoAddMalloc items addition.1 addition.2 = (items ++ [addition.1.node none], -3) ∧
      LosesPayload items addition) := by
  obtain ⟨call, mallocs⟩ := addition
  unfold dicoAddMalloc LosesPayload
  dsimp only
  have searched := any_name_iff items call
  split
  · next failed => exact .inl ⟨rfl, by simp [failed]⟩
  · next allocated =>
    split
    · next taken => exact .inl ⟨rfl, fun loses => loses.2.2.2 (searched.mp taken)⟩
    · next free =>
      have fresh : (call.sect, call.key) ∉ items.map DicoNode.name :=
        fun member => free (searched.mpr member)
      split
      · next payload =>
        split
        · next copied =>
          exact .inr (.inl ⟨_, rfl, fresh, fun _ => rfl, by simp [copied]⟩)
        · next lost =>
          exact .inr (.inr ⟨rfl, by simpa using allocated, by simpa using lost, payload, fresh⟩)
      · next empty =>
        refine .inr (.inl ⟨_, rfl, fresh, fun nonzero => ?_, by simp [empty]⟩)
        exact absurd (UInt16.pos_iff_ne_zero.mpr nonzero) empty

/-- A list whose payloads are all there is written. -/
theorem encodeNodes_of_payloads
    (payloads : ∀ node ∈ items, node.size ≠ 0 → node.data.isSome = true) :
    encodeNodes items ≠ none := by
  have encoded : ∃ parts, items.mapM DicoNode.encode = some parts := by
    induction items with
    | nil => exact ⟨[], rfl⟩
    | cons node rest ih =>
      obtain ⟨parts, all⟩ := ih fun other member => payloads other (List.mem_cons_of_mem _ member)
      have first : ∃ part, node.encode = some part := by
        unfold DicoNode.encode
        by_cases nonzero : node.size = 0
        · rw [nonzero]
          exact ⟨_, rfl⟩
        · obtain ⟨data, there⟩ :=
            Option.isSome_iff_exists.mp (payloads node List.mem_cons_self nonzero)
          rw [there]
          exact ⟨_, if_pos (UInt16.pos_iff_ne_zero.mpr nonzero)⟩
      obtain ⟨part, here⟩ := first
      exact ⟨part :: parts, by rw [List.mapM_cons, here, all]; rfl⟩
  obtain ⟨parts, all⟩ := encoded
  rw [encodeNodes, all]
  exact Option.some_ne_none _

/-- The empty dico is sound. -/
theorem soundNodes_nil : SoundNodes [] :=
  ⟨fun _ member => absurd member List.not_mem_nil, List.nodup_nil, Option.some_ne_none _⟩

/-- An addition that does not lose its payload keeps a dico sound. -/
theorem SoundNodes.step (sound : SoundNodes items) (kept : ¬LosesPayload items addition)
    (stepped : addStep items addition after) : SoundNodes after := by
  unfold addStep at stepped
  rcases dicoAddMalloc_cases items addition with ⟨same, -⟩ | ⟨node, added, fresh, payload, -⟩ |
    ⟨-, loses⟩
  · rw [stepped, same]
    exact sound
  · rw [added] at stepped
    subst stepped
    have payloads : ∀ other ∈ items ++ [node], other.size ≠ 0 → other.data.isSome = true := by
      intro other member
      rcases List.mem_append.mp member with before | last
      · exact sound.payloads other before
      · rw [List.mem_singleton.mp last]
        exact payload
    refine ⟨payloads, ?_, encodeNodes_of_payloads payloads⟩
    rw [List.map_append, List.nodup_append]
    refine ⟨sound.distinct, by simp, ?_⟩
    rintro left member right last rfl
    rw [List.map_singleton, List.mem_singleton] at last
    exact fresh (last ▸ member)
  · exact absurd loses kept

/-- A call that fails without losing a payload changes nothing. -/
theorem unchanged_of_kept (kept : ¬LosesPayload items addition)
    (failed : (dicoAddMalloc items addition.1 addition.2).2 ≠ 0) :
    (dicoAddMalloc items addition.1 addition.2).1 = items := by
  rcases dicoAddMalloc_cases items addition with ⟨same, -⟩ | ⟨node, added, -⟩ | ⟨-, loses⟩
  · rw [same]
  · rw [added] at failed
    exact absurd rfl failed
  · exact absurd loses kept

/-- A call that loses its payload fails and leaves its item in the list. -/
theorem changed_of_loses (loses : LosesPayload items addition) :
    (dicoAddMalloc items addition.1 addition.2).2 ≠ 0 ∧
      (dicoAddMalloc items addition.1 addition.2).1 ≠ items := by
  rcases dicoAddMalloc_cases items addition with ⟨-, kept⟩ | ⟨node, -, -, -, kept⟩ | ⟨added, -⟩
  · exact absurd loses kept
  · exact absurd loses kept
  · rw [added]
    exact ⟨show (-3 : Int) ≠ 0 by decide, by simp⟩

/-- Whatever fails, no pair comes into the list twice. -/
theorem additions_distinct (additions : List Addition) :
    ∀ items ∈ Trace.states [] (additionsRun additions), (items.map DicoNode.name).Nodup := by
  refine Trace.invariant_of_step (fun items addition after distinct stepped => ?_)
    (additionsRun_trace additions) List.nodup_nil
  have appended : ∀ node : DicoNode, node.name ∉ items.map DicoNode.name →
      ((items ++ [node]).map DicoNode.name).Nodup := by
    intro node fresh
    rw [List.map_append, List.nodup_append]
    refine ⟨distinct, by simp, ?_⟩
    rintro left member right last rfl
    rw [List.map_singleton, List.mem_singleton] at last
    exact fresh (last ▸ member)
  unfold addStep at stepped
  rcases dicoAddMalloc_cases items addition with ⟨same, -⟩ | ⟨node, added, fresh, -⟩ | ⟨added, loses⟩
  · rw [stepped, same]
    exact distinct
  · rw [stepped, added]
    exact appended node fresh
  · rw [stepped, added]
    exact appended _ loses.2.2.2

/-- In a run of additions every failure leaves the dico as it was, and every dico is sound,
exactly if no addition in it loses its payload. -/
theorem unchangedByFailures_iff (additions : List Addition) :
    UnchangedByFailures additions ↔
      ∀ before addition after rest,
        additionsRun additions = before ++ (addition, after) :: rest →
          ¬LosesPayload (Trace.last [] before) addition := by
  have run := additionsRun_trace additions
  constructor
  · intro kept before addition after rest split loses
    have stepped : addStep (Trace.last [] before) addition after :=
      Trace.step_of_split (split ▸ run)
    obtain ⟨failed, changed⟩ := changed_of_loses loses
    exact changed (stepped.symm.trans (kept.unchanged before addition after rest split failed))
  · intro kept
    refine ⟨fun before addition after rest split failed => ?_, ?_⟩
    · have stepped : addStep (Trace.last [] before) addition after :=
        Trace.step_of_split (split ▸ run)
      exact stepped.trans (unchanged_of_kept (kept before addition after rest split) failed)
    · exact Trace.invariant (fun items addition => ¬LosesPayload items addition)
        (fun _ _ _ sound allowed stepped => sound.step allowed stepped) run soundNodes_nil kept

/-- One addition to an empty dico, without memory for its payload, leaves an item behind. -/
theorem payload_lost :
    ¬UnchangedByFailures [(dicoAddU16 0 1 5, ⟨true, false⟩)] := by
  intro kept
  have same := kept.unchanged [] (dicoAddU16 0 1 5, ⟨true, false⟩)
    (dicoAddMalloc [] (dicoAddU16 0 1 5) ⟨true, false⟩).1 [] rfl (by decide)
  revert same
  decide

/-! ## Dicos whose allocations succeed -/

/-- An item with its pointer. -/
def DicoItem.node (item : DicoItem) : DicoNode where
  type := item.type
  sect := item.sect
  key := item.key
  size := UInt16.ofNat item.data.length
  data := if item.data = [] then none else some item.data

/-- The size of an item is the length of its payload. -/
theorem DicoItem.toNat_size_node (item : DicoItem) : item.node.size.toNat = item.data.length := by
  rw [DicoItem.node, UInt16.toNat_ofNat', Nat.mod_eq_of_lt item.size_lt]

/-- The item of a call, with its pointer. -/
theorem DicoCall.node_item (call : DicoCall) :
    call.item.node =
      call.node (if UInt16.ofNat call.data.length > 0 then some (sizedData call.data) else none) := by
  have length := length_sizedData call.data
  have size : UInt16.ofNat (sizedData call.data).length = UInt16.ofNat call.data.length := by
    apply UInt16.toNat_inj.mp
    rw [UInt16.toNat_ofNat', UInt16.toNat_ofNat', length, Nat.mod_mod]
  have empty : sizedData call.data = [] ↔ ¬UInt16.ofNat call.data.length > 0 := by
    rw [← List.length_eq_zero_iff, length, gt_iff_lt, UInt16.lt_iff_toNat_lt, UInt16.toNat_ofNat']
    simp
  simp only [DicoItem.node, DicoCall.item, DicoItem.make, DicoCall.node, size, empty, ite_not]

/-- An addition whose node gets its memory, and that does not lose its payload, is
`dicoAddGeneric`. -/
theorem dicoAddMalloc_refines (d : Dico) (call : DicoCall) {mallocs : Mallocs}
    (allocated : mallocs.node = true)
    (kept : ¬LosesPayload (d.items.map DicoItem.node) (call, mallocs)) :
    (dicoAddMalloc (d.items.map DicoItem.node) call mallocs).1 =
      (dicoAddAll d [call]).items.map DicoItem.node := by
  have names : (d.items.map DicoItem.node).map DicoNode.name = d.items.map DicoItem.name := by
    rw [List.map_map]
    rfl
  have searched := any_name_iff (d.items.map DicoItem.node) call
  rw [names] at searched
  unfold LosesPayload at kept
  rw [names] at kept
  simp only [dicoAddAll, List.foldl_cons, List.foldl_nil]
  rw [dicoAddMalloc, dicoAddGeneric, if_neg (by simp [allocated])]
  by_cases taken : (call.sect, call.key) ∈ d.items.map DicoItem.name
  · rw [if_pos (searched.mpr taken), dif_neg (not_not.mpr taken), Option.getD_none]
  · rw [if_neg (fun found => taken (searched.mp found)), dif_pos taken, Option.getD_some]
    have last := call.node_item
    simp only [List.map_append, List.map_singleton]
    by_cases payload : UInt16.ofNat call.data.length > 0
    · rw [if_pos payload] at last
      have copied : mallocs.data = true := by
        by_contra lost
        exact kept ⟨allocated, by simpa using lost, payload, taken⟩
      rw [if_pos payload, if_pos copied, ← last]
      rfl
    · rw [if_neg payload] at last
      rw [if_neg payload, ← last]
      rfl

/-- An addition whose node gets no memory changes nothing. -/
theorem dicoAddMalloc_of_noNode (items : List DicoNode) (call : DicoCall) {mallocs : Mallocs}
    (failed : mallocs.node = false) : dicoAddMalloc items call mallocs = (items, -3) :=
  if_pos failed

/-- A run from a dico in which no addition loses its payload ends in the dico of the calls whose
nodes got their memory. -/
theorem runOf_refines (d : Dico) (additions : List Addition)
    (kept : ∀ before addition after rest,
      Trace.runOf (fun items (addition : Addition) =>
          some (dicoAddMalloc items addition.1 addition.2).1) (d.items.map DicoItem.node) additions =
        before ++ (addition, after) :: rest →
      ¬LosesPayload (Trace.last (d.items.map DicoItem.node) before) addition) :
    Trace.last (d.items.map DicoItem.node)
        (Trace.runOf (fun items (addition : Addition) =>
          some (dicoAddMalloc items addition.1 addition.2).1) (d.items.map DicoItem.node)
          additions) =
      (dicoAddAll d ((additions.filter (·.2.node)).map Prod.fst)).items.map DicoItem.node := by
  induction additions generalizing d with
  | nil => rfl
  | cons addition additions ih =>
    obtain ⟨call, mallocs⟩ := addition
    rw [Trace.runOf] at kept ⊢
    dsimp only at kept ⊢
    have here := kept [] (call, mallocs) _ _ rfl
    have onward := fun before label after rest split =>
      kept (((call, mallocs), (dicoAddMalloc (d.items.map DicoItem.node) call mallocs).1) :: before)
        label after rest (congrArg (List.cons _) split)
    rw [Trace.last_cons]
    cases allocated : mallocs.node with
    | false =>
      simp only [dicoAddMalloc_of_noNode _ call allocated, Trace.last_cons] at onward ⊢
      rw [ih d onward, List.filter_cons_of_neg (by simp [allocated])]
    | true =>
      simp only [dicoAddMalloc_refines d call allocated here, Trace.last_cons] at onward ⊢
      rw [ih (dicoAddAll d [call]) onward, List.filter_cons_of_pos (by exact allocated)]
      rfl

/-- What `writebuf_add_dico` puts together is the encoding of the dico. -/
theorem encodeNodes_node (d : Dico) : encodeNodes (d.items.map DicoItem.node) = some d.encode := by
  have each : ∀ item : DicoItem, item.node.encode = some item.encode := by
    intro item
    have size := item.toNat_size_node
    unfold DicoNode.encode DicoItem.encode
    rw [size]
    by_cases empty : item.data = []
    · have zero : ¬item.node.size > 0 := by
        rw [gt_iff_lt, UInt16.lt_iff_toNat_lt, size, empty]
        simp
      rw [if_neg zero, empty, List.append_nil]
      rfl
    · have positive : item.node.size > 0 := by
        rw [gt_iff_lt, UInt16.lt_iff_toNat_lt, size]
        exact List.length_pos_iff.mpr empty
      have there : item.node.data = some item.data := if_neg empty
      rw [if_pos positive, there]
      rfl
  have all : ∀ items : List DicoItem,
      (items.map DicoItem.node).mapM DicoNode.encode = some (items.map DicoItem.encode) := by
    intro items
    induction items with
    | nil => rfl
    | cons item items ih =>
      rw [List.map_cons, List.mapM_cons, each, ih]
      rfl
  rw [encodeNodes, all, List.length_map]
  rfl

end Additions

end FsArchiver
