import FsArchiver.Resync
import Mathlib.Order.Bounds.Basic

/-!
# The search for a magic

The first half of `archreader_read_header`. It reads four bytes where the reader stands and,
while they are no valid magic, seeks to a counter that it advances after the seek, so that the
second read is at the place of the first one. The search is followed here read by read, and it
ends at the first place from its start that holds a valid magic, as `archreaderReadHeader` has it.
-/
namespace FsArchiver

open Lib

/-! ## The reads of the search -/

/-- A read of a magic ends inside the volume, right behind the place it was at. -/
theorem readMagic_eq_some {ai after : ArchReader} {curpos : Nat} {found : List UInt8}
    (got : archreaderReadData { ai with pos := curpos } sizeofMagic = some (found, after)) :
    curpos + sizeofMagic ≤ ai.file.length ∧ readAt ai.file curpos sizeofMagic = some found ∧
      after = { ai with pos := curpos + sizeofMagic } := by
  simp only [archreaderReadData, Option.map_eq_some_iff, Prod.mk.injEq] at got
  obtain ⟨bytes, read, rfl, rfl⟩ := got
  have inside := read
  simp only [readAt, sizeofMagic, List.length_drop] at inside
  split at inside
  · exact ⟨by simp only [sizeofMagic]; omega, read, rfl⟩
  · cases inside

/-- The loop of `archreader_read_header`: the seek to `curpos++` and the read behind it, until
four bytes form a valid magic. -/
def seekMagic (ai : ArchReader) (curpos : Nat) (magic : List UInt8) :
    Option (List UInt8 × ArchReader) :=
  if Magic.isMagicValid magic then some (magic, ai)
  else
    match _read : archreaderReadData { ai with pos := curpos } sizeofMagic with
    | none => none
    | some (magic, ai) => seekMagic ai (curpos + 1) magic
termination_by ai.file.length - curpos
decreasing_by
  obtain ⟨inside, -, rfl⟩ := readMagic_eq_some _read
  simp only [sizeofMagic] at inside ⊢
  omega

/-- `archreader_read_header` up to its magic test: the magic it goes on with and the reader
behind it. -/
def magicTest (ai : ArchReader) (allowseek : Bool) : Option (List UInt8 × ArchReader) :=
  let curpos := ai.pos
  match archreaderReadData ai sizeofMagic with
  | none => none
  | some (magic, ai) =>
    if Magic.isMagicValid magic ≠ true ∧ allowseek ≠ true then none
    else seekMagic ai curpos magic

/-- `archreader_read_header` with the reads of its search. -/
def readHeaderSeeking (mem : Mem) (ai : ArchReader) (allowseek : Bool) : Read HeaderRead :=
  match magicTest ai allowseek with
  | none => .fatal
  | some (found, ai) =>
    match Magic.ofBytes found with
    | none => .fatal
    | some magic => readHeaderAt mem ai (ai.pos - sizeofMagic) magic

/-! ## The places of valid magics -/

/-- The places from `start` on where four bytes inside the volume form a valid magic. -/
def magicPlaces (file : List UInt8) (start : Nat) : Set Nat :=
  {place | start ≤ place ∧
    ∃ found, readAt file place sizeofMagic = some found ∧ Magic.isMagicValid found = true}

section Places

variable {file : List UInt8} {start : Nat}

/-- No four bytes are read at a place that the volume ends before. -/
theorem magicPlaces_of_end (cut : readAt file start sizeofMagic = none) :
    magicPlaces file start = ∅ := by
  apply Set.eq_empty_of_forall_notMem
  rintro place ⟨behind, found, read, -⟩
  simp only [readAt, sizeofMagic, List.length_drop] at cut read
  split at cut
  · cases cut
  · rw [if_neg (by omega)] at read
    cases read

/-- A place that holds no magic may be left out. -/
theorem magicPlaces_succ {found : List UInt8} (read : readAt file start sizeofMagic = some found)
    (invalid : Magic.isMagicValid found ≠ true) :
    magicPlaces file (start + 1) = magicPlaces file start := by
  ext place
  constructor
  · rintro ⟨behind, valid⟩
    exact ⟨by omega, valid⟩
  · rintro ⟨behind, other, there, valid⟩
    have apart : place ≠ start := by
      rintro rfl
      rw [read] at there
      cases there
      exact invalid valid
    exact ⟨by omega, other, there, valid⟩

/-- The first of the places is the start where a magic lies there. -/
theorem isLeast_start {found : List UInt8} (read : readAt file start sizeofMagic = some found)
    (valid : Magic.isMagicValid found = true) : IsLeast (magicPlaces file start) start :=
  ⟨⟨le_refl start, found, read, valid⟩, fun _ member => member.1⟩

end Places

/-- What the search may end with from `start`: the magic at the first of the places and the
reader behind it, or nothing where there is none. -/
def SearchedFrom (ai : ArchReader) (start : Nat) : Option (List UInt8 × ArchReader) → Prop
  | none => magicPlaces ai.file start = ∅
  | some (found, after) => ∃ place, IsLeast (magicPlaces ai.file start) place ∧
      readAt ai.file place sizeofMagic = some found ∧
      after = { ai with pos := place + sizeofMagic }

/-- A search that is moved to a later place between which no magic lies ends the same way. -/
theorem SearchedFrom.moved {ai : ArchReader} {start later pos : Nat}
    {result : Option (List UInt8 × ArchReader)}
    (searched : SearchedFrom { ai with pos } later result)
    (same : magicPlaces ai.file later = magicPlaces ai.file start) :
    SearchedFrom ai start result := by
  cases result with
  | none =>
    simp only [SearchedFrom] at searched ⊢
    rw [← same]
    exact searched
  | some found =>
    obtain ⟨place, least, read, after⟩ := searched
    rw [same] at least
    exact ⟨place, least, read, after⟩

/-- The loop searches from the place it has just read, whether its counter has stayed there or
has gone one further. -/
theorem seekMagic_searches (ai : ArchReader) (curpos start : Nat) (magic : List UInt8)
    (read : readAt ai.file start sizeofMagic = some magic)
    (behind : ai.pos = start + sizeofMagic) (counter : curpos = start ∨ curpos = start + 1) :
    SearchedFrom ai start (seekMagic ai curpos magic) := by
  induction ai, curpos, magic using seekMagic.induct generalizing start with
  | case1 ai curpos magic valid =>
    rw [seekMagic, if_pos valid]
    exact ⟨start, isLeast_start read valid, read, by rw [← behind]⟩
  | case2 ai curpos magic invalid cut =>
    rw [seekMagic, if_neg invalid]
    have short : readAt ai.file curpos sizeofMagic = none := by
      simpa [archreaderReadData] using cut
    have same : magicPlaces ai.file curpos = magicPlaces ai.file start := by
      rcases counter with rfl | rfl
      · rfl
      · exact magicPlaces_succ read invalid
    split
    · simp only [SearchedFrom]
      rw [← same]
      exact magicPlaces_of_end short
    · next got =>
      rw [cut] at got
      cases got
  | case3 ai curpos magic invalid found after got ih =>
    rw [seekMagic, if_neg invalid]
    obtain ⟨-, there, behind⟩ := readMagic_eq_some got
    have same : magicPlaces ai.file curpos = magicPlaces ai.file start := by
      rcases counter with rfl | rfl
      · rfl
      · exact magicPlaces_succ read invalid
    split
    · next cut =>
      rw [got] at cut
      cases cut
    · next again =>
      rw [got] at again
      cases again
      subst behind
      -- the counter stands one behind the place just read from here on
      exact (ih curpos there rfl (Or.inr rfl)).moved same

/-- The magic test with a search ends as a search from the position of the reader does. -/
theorem magicTest_searches (ai : ArchReader) : SearchedFrom ai ai.pos (magicTest ai true) := by
  simp only [magicTest, archreaderReadData]
  cases read : readAt ai.file ai.pos sizeofMagic with
  | none => exact magicPlaces_of_end read
  | some magic =>
    rw [Option.map_some]
    simp only [ne_eq, not_true_eq_false, and_false, if_false]
    exact (seekMagic_searches { ai with pos := ai.pos + sizeofMagic } ai.pos ai.pos magic read rfl
      (Or.inl rfl)).moved rfl

/-! ## The search as one function of the volume -/

/-- What `findMagic` finds in the bytes from `start` on is the magic at the first of the
places. -/
theorem findMagic_searches (file : List UInt8) (start : Nat) :
    match findMagic (file.drop start) with
    | none => magicPlaces file start = ∅
    | some (offset, magic) => IsLeast (magicPlaces file start) (start + offset) ∧
        readAt file (start + offset) sizeofMagic = some magic.bytes := by
  induction behind : file.drop start generalizing start with
  | nil =>
    apply magicPlaces_of_end
    simp [readAt, behind, sizeofMagic]
  | cons byte rest ih =>
    have onward : file.drop (start + 1) = rest := by
      rw [← List.drop_drop, behind]
      rfl
    rw [findMagic]
    cases front : Magic.ofBytes ((byte :: rest).take sizeofMagic) with
    | some magic =>
      have four : sizeofMagic ≤ (byte :: rest).length := four_le_of_magic front
      have here : readAt file start sizeofMagic = some magic.bytes := by
        rw [readAt, behind, if_pos four, Magic.bytes_of_ofBytes front]
      exact ⟨isLeast_start here (by simp [Magic.isMagicValid]), here⟩
    | none =>
      have same : magicPlaces file (start + 1) = magicPlaces file start := by
        cases here : readAt file start sizeofMagic with
        | none =>
          have later : readAt file (start + 1) sizeofMagic = none := by
            simp only [readAt, sizeofMagic, List.length_drop] at here ⊢
            split at here
            · cases here
            · rw [if_neg (by omega)]
          rw [magicPlaces_of_end here, magicPlaces_of_end later]
        | some found =>
          refine magicPlaces_succ here ?_
          rw [readAt, behind] at here
          split at here
          · cases here
            simp [Magic.isMagicValid, front]
          · cases here
      have sought := ih (start + 1) onward
      cases later : findMagic rest with
      | none =>
        simp only [later, Option.map_none] at sought ⊢
        rw [← same]
        exact sought
      | some found =>
        simp only [later, Option.map_some] at sought ⊢
        rw [← same, show start + (found.1 + 1) = start + 1 + found.1 by omega]
        exact sought

/-- Reading on behind the magic the search has ended at. -/
theorem readHeaderAt_found (mem : Mem) (ai : ArchReader) (place : Nat) (magic : Magic) :
    readHeaderAt mem { ai with pos := place + sizeofMagic } (place + sizeofMagic - sizeofMagic)
      magic = readHeaderAt mem ai place magic := by
  rw [Nat.add_sub_cancel]
  rfl

/-- The header behind a search is the one at the first of the places. -/
theorem readHeaderSeeking_of_isLeast (mem : Mem) {ai : ArchReader} {place : Nat}
    (least : IsLeast (magicPlaces ai.file ai.pos) place) :
    ∃ magic : Magic, readAt ai.file place sizeofMagic = some magic.bytes ∧
      magicTest ai true = some (magic.bytes, { ai with pos := place + sizeofMagic }) ∧
      readHeaderSeeking mem ai true = readHeaderAt mem ai place magic := by
  obtain ⟨-, found, read, valid⟩ := least.1
  obtain ⟨magic, known⟩ := Option.isSome_iff_exists.1 valid
  obtain rfl := Magic.bytes_of_ofBytes known
  have searched := magicTest_searches ai
  cases tested : magicTest ai true with
  | none =>
    simp only [tested, SearchedFrom] at searched
    rw [searched] at least
    cases least.1
  | some result =>
    obtain ⟨bytes, after⟩ := result
    rw [tested] at searched
    obtain ⟨place', least', read', rfl⟩ := searched
    obtain rfl := least'.unique least
    rw [read] at read'
    cases read'
    refine ⟨magic, read, rfl, ?_⟩
    simp only [readHeaderSeeking, tested, Magic.ofBytes_bytes]
    exact readHeaderAt_found mem ai place' magic

/-- The search fails where there is no place. -/
theorem magicTest_eq_none_iff {ai : ArchReader} :
    magicTest ai true = none ↔ magicPlaces ai.file ai.pos = ∅ := by
  have searched := magicTest_searches ai
  cases tested : magicTest ai true with
  | none =>
    rw [tested] at searched
    exact ⟨fun _ => searched, fun _ => rfl⟩
  | some result =>
    rw [tested] at searched
    obtain ⟨place, least, -⟩ := searched
    constructor
    · intro failed
      cases failed
    · intro none
      rw [none] at least
      cases least.1

/-- The reads of the search amount to `archreaderReadHeader`. -/
theorem readHeaderSeeking_eq (mem : Mem) (ai : ArchReader) (allowseek : Bool) :
    readHeaderSeeking mem ai allowseek = archreaderReadHeader mem ai allowseek := by
  have sought := findMagic_searches ai.file ai.pos
  rw [archreaderReadHeader]
  cases allowseek with
  | true =>
    cases found : findMagic (ai.file.drop ai.pos) with
    | none =>
      simp only [found] at sought
      simp only [readHeaderSeeking, magicTest_eq_none_iff.mpr sought]
    | some result =>
      simp only [found] at sought
      obtain ⟨least, read⟩ := sought
      obtain ⟨magic, read', -, header⟩ := readHeaderSeeking_of_isLeast mem least
      rw [read, Option.some.injEq] at read'
      rw [header, ← Magic.bytes_injective read']
      simp
  | false =>
    cases here : readAt ai.file ai.pos sizeofMagic with
    | none =>
      cases found : findMagic (ai.file.drop ai.pos) with
      | none => simp only [readHeaderSeeking, magicTest, archreaderReadData, here, Option.map_none]
      | some result =>
        simp only [found, magicPlaces_of_end here] at sought
        cases sought.1.1
    | some bytes =>
      cases valid : Magic.ofBytes bytes with
      | some magic =>
        obtain rfl := Magic.bytes_of_ofBytes valid
        have known : Magic.isMagicValid magic.bytes = true := by simp [Magic.isMagicValid]
        have found : findMagic (ai.file.drop ai.pos) = some (0, magic) := by
          rw [(drop_of_readAt here).2]
          exact findMagic_of_ahead magic _
        simp only [found, readHeaderSeeking, magicTest, archreaderReadData, here, Option.map_some,
          known, not_true_eq_false, ne_eq, false_and, if_false, Nat.add_zero]
        rw [seekMagic, if_pos known]
        simp only [Magic.ofBytes_bytes]
        exact readHeaderAt_found mem ai ai.pos magic
      | none =>
        have invalid : Magic.isMagicValid bytes ≠ true := by simp [Magic.isMagicValid, valid]
        have refused : readHeaderSeeking mem ai false = .fatal := by
          simp [readHeaderSeeking, magicTest, archreaderReadData, here, invalid]
        rw [refused]
        cases found : findMagic (ai.file.drop ai.pos) with
        | none => rfl
        | some result =>
          obtain ⟨offset, magic⟩ := result
          simp only [found] at sought
          have later : offset ≠ 0 := by
            rintro rfl
            rw [Nat.add_zero, here, Option.some.injEq] at sought
            rw [sought.2, Magic.ofBytes_bytes] at valid
            cases valid
          simp only [later, ne_eq, not_false_eq_true, and_self, if_true]

/-! ## Nothing is skipped -/

/-- `archreader_read_header` with its search allowed gets past its magic test exactly when four
bytes inside the volume, from its position on, form a valid magic. It then reads on right behind
the first place of such bytes, and it fails where there is none. -/
theorem readHeader_skips_nothing (mem : Mem) (ai : ArchReader) :
    ((magicTest ai true).isSome = true ↔ (magicPlaces ai.file ai.pos).Nonempty) ∧
      (∀ place, IsLeast (magicPlaces ai.file ai.pos) place →
        ∃ magic : Magic, readAt ai.file place sizeofMagic = some magic.bytes ∧
          magicTest ai true = some (magic.bytes, { ai with pos := place + sizeofMagic }) ∧
          readHeaderSeeking mem ai true = readHeaderAt mem ai place magic) ∧
      (magicPlaces ai.file ai.pos = ∅ → readHeaderSeeking mem ai true = .fatal) := by
  refine ⟨?_, fun place least => readHeaderSeeking_of_isLeast mem least, ?_⟩
  · rw [Option.isSome_iff_ne_none, Set.nonempty_iff_ne_empty]
    exact not_congr magicTest_eq_none_iff
  · intro none
    simp only [readHeaderSeeking, magicTest_eq_none_iff.mpr none]

end FsArchiver
