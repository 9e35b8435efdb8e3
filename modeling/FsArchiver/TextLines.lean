import FsArchiver.MountInfo

/-!
# Text files line by line

`stream_readline` as its callers use it, until the end-of-file indicator of the stream is set. One
condition tests for a newline, the end of the file and a full buffer, and it has read a character
before it does: a line that fills the buffer leaves no NUL in it, and a longer one loses the
character that does not fit.
-/
namespace FsArchiver

open Lib

/-! ## Calls of `stream_readline` -/

/-- What `fgetc` and `feof` see of a stream. -/
structure TextStream where
  /-- The characters that have not been read. -/
  ahead : List UInt8
  /-- The end-of-file indicator. -/
  eof : Bool

/-- What a call of `stream_readline` leaves behind. -/
structure LinePiece where
  /-- The contents of the buffer. -/
  buffer : List UInt8
  /-- The value returned. -/
  count : Nat
  /-- A newline was read. -/
  newline : Bool

/-- The buffer after these characters were put into it. -/
def LinePiece.of (buflen : Nat) (buf : List UInt8) (newline : Bool) : LinePiece where
  buffer := buf ++ List.replicate (buflen - buf.length) 0
  count := buf.length
  newline := newline

/-- The loop of `stream_readline`, while the indicator is not set. -/
def readlineLoop (buflen : Nat) : List UInt8 → List UInt8 → LinePiece × TextStream
  | [], buf => (.of buflen buf false, ⟨[], true⟩)
  | c :: rest, buf =>
    if c = 0x0a then (.of buflen buf true, ⟨rest, false⟩)
    else if buf.length < buflen then readlineLoop buflen rest (buf ++ [c])
    else (.of buflen buf false, ⟨rest, false⟩)

/-- `stream_readline` with the indicator of the stream. -/
def readPiece (f : TextStream) (buflen : Nat) : LinePiece × TextStream :=
  if f.eof then (.of buflen [] false, f) else readlineLoop buflen f.ahead []

/-- What is left to be read, the end of the file included. -/
def TextStream.remaining (f : TextStream) : Nat := f.ahead.length + if f.eof then 0 else 1

/-- The loop reads at least one character or the end of the file. -/
theorem readlineLoop_remaining (buflen : Nat) (ahead buf : List UInt8) :
    (readlineLoop buflen ahead buf).2.remaining ≤ ahead.length := by
  induction ahead generalizing buf with
  | nil => simp [readlineLoop, TextStream.remaining]
  | cons c rest ih =>
    rw [readlineLoop]
    split
    · simp [TextStream.remaining]
    · split
      · exact Nat.le_succ_of_le (ih _)
      · simp [TextStream.remaining]

/-- The calls of `stream_readline` until `feof`. -/
def readLines (buflen : Nat) (f : TextStream) : List LinePiece :=
  if f.eof then []
  else
    let read := readPiece f buflen
    read.1 :: readLines buflen read.2
termination_by f.remaining
decreasing_by
  next open' =>
    have less := readlineLoop_remaining buflen f.ahead []
    simp only [readPiece, open']
    simp only [TextStream.remaining, open', Bool.false_eq_true, if_false] at less ⊢
    omega

/-- The text of the pieces, with a newline behind each one at which a newline was read. -/
def textOf (pieces : List LinePiece) : List UInt8 :=
  (pieces.map fun piece => cString piece.buffer ++ if piece.newline then [0x0a] else []).flatten

/-- The loop is the one that `generic_get_mntinfo` reads its lines with. -/
theorem readlineLoop_eq_streamReadline (buflen : Nat) (ahead buf : List UInt8) :
    streamReadline buflen ahead buf =
      ((readlineLoop buflen ahead buf).1.count, (readlineLoop buflen ahead buf).1.buffer,
        (readlineLoop buflen ahead buf).2.ahead) := by
  induction ahead generalizing buf with
  | nil => rfl
  | cons c rest ih =>
    rw [streamReadline, readlineLoop]
    split
    · rfl
    · split
      · exact ih _
      · rfl

/-! ## What a call reads -/

section Calls

variable {buflen : Nat} {line rest buf content : List UInt8}

/-- A line that the buffer holds is read up to its newline. -/
theorem readlineLoop_line (plain : 0x0a ∉ line) (room : buf.length + line.length ≤ buflen) :
    readlineLoop buflen (line ++ 0x0a :: rest) buf =
      (.of buflen (buf ++ line) true, ⟨rest, false⟩) := by
  induction line generalizing buf with
  | nil => rw [List.nil_append, readlineLoop, if_pos rfl, List.append_nil]
  | cons c line ih =>
    have other : c ≠ 0x0a := fun same => plain (same ▸ List.mem_cons_self)
    rw [List.length_cons] at room
    rw [List.cons_append, readlineLoop, if_neg other, if_pos (by omega),
      ih (fun member => plain (List.mem_cons_of_mem c member)) (by simp; omega),
      List.append_assoc, List.singleton_append]

/-- A last line that the buffer holds is read up to the end of the file. -/
theorem readlineLoop_last (plain : 0x0a ∉ line) (room : buf.length + line.length ≤ buflen) :
    readlineLoop buflen line buf = (.of buflen (buf ++ line) false, ⟨[], true⟩) := by
  induction line generalizing buf with
  | nil => rw [readlineLoop, List.append_nil]
  | cons c line ih =>
    have other : c ≠ 0x0a := fun same => plain (same ▸ List.mem_cons_self)
    rw [List.length_cons] at room
    rw [readlineLoop, if_neg other, if_pos (by omega),
      ih (fun member => plain (List.mem_cons_of_mem c member)) (by simp; omega),
      List.append_assoc, List.singleton_append]

/-- A longer line fills the buffer. -/
theorem readlineLoop_full (plain : 0x0a ∉ line) (under : buf.length ≤ buflen)
    (longer : buflen < buf.length + line.length) :
    (readlineLoop buflen (line ++ rest) buf).1.buffer =
      buf ++ line.take (buflen - buf.length) := by
  induction line generalizing buf with
  | nil =>
    rw [List.length_nil] at longer
    omega
  | cons c line ih =>
    have other : c ≠ 0x0a := fun same => plain (same ▸ List.mem_cons_self)
    rw [List.length_cons] at longer
    rw [List.cons_append, readlineLoop, if_neg other]
    split
    · rw [ih (fun member => plain (List.mem_cons_of_mem c member)) (by simp; omega)
        (by simp; omega), show buflen - buf.length = buflen - (buf ++ [c]).length + 1 by simp; omega,
        List.take_succ_cons, List.append_assoc, List.singleton_append]
    · rw [show buflen - buf.length = 0 by omega]
      simp [LinePiece.of, show buflen - buf.length = 0 by omega]

/-- Without a NUL among the characters there is one in the buffer exactly if it is not full. -/
theorem nul_mem_of (noNul : 0 ∉ buf) (newline : Bool) :
    0 ∈ (LinePiece.of buflen buf newline).buffer ↔ buf.length < buflen := by
  simp only [LinePiece.of, List.mem_append, noNul, List.mem_replicate, false_or, and_true]
  omega

/-- The string in the buffer is the characters that were read. -/
theorem cString_of (noNul : 0 ∉ buf) (newline : Bool) :
    cString (LinePiece.of buflen buf newline).buffer = buf := by
  have kept : ∀ c ∈ buf, decide (c ≠ 0) = true := fun c member => by
    simpa using fun same : c = 0 => noNul (same ▸ member)
  rw [cString, LinePiece.of, List.takeWhile_append_of_pos kept]
  cases buflen - buf.length with
  | zero => rw [List.replicate_zero, List.takeWhile_nil, List.append_nil]
  | succ more => simp [List.replicate_succ]

/-- A file is one line, or a line and what follows its newline. -/
theorem line_cases (content : List UInt8) :
    0x0a ∉ content ∨ ∃ line rest, 0x0a ∉ line ∧ content = line ++ 0x0a :: rest := by
  by_cases member : (0x0a : UInt8) ∈ content
  · obtain ⟨line, rest, split, plain⟩ := List.eq_append_cons_of_mem member
    exact .inr ⟨line, rest, plain, split⟩
  · exact .inl member

/-- The lines of a file with a newline. -/
theorem splitOn_line (plain : 0x0a ∉ line) :
    (line ++ 0x0a :: rest).splitOn 0x0a = line :: rest.splitOn 0x0a := by
  apply List.splitOnP_append_cons_of_forall_mem
  · intro c member
    simpa using fun same : c = 0x0a => plain (same ▸ member)
  · rfl

/-- A file without a newline is one line. -/
theorem splitOn_last (plain : 0x0a ∉ line) : line.splitOn 0x0a = [line] := by
  apply List.splitOnP_eq_singleton
  intro c member
  simpa using fun same : c = 0x0a => plain (same ▸ member)

/-! ## The calls until the end of the file -/

/-- There is no call behind the end of the file. -/
theorem readLines_eof (ahead : List UInt8) : readLines buflen ⟨ahead, true⟩ = [] := by
  rw [readLines]
  rfl

/-- The first call and the others. -/
theorem readLines_open (content : List UInt8) :
    readLines buflen ⟨content, false⟩ =
      (readlineLoop buflen content []).1 :: readLines buflen (readlineLoop buflen content []).2 := by
  rw [readLines]
  rfl

/-- A line that is not shorter than the buffer leaves no NUL in it. -/
theorem short_of_nul (noNul : 0 ∉ line) (plain : 0x0a ∉ line)
    (ends : rest = [] ∨ ∃ more, rest = 0x0a :: more)
    (nul : 0 ∈ (readlineLoop buflen (line ++ rest) []).1.buffer) : line.length < buflen := by
  by_cases fits : line.length ≤ buflen
  · rcases ends with rfl | ⟨more, rfl⟩
    · rw [List.append_nil, readlineLoop_last plain (by simpa using fits)] at nul
      exact (nul_mem_of noNul false).mp nul
    · rw [readlineLoop_line plain (by simpa using fits)] at nul
      exact (nul_mem_of noNul true).mp nul
  · rw [readlineLoop_full plain (Nat.zero_le _) (by simp; omega)] at nul
    exact absurd (List.mem_of_mem_take nul) noNul

/-- Where every call leaves a NUL in the buffer, every line is shorter than the buffer. -/
theorem short_of_safe (content : List UInt8) (noNul : 0 ∉ content)
    (safe : ∀ piece ∈ readLines buflen ⟨content, false⟩, 0 ∈ piece.buffer) :
    ∀ line ∈ content.splitOn 0x0a, line.length < buflen := by
  rw [readLines_open] at safe
  have first := safe _ List.mem_cons_self
  rcases line_cases content with plain | ⟨line, rest, plain, rfl⟩
  · rw [splitOn_last plain]
    intro line member
    rw [List.mem_singleton.mp member]
    exact short_of_nul noNul plain (.inl rfl) (by rwa [List.append_nil])
  · have noNul' : 0 ∉ line := fun member => noNul (List.mem_append_left _ member)
    have short : line.length < buflen := short_of_nul noNul' plain (.inr ⟨rest, rfl⟩) first
    rw [readlineLoop_line plain (by simpa using Nat.le_of_lt short)] at safe
    have others := short_of_safe rest
      (fun member => noNul (List.mem_append_right _ (List.mem_cons_of_mem _ member)))
      fun piece member => safe piece (List.mem_cons_of_mem _ member)
    rw [splitOn_line plain]
    intro other member
    rcases List.mem_cons.mp member with rfl | member
    · exact short
    · exact others other member
termination_by content.length

/-- Where every line is shorter than the buffer, every call leaves a NUL in it and no character is
lost. -/
theorem safe_of_short (content : List UInt8) (noNul : 0 ∉ content)
    (short : ∀ line ∈ content.splitOn 0x0a, line.length < buflen) :
    (∀ piece ∈ readLines buflen ⟨content, false⟩, 0 ∈ piece.buffer) ∧
      textOf (readLines buflen ⟨content, false⟩) = content := by
  rw [readLines_open]
  rcases line_cases content with plain | ⟨line, rest, plain, rfl⟩
  · rw [splitOn_last plain] at short
    have less := short _ List.mem_cons_self
    rw [readlineLoop_last plain (by simpa using Nat.le_of_lt less), readLines_eof, List.nil_append]
    constructor
    · intro piece member
      rw [List.mem_singleton.mp member]
      exact (nul_mem_of noNul false).mpr less
    · simp only [textOf, List.map_cons, List.map_nil, List.flatten_cons, List.flatten_nil,
        List.append_nil]
      rw [cString_of noNul, LinePiece.of]
      simp
  · rw [splitOn_line plain] at short
    have noNul' : 0 ∉ line := fun member => noNul (List.mem_append_left _ member)
    have less := short _ List.mem_cons_self
    obtain ⟨safe, lossless⟩ := safe_of_short rest
      (fun member => noNul (List.mem_append_right _ (List.mem_cons_of_mem _ member)))
      fun other member => short other (List.mem_cons_of_mem _ member)
    rw [readlineLoop_line plain (by simpa using Nat.le_of_lt less), List.nil_append]
    constructor
    · intro piece member
      rcases List.mem_cons.mp member with rfl | member
      · exact (nul_mem_of noNul' true).mpr less
      · exact safe piece member
    · simp only [textOf, List.map_cons, List.flatten_cons] at lossless ⊢
      rw [cString_of noNul', lossless, LinePiece.of]
      simp
termination_by content.length

end Calls

/-- `stream_readline` until `feof` leaves a NUL in the buffer after every call and loses and
repeats no character exactly if every line of the file is shorter than the buffer. -/
theorem readLines_lossless_iff (buflen : Nat) (content : List UInt8) (noNul : 0 ∉ content) :
    ((∀ piece ∈ readLines buflen ⟨content, false⟩, 0 ∈ piece.buffer) ∧
        textOf (readLines buflen ⟨content, false⟩) = content) ↔
      ∀ line ∈ content.splitOn 0x0a, line.length < buflen :=
  ⟨fun kept => short_of_safe content noNul kept.1, safe_of_short content noNul⟩

/-- Two lines of one character in a buffer of two bytes are kept. -/
theorem readLines_lossless_two :
    (∀ piece ∈ readLines 2 ⟨[0x61, 0x0a, 0x62], false⟩, 0 ∈ piece.buffer) ∧
      textOf (readLines 2 ⟨[0x61, 0x0a, 0x62], false⟩) = [0x61, 0x0a, 0x62] :=
  (readLines_lossless_iff 2 [0x61, 0x0a, 0x62] (by decide)).mpr (by decide)

/-- A line of three characters leaves no NUL in a buffer of two bytes. -/
theorem readLines_three_unsafe :
    ¬((∀ piece ∈ readLines 2 ⟨[0x61, 0x62, 0x63, 0x0a], false⟩, 0 ∈ piece.buffer) ∧
      textOf (readLines 2 ⟨[0x61, 0x62, 0x63, 0x0a], false⟩) = [0x61, 0x62, 0x63, 0x0a]) := by
  intro kept
  have first := kept.1 _ (by rw [readLines_open]; exact List.mem_cons_self)
  revert first
  decide

end FsArchiver
