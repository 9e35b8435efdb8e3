import FsArchiver.Dico
import FsArchiver.Lib.Tokens

/-!
# Lines of `/proc/self/mountinfo`

`generic_get_mntinfo` cuts a line at blanks and colons alike and takes its columns from the tokens
with certain numbers. The colon is meant for the device number; what another field with a colon does
to the columns behind it is part of the model.
-/
namespace FsArchiver

open Lib

/-! ## Reading and cutting -/

/-- `stream_readline`: the number of bytes and the buffer, filled up with NUL, and the rest of the
stream. A byte that does not fit is lost. -/
def streamReadline (buflen : Nat) (f : List UInt8) (buf : List UInt8) :
    Nat × List UInt8 × List UInt8 :=
  let full := buf ++ List.replicate (buflen - buf.length) 0
  match f with
  | [] => (buf.length, full, [])
  | c :: f =>
    if c = 0x0a then (buf.length, full, f)
    else if buf.length < buflen then streamReadline buflen f (buf ++ [c])
    else (buf.length, full, f)

/-- `strtok_r`: the next token and where it goes on. -/
def strtokR (delims s : List UInt8) : Option (List UInt8 × List UInt8) :=
  let start := s.dropWhile delims.contains
  if start = [] then none
  else
    let free := fun c : UInt8 => !delims.contains c
    some (start.takeWhile free, (start.dropWhile free).tail)

/-- `atol` on digits; the largest `long` if there are too many. -/
def atol (text : List UInt8) : Nat :=
  min (2 ^ 63 - 1)
    ((text.takeWhile fun c => 0x30 ≤ c ∧ c ≤ 0x39).foldl (fun n c => 10 * n + (c.toNat - 0x30)) 0)

/-- `snprintf` with `%s` into a buffer of this size. -/
def snprintfS (size : Nat) (text : List UInt8) : List UInt8 := text.take (size - 1)

/-- `FSA_MAX_FSNAMELEN`. -/
def fsaMaxFsnamelen : Nat := 128

variable {delims s result rest : List UInt8}

/-- Behind the delimiters in front stands the token, and what follows it is cut off with the
delimiter that ends it. -/
theorem strtokR_eq_some (found : strtokR delims s = some (result, rest)) :
    (result ≠ [] ∧ ∀ c ∈ result, delims.contains c = false) ∧
      (s.dropWhile delims.contains = result ∧ rest = [] ∨
        ∃ d, delims.contains d = true ∧ s.dropWhile delims.contains = result ++ d :: rest) := by
  have equation : strtokR delims s = if s.dropWhile delims.contains = [] then none
    else some ((s.dropWhile delims.contains).takeWhile fun c => !delims.contains c,
      ((s.dropWhile delims.contains).dropWhile fun c => !delims.contains c).tail) := rfl
  rw [equation] at found
  have head := List.head?_dropWhile_not delims.contains s
  cases start : s.dropWhile delims.contains with
  | nil =>
    rw [start, if_pos rfl] at found
    cases found
  | cons first more =>
    rw [start] at head found
    rw [if_neg (List.cons_ne_nil first more)] at found
    injection found with pair
    injection pair with token tail
    have plain : delims.contains first = false := by simpa using head
    have whole := List.takeWhile_append_dropWhile (p := fun c => !delims.contains c)
      (l := first :: more)
    rw [token] at whole
    refine ⟨⟨?_, ?_⟩, ?_⟩
    · rw [← token, List.takeWhile_cons_of_pos (by rw [plain]; rfl)]
      exact List.cons_ne_nil _ _
    · intro c member
      rw [← token] at member
      have free := List.all_eq_true.mp (List.all_takeWhile (p := fun c => !delims.contains c)
        (l := first :: more)) c member
      simpa using free
    · cases after : (first :: more).dropWhile fun c => !delims.contains c with
      | nil =>
        left
        rw [after, List.append_nil] at whole
        rw [after] at tail
        exact ⟨whole.symm, tail.symm⟩
      | cons d others =>
        right
        have ends := List.head?_dropWhile_not (fun c => !delims.contains c) (first :: more)
        rw [after] at whole tail ends
        refine ⟨d, by simpa using ends, ?_⟩
        rw [← tail]
        exact whole.symm

/-- A token is at least one byte. -/
theorem strtokR_shorter (found : strtokR delims s = some (result, rest)) :
    rest.length < s.length := by
  have start := (List.dropWhile_suffix delims.contains (l := s)).length_le
  obtain ⟨⟨nonempty, -⟩, ⟨whole, done⟩ | ⟨d, -, whole⟩⟩ := strtokR_eq_some found
  · have positive := List.length_pos_iff.mpr nonempty
    rw [whole] at start
    rw [done, List.length_nil]
    omega
  · rw [whole, List.length_append, List.length_cons] at start
    omega

/-- `generic_get_fsrwstatus` from a call of `strtok_r` on. -/
def fsrwstatusFrom (s : List UInt8) : Bool :=
  match _found : strtokR [0x2c] s with
  | none => false
  | some (result, rest) => if result = [0x72, 0x77] then true else fsrwstatusFrom rest
termination_by s.length
decreasing_by exact strtokR_shorter _found

/-- `generic_get_fsrwstatus`. -/
def genericGetFsrwstatus (options : List UInt8) : Bool :=
  fsrwstatusFrom (snprintfS fsaMaxFsnamelen options)

/-- The columns of a line, and the token that is a separator. -/
structure MountColumns where
  major : Int
  minor : Int
  sep : Option Nat
  colFs : List UInt8
  colMnt : List UInt8
  colOpt : List UInt8
  deriving DecidableEq

/-- `major = -1; minor = -1; sep = -1` and empty buffers. -/
def MountColumns.init : MountColumns := ⟨-1, -1, none, [], [], []⟩

/-- The separator in front of the type of the filesystem. -/
def hyphen : List UInt8 := [0x2d]

/-- The body of the loop over the tokens of a line. -/
def MountColumns.token (col : MountColumns) (i : Nat) (result : List UInt8) : MountColumns :=
  let col := if result = hyphen then { col with sep := some i } else col
  let col :=
    match i with
    | 2 => { col with major := atol result }
    | 3 => { col with minor := atol result }
    | 5 => { col with colMnt := snprintfS 128 result }
    | _ => col
  let col := if col.sep.map (· + 1) = some i then
    { col with colFs := snprintfS fsaMaxFsnamelen result } else col
  if col.sep.map (· + 3) = some i then { col with colOpt := snprintfS 128 result } else col

/-- The loop from the token with this number on. -/
def mountColumnsFrom (col : MountColumns) (i : Nat) (s : List UInt8) : MountColumns :=
  match _found : strtokR [0x20, 0x09, 0x0a, 0x3a] s with
  | none => col
  | some (result, rest) => mountColumnsFrom (col.token i result) (i + 1) rest
termination_by s.length
decreasing_by exact strtokR_shorter _found

/-- What `generic_get_mntinfo` reads off the next line of `/proc/self/mountinfo`, unless the line is
empty; and the rest of the file. -/
def readMountColumns (f : List UInt8) : Option MountColumns × List UInt8 :=
  let (count, line, f) := streamReadline 1024 f []
  if count > 1 then (some (mountColumnsFrom .init 0 (cString line)), f) else (none, f)

/-! ## Tokens of a text -/

/-- Delimiters in front are skipped. -/
theorem tokens_dropWhile (delims s : List UInt8) :
    tokens delims.contains (s.dropWhile delims.contains) = tokens delims.contains s := by
  induction s with
  | nil => rfl
  | cons c s ih =>
    by_cases cuts : delims.contains c = true
    · rw [List.dropWhile_cons_of_pos cuts, ih, tokens_cons cuts]
    · rw [List.dropWhile_cons_of_neg cuts]

/-- No call is left. -/
theorem tokens_of_strtokR_none (done : strtokR delims s = none) :
    tokens delims.contains s = [] := by
  have empty : s.dropWhile delims.contains = [] := by
    by_contra nonempty
    rw [show strtokR delims s = some _ from if_neg nonempty] at done
    cases done
  rw [← tokens_dropWhile, empty, tokens_nil]

/-- One call takes the first token. -/
theorem tokens_of_strtokR_some (found : strtokR delims s = some (result, rest)) :
    tokens delims.contains s = result :: tokens delims.contains rest := by
  obtain ⟨⟨nonempty, free⟩, ⟨whole, done⟩ | ⟨d, cuts, whole⟩⟩ := strtokR_eq_some found
  · rw [← tokens_dropWhile, whole, done, tokens_nil, tokens_of_free free nonempty]
  · rw [← tokens_dropWhile, whole, tokens_append_cons _ _ cuts, tokens_of_free free nonempty]
    rfl

/-- The status is read/write if `rw` is among the options. -/
theorem fsrwstatusFrom_iff (s : List UInt8) :
    fsrwstatusFrom s = true ↔ [0x72, 0x77] ∈ tokens [0x2c].contains s := by
  fun_induction fsrwstatusFrom s with
  | case1 s done =>
    rw [tokens_of_strtokR_none done]
    simp
  | case2 s rest found =>
    rw [tokens_of_strtokR_some found]
    simp
  | case3 s result rest found other ih =>
    rw [tokens_of_strtokR_some found, List.mem_cons, ih]
    exact (or_iff_right (Ne.symm other)).symm

/-- The loop over tokens that are given. -/
def mountColumnsOf (col : MountColumns) (i : Nat) : List (List UInt8) → MountColumns
  | [] => col
  | result :: ts => mountColumnsOf (col.token i result) (i + 1) ts

theorem mountColumnsFrom_eq (col : MountColumns) (i : Nat) (s : List UInt8) :
    mountColumnsFrom col i s =
      mountColumnsOf col i (tokens [0x20, 0x09, 0x0a, 0x3a].contains s) := by
  fun_induction mountColumnsFrom col i s with
  | case1 col i s done => rw [tokens_of_strtokR_none done, mountColumnsOf]
  | case2 col i s result rest found ih => rw [tokens_of_strtokR_some found, mountColumnsOf, ih]

/-! ## Columns -/

/-- A column that is set by the token with one number. -/
theorem mountColumnsOf_at {β : Type} (column : MountColumns → β) (n : Nat) (read : List UInt8 → β)
    (step : ∀ col i t, column (MountColumns.token col i t) = if i = n then read t else column col)
    (ts : List (List UInt8)) (col : MountColumns) (i : Nat) (before : i ≤ n) :
    column (mountColumnsOf col i ts) = (ts[n - i]?.map read).getD (column col) := by
  have later : ∀ (ts : List (List UInt8)) (col : MountColumns) (i : Nat), n < i →
      column (mountColumnsOf col i ts) = column col := by
    intro ts
    induction ts with
    | nil => exact fun _ _ _ => rfl
    | cons t ts ih =>
      intro col i behind
      rw [mountColumnsOf, ih _ _ (by omega), step, if_neg (by omega)]
  induction ts generalizing col i with
  | nil => rfl
  | cons t ts ih =>
    rw [mountColumnsOf]
    by_cases here : i = n
    · rw [later ts _ _ (by omega), step, if_pos here, here, Nat.sub_self]
      rfl
    · rw [ih _ _ (by omega), step, if_neg here]
      rw [show n - i = n - (i + 1) + 1 by omega, List.getElem?_cons_succ]

/-- What a token does to each column. -/
theorem MountColumns.token_eq (col : MountColumns) (i : Nat) (t : List UInt8) :
    col.token i t =
      { major := if i = 2 then atol t else col.major
        minor := if i = 3 then atol t else col.minor
        sep := if t = hyphen then some i else col.sep
        colFs := if (if t = hyphen then some i else col.sep).map (· + 1) = some i then
          snprintfS fsaMaxFsnamelen t else col.colFs
        colMnt := if i = 5 then snprintfS 128 t else col.colMnt
        colOpt := if (if t = hyphen then some i else col.sep).map (· + 3) = some i then
          snprintfS 128 t else col.colOpt } := by
  unfold MountColumns.token
  rcases i with _ | _ | _ | _ | _ | _ | i <;>
    (simp
     split_ifs <;> rfl)

/-- The token that is due behind a separator that was found before. -/
def dueToken (n : Nat) (sep : Option Nat) (i : Nat) (ts : List (List UInt8)) :
    List (List UInt8) :=
  match sep with
  | none => []
  | some s => if i ≤ s + n then (nth hyphen (s + n + 1 - i) ts).toList else []

theorem dueToken_nil (n : Nat) (sep : Option Nat) (i : Nat) : dueToken n sep i [] = [] := by
  unfold dueToken
  cases sep with
  | none => rfl
  | some s => simp [nth]

/-- Behind another separator nothing is due for one before it. -/
theorem dueToken_mark {n i : Nat} {sep : Option Nat} (before : ∀ s, sep = some s → s < i)
    (ts : List (List UInt8)) : dueToken n sep i (hyphen :: ts) = [] := by
  unfold dueToken
  cases sep with
  | none => rfl
  | some s =>
    have less := before s rfl
    by_cases due : i ≤ s + n
    · simp only [if_pos due]
      rw [nth_cons_mark (by omega)]
      rfl
    · exact if_neg due

/-- Right behind a separator all is still due. -/
theorem dueToken_succ {n : Nat} (positive : 0 < n) (i : Nat) (ts : List (List UInt8)) :
    dueToken n (some i) (i + 1) ts = (nth hyphen n ts).toList := by
  unfold dueToken
  simp only [if_pos (show i + 1 ≤ i + n by omega)]
  rw [show i + n + 1 - (i + 1) = n by omega]

/-- A column that is set by the token so many places behind a separator. -/
theorem mountColumnsOf_behind (column : MountColumns → List UInt8) {n : Nat} (positive : 0 < n)
    (read : List UInt8 → List UInt8)
    (step : ∀ col i t, column (MountColumns.token col i t) =
      if (col.token i t).sep.map (· + n) = some i then read t else column col)
    (ts : List (List UInt8)) (col : MountColumns) (i : Nat)
    (before : ∀ s, col.sep = some s → s < i) :
    column (mountColumnsOf col i ts) =
      ((dueToken n col.sep i ts ++ behind hyphen n ts).getLast?.map read).getD (column col) := by
  induction ts generalizing col i with
  | nil =>
    rw [dueToken_nil]
    rfl
  | cons t ts ih =>
    have sep : (col.token i t).sep = if t = hyphen then some i else col.sep := by
      rw [MountColumns.token_eq]
    have onward := ih (col.token i t) (i + 1)
    rw [mountColumnsOf]
    by_cases mark : t = hyphen
    · -- a separator: its place is due, and what was due before is not
      rw [if_pos mark] at sep
      have later : i + n ≠ i := by omega
      have kept : column (col.token i t) = column col := by
        rw [step, sep]
        exact if_neg fun same => later (Option.some.inj same)
      have old : dueToken n col.sep i (t :: ts) = [] := by
        rw [mark]
        exact dueToken_mark before ts
      rw [onward (by rw [sep]; intro s same; cases same; omega), sep, dueToken_succ positive, kept,
        old, behind, if_pos mark]
      rfl
    · rw [if_neg mark] at sep
      have rest := onward (by rw [sep]; intro s same; have := before s same; omega)
      rw [rest, sep, behind, if_neg mark, List.nil_append, step, sep]
      unfold dueToken
      cases sep' : col.sep with
      | none => simp
      | some s =>
        have less := before s sep'
        rcases Nat.lt_trichotomy i (s + n) with due | here | past
        · have other : ¬s + n = i := by omega
          have soon : i + 1 ≤ s + n := by omega
          have still : i ≤ s + n := by omega
          obtain ⟨m, count⟩ : ∃ m, s + n + 1 - i = m + 2 := ⟨s + n + 1 - i - 2, by omega⟩
          have count' : s + n + 1 - (i + 1) = m + 1 := by omega
          simp only [Option.map_some, Option.some.injEq, if_neg other, if_pos soon, if_pos still,
            count, count', nth_succ_succ mark]
        · have now : i ≤ s + n := by omega
          have gone : ¬i + 1 ≤ s + n := by omega
          have count : s + n + 1 - i = 1 := by omega
          simp only [Option.map_some, Option.some.injEq, if_pos here.symm, if_neg gone, if_pos now,
            count, nth_one mark, List.nil_append, Option.toList_some, List.getLast?_append]
          cases (behind hyphen n ts).getLast? with
          | none => rfl
          | some last => rfl
        · have other : ¬s + n = i := by omega
          have gone : ¬i + 1 ≤ s + n := by omega
          have before : ¬i ≤ s + n := by omega
          simp only [Option.map_some, Option.some.injEq, if_neg other, if_neg gone, if_neg before]

/-- The columns of a line with these tokens. -/
theorem mountColumnsOf_init (ts : List (List UInt8)) :
    mountColumnsOf .init 0 ts =
      { major := (ts[2]?.map fun t => (atol t : Int)).getD (-1)
        minor := (ts[3]?.map fun t => (atol t : Int)).getD (-1)
        sep := (mountColumnsOf .init 0 ts).sep
        colFs := ((behind hyphen 1 ts).getLast?.map (snprintfS fsaMaxFsnamelen)).getD []
        colMnt := (ts[5]?.map (snprintfS 128)).getD []
        colOpt := ((behind hyphen 3 ts).getLast?.map (snprintfS 128)).getD [] } := by
  have unset : ∀ s, MountColumns.init.sep = some s → s < 0 := by
    intro s set
    cases set
  have major := mountColumnsOf_at MountColumns.major 2 (fun t => (atol t : Int))
    (fun col i t => by rw [MountColumns.token_eq]) ts .init 0 (by omega)
  have minor := mountColumnsOf_at MountColumns.minor 3 (fun t => (atol t : Int))
    (fun col i t => by rw [MountColumns.token_eq]) ts .init 0 (by omega)
  have mnt := mountColumnsOf_at MountColumns.colMnt 5 (snprintfS 128)
    (fun col i t => by rw [MountColumns.token_eq]) ts .init 0 (by omega)
  have fs := mountColumnsOf_behind (n := 1) MountColumns.colFs (by omega) (snprintfS fsaMaxFsnamelen)
    (fun col i t => by rw [MountColumns.token_eq]) ts .init 0 unset
  have opt := mountColumnsOf_behind (n := 3) MountColumns.colOpt (by omega) (snprintfS 128)
    (fun col i t => by rw [MountColumns.token_eq]) ts .init 0 unset
  cases whole : mountColumnsOf .init 0 ts with
  | mk major' minor' sep' fs' mnt' opt' =>
    rw [whole] at major minor mnt fs opt
    exact MountColumns.mk.injEq .. ▸ ⟨major, minor, rfl, fs, mnt, opt⟩

/-! ## Lines as documented -/

/-- The number that digits stand for. -/
def decimal (digits : List UInt8) : Nat := digits.foldl (fun n c => 10 * n + (c.toNat - 0x30)) 0

/-- A number in a line. -/
def Digits (text : List UInt8) : Prop := text ≠ [] ∧ ∀ c ∈ text, 0x30 ≤ c ∧ c ≤ 0x39

/-- A field has no blank, and no character that ends a line or a string. -/
def Unspaced (field : List UInt8) : Prop := 0x20 ∉ field ∧ 0x0a ∉ field ∧ 0 ∉ field

/-- The fields of a line with a blank between any two. -/
def mountLineText (id parent major minor root mountPoint mountOptions : List UInt8)
    (optional : List (List UInt8)) (fstype source superOptions : List UInt8) : List UInt8 :=
  [0x20].intercalate ([id, parent, major ++ 0x3a :: minor, root, mountPoint, mountOptions] ++
    optional ++ [hyphen, fstype, source, superOptions])

/-- A line of `/proc/self/mountinfo`. -/
structure MountLine where
  id : List UInt8
  parent : List UInt8
  major : List UInt8
  minor : List UInt8
  root : List UInt8
  mountPoint : List UInt8
  mountOptions : List UInt8
  optional : List (List UInt8)
  fstype : List UInt8
  source : List UInt8
  superOptions : List UInt8
  /-- Ids and device numbers are numbers. -/
  digits : ∀ number ∈ [id, parent, major, minor], Digits number
  /-- A device number fits a `long`. -/
  device_lt : decimal major < 2 ^ 63 ∧ decimal minor < 2 ^ 63
  /-- Fields are free of spaces. -/
  unspaced : ∀ field ∈ [root, mountPoint, mountOptions] ++ optional ++ [fstype, source, superOptions],
    Unspaced field
  /-- These are there. -/
  present : mountPoint ≠ [] ∧ fstype ≠ [] ∧ superOptions ≠ []
  /-- The optional fields end at the separator. -/
  separated : hyphen ∉ optional
  text_lt : (mountLineText id parent major minor root mountPoint mountOptions optional fstype source
    superOptions).length < 1024
  mountPoint_lt : mountPoint.length < 128
  superOptions_lt : superOptions.length < 128
  fstype_lt : fstype.length < 256

namespace MountLine

/-- The line without the end of line. -/
def text (line : MountLine) : List UInt8 :=
  mountLineText line.id line.parent line.major line.minor line.root line.mountPoint line.mountOptions
    line.optional line.fstype line.source line.superOptions

/-- The mount is recognised: the columns are those of the line, and the filesystem counts as mounted
read/write if one of its options is `rw`. -/
def Recognised (line : MountLine) : Prop :=
  ∀ rest, ∃ col, readMountColumns (line.text ++ 0x0a :: rest) = (some col, rest) ∧
    col.major = decimal line.major ∧ col.minor = decimal line.minor ∧
    col.colMnt = line.mountPoint ∧ col.colFs = line.fstype ∧ col.colOpt = line.superOptions ∧
    (genericGetFsrwstatus col.colOpt = true ↔ [0x72, 0x77] ∈ line.superOptions.splitOn 0x2c)

end MountLine

/-- The pieces of a field between tabs and colons. -/
def cutField (field : List UInt8) : List (List UInt8) := tokens [0x20, 0x09, 0x0a, 0x3a].contains field

/-- A field with neither tab nor colon. -/
def Plain (field : List UInt8) : Prop := 0x09 ∉ field ∧ 0x3a ∉ field

variable {line : MountLine}

/-- A line is read as it is. -/
theorem streamReadline_line {text rest : List UInt8} (buf : List UInt8) (ends : 0x0a ∉ text)
    (fits : (buf ++ text).length < 1024) :
    streamReadline 1024 (text ++ 0x0a :: rest) buf =
      ((buf ++ text).length, buf ++ text ++ List.replicate (1024 - (buf ++ text).length) 0, rest) := by
  induction text generalizing buf with
  | nil =>
    rw [List.nil_append, streamReadline, if_pos rfl, List.append_nil]
  | cons c text ih =>
    have plain : c ≠ 0x0a := fun same => ends (same ▸ List.mem_cons_self)
    have room : buf.length < 1024 := by
      rw [List.length_append] at fits
      omega
    rw [List.cons_append, streamReadline, if_neg plain, if_pos room]
    rw [ih (buf ++ [c]) (fun member => ends (List.mem_cons_of_mem c member))
      (by rw [List.append_assoc]; exact fits)]
    rw [List.append_assoc, List.singleton_append]

/-- A character of a field that is not plain, or a blank, is a delimiter. -/
theorem delims_of_plain {field : List UInt8} (unspaced : Unspaced field) (plain : Plain field) :
    ∀ c ∈ field, [0x20, 0x09, 0x0a, 0x3a].contains c = false := by
  intro c member
  have space : c ≠ 0x20 := fun same => unspaced.1 (same ▸ member)
  have line : c ≠ 0x0a := fun same => unspaced.2.1 (same ▸ member)
  have tab : c ≠ 0x09 := fun same => plain.1 (same ▸ member)
  have colon : c ≠ 0x3a := fun same => plain.2 (same ▸ member)
  simp [space, tab, line, colon]

theorem plain_of_delims {field : List UInt8}
    (free : ∀ c ∈ field, [0x20, 0x09, 0x0a, 0x3a].contains c = false) : Plain field :=
  ⟨fun member => absurd (free 0x09 member) (by decide),
    fun member => absurd (free 0x3a member) (by decide)⟩

/-- A plain field is one piece. -/
theorem cutField_of_plain {field : List UInt8} (unspaced : Unspaced field) (plain : Plain field)
    (nonempty : field ≠ []) : cutField field = [field] :=
  tokens_of_free (delims_of_plain unspaced plain) nonempty

/-- So is a number. -/
theorem cutField_digits {number : List UInt8} (digits : Digits number) :
    cutField number = [number] := by
  apply tokens_of_free _ digits.1
  intro c member
  have range := digits.2 c member
  rw [← Bool.not_eq_true, List.contains_iff_mem]
  intro delim
  simp only [List.mem_cons, List.not_mem_nil, or_false] at delim
  rcases delim with rfl | rfl | rfl | rfl
  · exact absurd range (by decide)
  · exact absurd range (by decide)
  · exact absurd range (by decide)
  · exact absurd range (by decide)

/-- The number of digits is read as it is. -/
theorem atol_digits {number : List UInt8} (digits : Digits number)
    (fits : decimal number < 2 ^ 63) : atol number = decimal number := by
  have all : (number.takeWhile fun c => 0x30 ≤ c ∧ c ≤ 0x39) = number := by
    apply List.takeWhile_eq_self_iff.mpr
    intro c member
    exact decide_eq_true (digits.2 c member)
  unfold atol
  rw [all]
  exact Nat.min_eq_right (Nat.le_of_lt_succ fits)

/-- The tokens of a line. -/
def MountLine.tokens (line : MountLine) : List (List UInt8) := cutField line.text

/-- They are the numbers and the pieces of the other fields. -/
theorem MountLine.tokens_eq (line : MountLine) :
    line.tokens = [line.id, line.parent, line.major, line.minor] ++ (cutField line.root ++
      (cutField line.mountPoint ++ (cutField line.mountOptions ++
        (line.optional.flatMap cutField ++ (hyphen :: (cutField line.fstype ++
          (cutField line.source ++ cutField line.superOptions))))))) := by
  have device : cutField (line.major ++ 0x3a :: line.minor) = [line.major, line.minor] := by
    have colon : ([0x20, 0x09, 0x0a, 0x3a] : List UInt8).contains 0x3a = true := by decide
    have cut := tokens_append_cons line.major line.minor colon
    have major := cutField_digits (line.digits line.major (by simp))
    have minor := cutField_digits (line.digits line.minor (by simp))
    unfold cutField at major minor ⊢
    rw [cut, major, minor]
    rfl
  have id := cutField_digits (line.digits line.id (by simp))
  have parent := cutField_digits (line.digits line.parent (by simp))
  have mark : cutField hyphen = [hyphen] := by decide
  have blank : ([0x20, 0x09, 0x0a, 0x3a] : List UInt8).contains 0x20 = true := by decide
  have whole := tokens_intercalate blank
    ([line.id, line.parent, line.major ++ 0x3a :: line.minor, line.root, line.mountPoint,
      line.mountOptions] ++ line.optional ++ [hyphen, line.fstype, line.source, line.superOptions])
  unfold MountLine.tokens MountLine.text mountLineText
  refine whole.trans ?_
  show List.flatMap cutField _ = _
  simp [device, id, parent, mark]

/-- A line is one line, and one string. -/
theorem MountLine.text_clean (line : MountLine) : 0x0a ∉ line.text ∧ 0 ∉ line.text := by
  have clean : ∀ c ∈ line.text, c ≠ 0x0a ∧ c ≠ 0 := by
    intro c member
    have number : ∀ digits ∈ [line.id, line.parent, line.major, line.minor], c ∈ digits →
        c ≠ 0x0a ∧ c ≠ 0 := by
      intro digits among own
      have range := (line.digits digits among).2 c own
      constructor <;> (rintro rfl; exact absurd range (by decide))
    have field : ∀ field ∈ [line.root, line.mountPoint, line.mountOptions] ++ line.optional ++
        [line.fstype, line.source, line.superOptions], c ∈ field → c ≠ 0x0a ∧ c ≠ 0 := by
      intro field among own
      have unspaced := line.unspaced field among
      exact ⟨fun same => unspaced.2.1 (same ▸ own), fun same => unspaced.2.2 (same ▸ own)⟩
    rcases mem_intercalate member with blank | ⟨text, among, own⟩
    · rw [List.mem_singleton.mp blank]
      decide
    · simp only [List.mem_append, List.mem_cons, List.not_mem_nil, or_false] at among
      rcases among with
        ((rfl | rfl | rfl | rfl | rfl | rfl) | optional) | rfl | rfl | rfl | rfl
      · exact number _ (by simp) own
      · exact number _ (by simp) own
      · rcases List.mem_append.mp own with major | minor
        · exact number line.major (by simp) major
        · rcases List.mem_cons.mp minor with colon | minor
          · rw [colon]
            decide
          · exact number line.minor (by simp) minor
      · exact field _ (by simp) own
      · exact field _ (by simp) own
      · exact field _ (by simp) own
      · exact field _ (by simp [optional]) own
      · rw [List.mem_singleton.mp own]
        decide
      · exact field _ (by simp) own
      · exact field _ (by simp) own
      · exact field _ (by simp) own
  exact ⟨fun member => (clean _ member).1 rfl, fun member => (clean _ member).2 rfl⟩

/-- A line is read into its columns. -/
theorem readMountColumns_line (line : MountLine) (rest : List UInt8) :
    readMountColumns (line.text ++ 0x0a :: rest) =
      (some (mountColumnsOf .init 0 line.tokens), rest) := by
  have short : line.text.length < 1024 := line.text_lt
  have read : streamReadline 1024 (line.text ++ 0x0a :: rest) [] = _ :=
    streamReadline_line [] line.text_clean.1 (by simpa using short)
  rw [List.nil_append] at read
  have several : line.text.length > 1 := by
    have id := List.length_pos_iff.mpr (line.digits line.id (by simp)).1
    unfold MountLine.text mountLineText
    rw [List.append_assoc, List.cons_append, List.cons_append, List.intercalate_cons_cons]
    simp only [List.length_append, List.length_singleton]
    omega
  have zeros : List.replicate (1024 - line.text.length) (0 : UInt8) =
      0 :: List.replicate (1024 - line.text.length - 1) 0 := by
    rw [← List.replicate_succ, show 1024 - line.text.length - 1 + 1 = 1024 - line.text.length by omega]
  have string : cString (line.text ++ List.replicate (1024 - line.text.length) 0) = line.text := by
    rw [zeros]
    exact cString_buffer line.text_clean.2 _
  unfold readMountColumns
  rw [read]
  simp only [if_pos several, string]
  rw [mountColumnsFrom_eq]
  rfl

/-! ## Which lines are recognised -/

/-- The mount point, the type and the options are one piece each, no piece is taken for the separator
behind it, and the pieces of the root and the source leave the places of the others alone. Where
these two are cut they shift the others, and a line is still right if the texts that slip into the
places are those of the line; so the condition is exact. -/
structure MountLine.Aligned (line : MountLine) : Prop where
  /-- The type fits `col_fs`. -/
  fstype_lt : line.fstype.length < fsaMaxFsnamelen
  /-- No colon in these. -/
  plain : Plain line.mountPoint ∧ Plain line.fstype ∧ Plain line.superOptions
  /-- Not taken for a separator. -/
  apart : line.fstype ≠ hyphen ∧ line.superOptions ≠ hyphen
  /-- The root is one piece, or what is in the place of the mount point has the same text. -/
  root : (∃ piece, cutField line.root = [piece]) ∨
    line.tokens[5]?.map (snprintfS 128) = some line.mountPoint
  /-- The source is one piece and no separator, or what is in the places of the type and the options
  has the same texts. -/
  source : (∃ piece, cutField line.source = [piece] ∧ piece ≠ hyphen) ∨
    (behind hyphen 1 line.tokens).getLast?.map (snprintfS fsaMaxFsnamelen) = some line.fstype ∧
      (behind hyphen 3 line.tokens).getLast?.map (snprintfS 128) = some line.superOptions

/-- Text that fits a buffer. -/
theorem snprintfS_of_lt {size : Nat} {text : List UInt8} (fits : text.length < size) :
    snprintfS size text = text :=
  List.take_of_length_le (by omega)

/-- A piece of a line is plain, also if it is cut. -/
theorem plain_of_token {size : Nat} {token : List UInt8} (member : token ∈ line.tokens) :
    Plain (snprintfS size token) := by
  apply plain_of_delims
  intro c among
  exact free_of_mem_tokens member c (List.mem_of_mem_take among)

/-- A column that is cut from what stands behind a separator. -/
theorem plain_of_behind {size n : Nat} (room : 2 < size) (positive : 0 < n) {column : List UInt8}
    (found : (behind hyphen n line.tokens).getLast?.map (snprintfS size) = some column) :
    Plain column ∧ column ≠ hyphen ∧ column.length < size := by
  obtain ⟨token, last, rfl⟩ := Option.map_eq_some_iff.mp found
  obtain ⟨member, other⟩ := mem_of_mem_behind positive (List.mem_of_getLast? last)
  refine ⟨plain_of_token member, ?_, ?_⟩
  · intro same
    have length : (snprintfS size token).length = 1 := by
      rw [same]
      rfl
    unfold snprintfS at same length
    rw [List.length_take] at length
    rw [List.take_of_length_le (by omega)] at same
    exact other same
  · unfold snprintfS
    rw [List.length_take]
    omega

/-- The status of options that fit the buffer. -/
theorem genericGetFsrwstatus_iff {options : List UInt8} (fits : options.length < 128) :
    genericGetFsrwstatus options = true ↔ [0x72, 0x77] ∈ options.splitOn 0x2c := by
  have delims : ([0x2c] : List UInt8).contains = fun c => c == 0x2c := by
    funext c
    exact Bool.or_false _
  show fsrwstatusFrom (snprintfS 128 options) = true ↔ _
  rw [snprintfS_of_lt fits, fsrwstatusFrom_iff, mem_tokens, List.splitOn_eq_splitOnP, delims]
  exact and_iff_left (List.cons_ne_nil _ _)

/-- The pieces behind the separator of a line whose type, source and options are one piece each. -/
theorem behind_tail (front : List (List UInt8)) {fstype source options : List UInt8}
    (type : fstype ≠ hyphen) (device : source ≠ hyphen) (opts : options ≠ hyphen) :
    (behind hyphen 1 (front ++ [hyphen, fstype, source, options])).getLast? = some fstype ∧
      (behind hyphen 3 (front ++ [hyphen, fstype, source, options])).getLast? = some options := by
  have one : behind hyphen 1 [hyphen, fstype, source, options] = [fstype] := by
    simp [behind, nth, type, device, opts, type.symm]
  have three : behind hyphen 3 [hyphen, fstype, source, options] = [options] := by
    simp [behind, nth, type, device, opts, type.symm, device.symm, opts.symm]
  obtain ⟨found, split⟩ : ∃ found, behind hyphen 1 (front ++ _) = found ++ _ :=
    behind_append 1 front [hyphen, fstype, source, options]
  obtain ⟨found', split'⟩ : ∃ found, behind hyphen 3 (front ++ _) = found ++ _ :=
    behind_append 3 front [hyphen, fstype, source, options]
  rw [split, split', one, three]
  exact ⟨List.getLast?_concat, List.getLast?_concat⟩

/-- A column is a text that is not empty exactly if it was set to it. -/
theorem getD_eq_iff {found : Option (List UInt8)} {text : List UInt8} (nonempty : text ≠ []) :
    found.getD [] = text ↔ found = some text := by
  cases found with
  | none => simpa using nonempty.symm
  | some other => simp

/-- What the columns of a line have to be. -/
theorem MountLine.recognised_iff_columns (line : MountLine) :
    line.Recognised ↔
      line.tokens[5]?.map (snprintfS 128) = some line.mountPoint ∧
        (behind hyphen 1 line.tokens).getLast?.map (snprintfS fsaMaxFsnamelen) = some line.fstype ∧
        (behind hyphen 3 line.tokens).getLast?.map (snprintfS 128) = some line.superOptions := by
  have major : line.tokens[2]? = some line.major := by
    rw [line.tokens_eq]
    rfl
  have minor : line.tokens[3]? = some line.minor := by
    rw [line.tokens_eq]
    rfl
  have majorNumber := atol_digits (line.digits line.major (by simp)) line.device_lt.1
  have minorNumber := atol_digits (line.digits line.minor (by simp)) line.device_lt.2
  have status := genericGetFsrwstatus_iff line.superOptions_lt
  have columns := mountColumnsOf_init line.tokens
  rw [major, minor, Option.map_some, Option.map_some, majorNumber, minorNumber] at columns
  rw [← getD_eq_iff line.present.1, ← getD_eq_iff line.present.2.1, ← getD_eq_iff line.present.2.2]
  constructor
  · intro recognised
    obtain ⟨col, read, -, -, mnt, fs, opt, -⟩ := recognised []
    rw [readMountColumns_line, Prod.mk.injEq, Option.some.injEq] at read
    rw [← read.1, columns] at mnt fs opt
    exact ⟨mnt, fs, opt⟩
  · rintro ⟨mnt, fs, opt⟩ rest
    rw [mnt, fs, opt] at columns
    refine ⟨_, readMountColumns_line line rest, ?_⟩
    rw [columns]
    exact ⟨rfl, rfl, rfl, rfl, rfl, status⟩

/-- A mount is recognised exactly if its line is aligned. -/
theorem mount_recognised_iff (line : MountLine) : line.Recognised ↔ line.Aligned := by
  rw [line.recognised_iff_columns]
  constructor
  · rintro ⟨mnt, fs, opt⟩
    obtain ⟨token, last, cut⟩ := Option.map_eq_some_iff.mp mnt
    have plainMnt : Plain line.mountPoint := cut ▸ plain_of_token (List.mem_of_getElem? last)
    obtain ⟨plainFs, apartFs, fits⟩ := plain_of_behind (by decide) (by decide) fs
    obtain ⟨plainOpt, apartOpt, -⟩ := plain_of_behind (by decide) (by decide) opt
    exact ⟨fits, ⟨plainMnt, plainFs, plainOpt⟩, ⟨apartFs, apartOpt⟩, .inr mnt, .inr ⟨fs, opt⟩⟩
  · intro aligned
    have unspaced : ∀ field ∈ [line.mountPoint, line.fstype, line.superOptions], Unspaced field := by
      intro field member
      apply line.unspaced field
      simp only [List.mem_append, List.mem_cons, List.not_mem_nil, or_false] at member ⊢
      tauto
    have mountPoint := cutField_of_plain (unspaced _ (by simp)) aligned.plain.1 line.present.1
    have fstype := cutField_of_plain (unspaced _ (by simp)) aligned.plain.2.1 line.present.2.1
    have superOptions := cutField_of_plain (unspaced _ (by simp)) aligned.plain.2.2
      line.present.2.2
    have tokens := line.tokens_eq
    rw [mountPoint, fstype, superOptions] at tokens
    constructor
    · rcases aligned.root with ⟨piece, root⟩ | same
      · rw [tokens, root]
        exact congrArg some (snprintfS_of_lt line.mountPoint_lt)
      · exact same
    · rcases aligned.source with ⟨piece, source, other⟩ | same
      · have tail := behind_tail ([line.id, line.parent, line.major, line.minor] ++
          (cutField line.root ++ ([line.mountPoint] ++ (cutField line.mountOptions ++
            line.optional.flatMap cutField)))) aligned.apart.1 other aligned.apart.2
        have split : line.tokens = ([line.id, line.parent, line.major, line.minor] ++
            (cutField line.root ++ ([line.mountPoint] ++ (cutField line.mountOptions ++
              line.optional.flatMap cutField)))) ++
            [hyphen, line.fstype, piece, line.superOptions] := by
          rw [tokens, source]
          simp
        rw [split, tail.1, tail.2]
        exact ⟨congrArg some (snprintfS_of_lt aligned.fstype_lt),
          congrArg some (snprintfS_of_lt line.superOptions_lt)⟩
      · exact same

/-- The line `2 1 8:1 / /d rw shared:1 - ext4 /a:1 rw`. -/
def colonLine : MountLine where
  id := [0x32]
  parent := [0x31]
  major := [0x38]
  minor := [0x31]
  root := [0x2f]
  mountPoint := [0x2f, 0x64]
  mountOptions := [0x72, 0x77]
  optional := [[0x73, 0x68, 0x61, 0x72, 0x65, 0x64, 0x3a, 0x31]]
  fstype := [0x65, 0x78, 0x74, 0x34]
  source := [0x2f, 0x61, 0x3a, 0x31]
  superOptions := [0x72, 0x77]
  digits := by simp [Digits]
  device_lt := by decide
  unspaced := by unfold Unspaced; decide
  present := by decide
  separated := by decide
  text_lt := by decide
  mountPoint_lt := by decide
  superOptions_lt := by decide
  fstype_lt := by decide

/-- The second piece of the source is taken for the options, and the filesystem counts as mounted
read-only. -/
theorem mount_misread_colon :
    ¬colonLine.Recognised ∧
      genericGetFsrwstatus (mountColumnsOf .init 0 colonLine.tokens).colOpt = false := by
  have columns : (mountColumnsOf .init 0 colonLine.tokens).colOpt = [0x31] := by decide
  constructor
  · intro recognised
    have options := (colonLine.recognised_iff_columns.mp recognised).2.2
    exact absurd options (by decide)
  · rw [columns, Bool.eq_false_iff, ne_eq, genericGetFsrwstatus_iff (by decide)]
    decide

end FsArchiver
