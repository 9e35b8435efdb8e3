import FsArchiver.FsBtrfs
import FsArchiver.FsExt2
import FsArchiver.FsXfs
import FsArchiver.Lib.WordExpansion

/-!
# Labels on the way to `mkfs`

A label is put between single quotes into a command that `exec_command` expands like a shell. What
stands in front of it are plain words, so all other characters reach `mkfs` as they are; a single
quote ends the quoted text.
-/
namespace FsArchiver

open Lib Shell

/-! ## Commands -/

/-- `max_argv` in `exec_command`. -/
def maxArgv : Nat := 128

/-- The arguments that `exec_command` runs a program with, and the commands that are run for them.
Nothing is said if `wordexp` fails, and if there is no room for the NULL behind the arguments. -/
def execArgv (shell : Shell) (command : List UInt8) : Option Words :=
  match wordexp shell command with
  | none => none
  | some words => if words.words.length < maxArgv then some words else none

/-- A call of one of the three functions. -/
inductive MkfsCall where
  | extfs (sys : ExtSystem) (extfstype : ExtFsType)
  | xfs (sys : XfsSystem)
  | btrfs (sys : BtrfsSystem)

namespace MkfsCall

/-- How its command is put together. -/
def plan (call : MkfsCall) (mem : Mem) (d : Dico) (partition fsoptions mkfsuuid : List UInt8) :
    Option MkfsPlan :=
  match call with
  | extfs sys extfstype =>
    (extfsPlan mem sys d extfstype partition fsoptions mkfsuuid).map Mke2fs.plan
  | xfs sys => xfsPlan mem sys d partition fsoptions mkfsuuid
  | btrfs sys => btrfsPlan mem sys d partition fsoptions mkfsuuid

/-- Its command. -/
def mkfs (call : MkfsCall) (mem : Mem) (d : Dico)
    (partition fsoptions mkfslabel mkfsuuid : List UInt8) : Option (List UInt8) :=
  match call with
  | extfs sys extfstype => extfsMkfs mem sys d extfstype partition fsoptions mkfslabel mkfsuuid
  | xfs sys => xfsMkfsCommand mem sys d partition fsoptions mkfslabel mkfsuuid
  | btrfs sys => btrfsMkfs mem sys d partition fsoptions mkfslabel mkfsuuid

/-- How many words stand in front of the label: `mke2fs -q -F -b N`, `mkfs.xfs -f` or
`mkfs.btrfs -f`. -/
def front : MkfsCall → Nat
  | extfs _ _ => 5
  | xfs _ => 2
  | btrfs _ => 2

/-- A label cut to the limit of the filesystem. -/
def cutLabel : MkfsCall → List UInt8 → List UInt8
  | extfs _ _ => List.take 16
  | xfs _ => List.take 12
  | btrfs _ => id

end MkfsCall

/-- For every shell, the arguments for a command with a label are those for the command without it
and, behind the words in front, `-L` and the label as one word; the same commands are run. -/
def LabelReaches (front : Nat) (label fixed labelled : List UInt8) : Prop :=
  ∀ (shell : Shell) (words : Words), wordexp shell fixed = some words →
    words.words.length + 2 < maxArgv →
      execArgv shell labelled =
        some ⟨words.words.take front ++ [ascii "-L", label] ++ words.words.drop front,
          words.commands⟩

/-- The command of a call is that of its plan with the label to use. -/
theorem mkfs_of_plan {call : MkfsCall} {mem : Mem} {d : Dico}
    {partition fsoptions mkfslabel mkfsuuid : List UInt8} {plan : MkfsPlan}
    (planned : call.plan mem d partition fsoptions mkfsuuid = some plan) :
    call.mkfs mem d partition fsoptions mkfslabel mkfsuuid =
      some (plan.command (usedLabel d mkfslabel)) := by
  cases call with
  | extfs sys extfstype =>
    obtain ⟨run, reached, rfl⟩ := Option.map_eq_some_iff.mp planned
    show extfsMkfs mem sys d extfstype partition fsoptions mkfslabel mkfsuuid = _
    rw [extfsMkfs, reached]
    rfl
  | xfs sys =>
    have planned' : xfsPlan mem sys d partition fsoptions mkfsuuid = some plan := planned
    show xfsMkfsCommand mem sys d partition fsoptions mkfslabel mkfsuuid = _
    rw [xfsMkfsCommand, planned']
    rfl
  | btrfs sys =>
    have planned' : btrfsPlan mem sys d partition fsoptions mkfsuuid = some plan := planned
    show btrfsMkfs mem sys d partition fsoptions mkfslabel mkfsuuid = _
    rw [btrfsMkfs, planned']
    rfl

/-! ## What stands in front of the label -/

/-- Digits are plain. -/
theorem formatNat_plain (number : Nat) : PlainWord (formatNat number) := by
  refine ⟨?_, fun c member => ?_⟩
  · unfold formatNat
    rw [Ne, List.map_eq_nil_iff]
    exact Nat.toDigits_ne_nil
  obtain ⟨digit, among, rfl⟩ := List.mem_map.mp member
  have isDigit := Nat.isDigit_of_mem_toDigits (by decide) (by decide) among
  simp only [Char.isDigit, Bool.and_eq_true, decide_eq_true_eq] at isDigit
  have lower : 0x30 ≤ digit.toNat := UInt32.le_iff_toNat_le.mp isDigit.1
  have upper : digit.toNat ≤ 0x39 := UInt32.le_iff_toNat_le.mp isDigit.2
  have all : ∀ n < 0x3a, 0x30 ≤ n → PlainChar n.toUInt8 := by decide
  exact all digit.toNat (Nat.lt_succ_of_le upper) lower

/-- A number is a plain word. -/
theorem formatLong_plain (number : UInt64) : PlainWord (formatLong number) := by
  unfold formatLong formatInt
  split
  · refine ⟨List.cons_ne_nil _ _, fun c member => ?_⟩
    rcases List.mem_append.mp member with sign | digit
    · have minus : PlainWord (ascii "-") := by decide
      exact minus.2 c sign
    · exact (formatNat_plain _).2 c digit
  · exact formatNat_plain _

/-- A program and `-f`. -/
theorem reads_forced {program : Word} (plain : PlainWord program) :
    ReadsWords (program ++ [space] ++ (ascii "-f" ++ [space])) [program, ascii "-f"] := by
  have force : PlainWord (ascii "-f") := by decide
  exact (reads_plain plain).append (reads_plain force)

/-- The words in front of the label. -/
theorem reads_front {call : MkfsCall} {mem : Mem} {d : Dico}
    {partition fsoptions mkfsuuid : List UInt8} {plan : MkfsPlan}
    (planned : call.plan mem d partition fsoptions mkfsuuid = some plan) :
    plan.cut = call.cutLabel ∧ ∃ words, words.length = call.front ∧
      ReadsWords (plan.program ++ plan.before.flatten) words := by
  cases call with
  | extfs sys extfstype =>
    obtain ⟨run, reached, rfl⟩ := Option.map_eq_some_iff.mp planned
    obtain ⟨_, _, _, _, _, _, same⟩ := extfsPlan_run reached
    rw [same]
    have program : ReadsWords (ascii "mke2fs" ++ [space]) [ascii "mke2fs"] :=
      reads_plain (by decide)
    have quiet : ReadsWords ([space] ++ (ascii "-q" ++ [space])) [ascii "-q"] :=
      reads_flag (by decide)
    have force : ReadsWords ([space] ++ (ascii "-F" ++ [space])) [ascii "-F"] :=
      reads_flag (by decide)
    have block : ReadsWords ([space] ++ (ascii "-b" ++ [space])) [ascii "-b"] :=
      reads_flag (by decide)
    have size := reads_plain (formatLong_plain (blockSize mem d))
    have parts := program.append (quiet.append (force.append (block.append size)))
    refine ⟨rfl, [ascii "mke2fs", ascii "-q", ascii "-F", ascii "-b",
      formatLong (blockSize mem d)], rfl, ?_⟩
    show ReadsWords (ascii "mke2fs " ++ (ascii " -q " ++ (ascii " -F " ++
      (ascii " -b " ++ formatLong (blockSize mem d) ++ ascii " " ++ [])))) _
    rw [List.append_nil]
    exact parts
  | xfs sys =>
    obtain ⟨program, before, cut⟩ := xfsPlan_front planned
    have name : PlainWord (ascii "mkfs.xfs") := by decide
    rw [program, before, List.flatten_nil, List.append_nil]
    exact ⟨cut, [ascii "mkfs.xfs", ascii "-f"], rfl, reads_forced name⟩
  | btrfs sys =>
    obtain ⟨program, before, cut⟩ := btrfsPlan_front planned
    have name : PlainWord (ascii "mkfs.btrfs") := by decide
    rw [program, before, List.flatten_nil, List.append_nil]
    exact ⟨cut, [ascii "mkfs.btrfs", ascii "-f"], rfl, reads_forced name⟩

/-! ## The label -/

section Label

variable {plan : MkfsPlan} {words : List Word} {label : List UInt8}

/-- What stands behind the label. -/
def MkfsPlan.behind (plan : MkfsPlan) : List UInt8 :=
  plan.after.flatten ++ ascii " " ++ plan.partition

/-- The label is between what is in front of it and what is behind it. -/
theorem MkfsPlan.text_eq (plan : MkfsPlan) (label : List UInt8) :
    plan.text label = plan.program ++ plan.before.flatten ++ (plan.labelOption label).flatten ++
      plan.behind := by
  unfold MkfsPlan.text MkfsPlan.pieces MkfsPlan.behind
  rw [List.flatten_append, List.flatten_append]
  simp only [List.append_assoc]

/-- The command without a label. -/
theorem text_nil (plan : MkfsPlan) :
    plan.text [] = plan.program ++ plan.before.flatten ++ plan.behind := by
  rw [MkfsPlan.text_eq, MkfsPlan.labelOption, if_pos rfl, List.flatten_nil, List.append_nil]

/-- The command with a label, which is between single quotes. -/
theorem text_label (given : label ≠ []) :
    plan.text label = plan.program ++ plan.before.flatten ++ ([space] ++ (ascii "-L" ++ [space])) ++
      ([quote] ++ plan.cut label ++ [quote, space] ++ plan.behind) := by
  have opening : ascii " -L '" = [space] ++ (ascii "-L" ++ [space]) ++ [quote] := by decide
  have closing : ascii "' " = [quote, space] := by decide
  rw [MkfsPlan.text_eq, MkfsPlan.labelOption, if_neg given, List.flatten_singleton, opening, closing]
  simp only [List.append_assoc]

/-- Words in front of the label, with its option. -/
theorem reads_option (reads : ReadsWords (plan.program ++ plan.before.flatten) words) :
    ReadsWords (plan.program ++ plan.before.flatten ++ ([space] ++ (ascii "-L" ++ [space])))
      (words ++ [ascii "-L"]) :=
  reads.append (reads_flag (by decide))

/-- A label without a quote reaches the program. -/
theorem labelReaches_of_free (reads : ReadsWords (plan.program ++ plan.before.flatten) words)
    (given : label ≠ []) (free : quote ∉ plan.cut label) :
    LabelReaches words.length (plan.cut label) (plan.text []) (plan.text label) := by
  intro shell found done few
  rw [text_nil, reads.wordexp] at done
  obtain ⟨rest, expanded, rfl⟩ := Option.map_eq_some_iff.mp done
  have whole : wordexp shell (plan.text label) = some ⟨words ++ [ascii "-L", plan.cut label] ++
      rest.words, rest.commands⟩ := by
    rw [text_label given, (reads_option reads).wordexp, (reads_quoted free).wordexp, expanded]
    simp [Words.append]
  have length : (words ++ [ascii "-L", plan.cut label] ++ rest.words).length < maxArgv := by
    simp only [Words.append, List.length_append, List.length_cons, List.length_nil] at few ⊢
    omega
  unfold execArgv
  rw [whole]
  dsimp only
  rw [if_pos length]
  simp [Words.append]

/-- A label with a quote does not, if the options without it are a command for some shell. -/
theorem free_of_labelReaches (reads : ReadsWords (plan.program ++ plan.before.flatten) words)
    (given : label ≠ [])
    (runs : ∃ (shell : Shell) (found : Words), wordexp shell (plan.text []) = some found ∧
      found.words.length + 2 < maxArgv)
    (reaches : LabelReaches words.length (plan.cut label) (plan.text []) (plan.text label)) :
    quote ∉ plan.cut label := by
  intro has
  obtain ⟨shell, found, done, few⟩ := runs
  rw [text_nil, reads.wordexp] at done
  obtain ⟨rest, expanded, rfl⟩ := Option.map_eq_some_iff.mp done
  -- a shell for which every expansion in the label fails
  obtain ⟨fewer, expanded', short⟩ := lexFrom_failing (Nat.le_refl plan.behind.length) expanded
  have done' : wordexp (shell.failing plan.behind.length) (plan.text []) =
      some (Words.append ⟨words, []⟩ fewer) := by
    rw [text_nil, reads.wordexp, wordexp, expanded']
    rfl
  have few' : (Words.append ⟨words, []⟩ fewer).words.length + 2 < maxArgv := by
    simp only [Words.append, List.length_append] at few ⊢
    omega
  have argv := reaches _ _ done' few'
  unfold execArgv at argv
  rw [text_label given, (reads_option reads).wordexp] at argv
  cases quoted : wordexp (shell.failing plan.behind.length)
      ([quote] ++ plan.cut label ++ [quote, space] ++ plan.behind) with
  | none =>
    rw [quoted] at argv
    cases argv
  | some result =>
    have differs := head_ne_of_quote (shell.failing_literal _) has
      (fun _ _ longer => if_pos longer) quoted
    rw [quoted] at argv
    dsimp only [Option.map_some] at argv
    split at argv
    · have same := congrArg Words.words (Option.some.inj argv)
      simp only [Words.append, List.append_assoc, List.take_left', List.drop_left',
        List.cons_append, List.nil_append, List.append_cancel_left_eq, List.cons.injEq,
        true_and] at same
      rw [same] at differs
      exact differs rfl
    · cases argv

end Label

/-- For every label and whatever the other options are, the label reaches `mkfs` as one argument and
nothing else exactly if there is no single quote in what is left of it within its limit. -/
theorem label_reaches_mkfs_iff (call : MkfsCall) (mem : Mem) (d : Dico)
    (partition fsoptions mkfslabel mkfsuuid : List UInt8) (plan : MkfsPlan)
    (planned : call.plan mem d partition fsoptions mkfsuuid = some plan)
    (given : usedLabel d mkfslabel ≠ [])
    (fits : (plan.text (usedLabel d mkfslabel)).length < optionsSize)
    (runs : ∃ (shell : Shell) (words : Words), wordexp shell (plan.command []) = some words ∧
      words.words.length + 2 < maxArgv) :
    (∃ command, call.mkfs mem d partition fsoptions mkfslabel mkfsuuid = some command ∧
      LabelReaches call.front (call.cutLabel (usedLabel d mkfslabel)) (plan.command []) command) ↔
        quote ∉ call.cutLabel (usedLabel d mkfslabel) := by
  obtain ⟨cut, words, count, reads⟩ := reads_front planned
  have shorter : (plan.text []).length ≤ (plan.text (usedLabel d mkfslabel)).length := by
    rw [text_nil, text_label given]
    simp only [List.length_append]
    omega
  have fixed : plan.command [] = plan.text [] :=
    MkfsPlan.command_of_fits (Nat.lt_of_le_of_lt shorter fits)
  have labelled : call.mkfs mem d partition fsoptions mkfslabel mkfsuuid =
      some (plan.text (usedLabel d mkfslabel)) := by
    rw [mkfs_of_plan planned, MkfsPlan.command_of_fits fits]
  rw [← cut, ← count, fixed, labelled]
  rw [fixed] at runs
  constructor
  · rintro ⟨command, same, reaches⟩
    obtain rfl := Option.some.inj same
    exact free_of_labelReaches reads given runs reaches
  · intro free
    exact ⟨_, rfl, labelReaches_of_free reads given free⟩

/-- A shell that expands nothing. -/
def silentShell : Shell where
  expand _ _ := none
  paths pattern _ := [pattern]
  paths_ne := literal_ne

/-- `mkfs.xfs` 3.1.0, which is given no features. -/
def oldXfs : XfsSystem where
  installed := true
  x := 3
  y := 1
  z := 0
  rhel7 := false

/-- The command for an empty header and no other options. -/
def oldXfsPlan : MkfsPlan where
  program := ascii "mkfs.xfs -f "
  before := []
  cut := List.take 12
  after := [ascii "  "]
  partition := ascii "/dev/sda1"

/-- A label with a space. -/
theorem label_reaches_mkfs_space :
    ∃ command, (MkfsCall.xfs oldXfs).mkfs ⟨fun _ => 0, fun _ => 0⟩ Dico.alloc (ascii "/dev/sda1") []
        (ascii "my root") [] = some command ∧
      LabelReaches 2 (ascii "my root") (oldXfsPlan.command []) command :=
  (label_reaches_mkfs_iff (.xfs oldXfs) ⟨fun _ => 0, fun _ => 0⟩ Dico.alloc (ascii "/dev/sda1") []
    (ascii "my root") [] oldXfsPlan rfl (by decide) (by decide)
    ⟨silentShell, ⟨[ascii "mkfs.xfs", ascii "-f", ascii "/dev/sda1"], []⟩, by decide,
      by decide⟩).mpr (by decide)

/-- A label with a command between two quotes. -/
theorem label_breaks_out :
    ¬∃ command, (MkfsCall.xfs oldXfs).mkfs ⟨fun _ => 0, fun _ => 0⟩ Dico.alloc (ascii "/dev/sda1")
        [] (ascii "x'$(reboot)'") [] = some command ∧
      LabelReaches 2 (ascii "x'$(reboot)'") (oldXfsPlan.command []) command := by
  rintro ⟨command, same, reaches⟩
  have fixed : oldXfsPlan.command [] = oldXfsPlan.text [] := by decide
  have labelled : command = oldXfsPlan.text (ascii "x'$(reboot)'") :=
    (Option.some.inj same).symm.trans (MkfsPlan.command_of_fits (by decide))
  have name : PlainWord (ascii "mkfs.xfs") := by decide
  have front : ReadsWords (oldXfsPlan.program ++ oldXfsPlan.before.flatten)
      [ascii "mkfs.xfs", ascii "-f"] := reads_forced name
  rw [fixed, labelled] at reaches
  refine absurd (free_of_labelReaches front (by decide) ?_ reaches) (by decide)
  exact ⟨silentShell, ⟨[ascii "mkfs.xfs", ascii "-f", ascii "/dev/sda1"], []⟩, by decide, by decide⟩

end FsArchiver
