import Mathlib.Data.List.Basic

/-!
# Expansion of words

A command is split into words as by a shell: quotes and backslashes are removed, parameters and
commands are replaced by what the shell gives for them, and patterns by the paths they match. A text
in single quotes is one word whatever the shell gives. A quote in such a text ends it, and then the
word can no longer be the text itself.
-/
namespace FsArchiver.Lib

/-- What a word is made of. -/
abbrev Word := List UInt8

namespace Shell

/-- `"'"`. -/
def quote : UInt8 := 0x27
/-- `"`. -/
def doubleQuote : UInt8 := 0x22
/-- `\`. -/
def backslash : UInt8 := 0x5c
/-- A newline. -/
def newline : UInt8 := 0x0a
/-- A space. -/
def space : UInt8 := 0x20
/-- The first characters of expansions: `$` and the backquote. -/
def signs : List UInt8 := [0x24, 0x60]
/-- `~`. -/
def tilde : UInt8 := 0x7e
/-- Spaces and tabs. -/
def blanks : List UInt8 := [0x20, 0x09]
/-- Characters that must be quoted: a newline and `|&;<>(){}`. -/
def forbidden : List UInt8 := [0x0a, 0x7c, 0x26, 0x3b, 0x3c, 0x3e, 0x28, 0x29, 0x7b, 0x7d]
/-- Characters of patterns: `*?[`. -/
def globs : List UInt8 := [0x2a, 0x3f, 0x5b]
/-- Characters that a backslash in double quotes quotes. -/
def escapable : List UInt8 := [0x24, 0x60, 0x22, 0x5c, 0x0a]
/-- Characters that quote, and the newline, which a backslash removes. -/
def quoting : List UInt8 := [0x27, 0x22, 0x5c, 0x0a]

end Shell

open Shell

/-- What an expansion gives. -/
structure Expanded where
  /-- The fields of its value, with patterns in it expanded: the first one continues a word, the
  last one is continued. -/
  fields : List Word
  /-- How many characters belong to it behind its sign. -/
  length : Nat
  /-- The commands that are run for it. -/
  commands : List Word

/-- What a shell gives for the expansions in a text. An answer belongs to a place in the text, since
an earlier expansion may change what a later one gives. -/
structure Shell where
  /-- An expansion inside or outside of double quotes, with the text from its sign on; it may fail. -/
  expand : Bool → List UInt8 → Option Expanded
  /-- The paths that match a pattern, with the text behind it; the pattern itself if there is none. -/
  paths : Word → List UInt8 → List Word
  /-- There is always a path. -/
  paths_ne : ∀ pattern rest, paths pattern rest ≠ []

/-- Where quotes have led to. -/
inductive Quoting where
  | unquoted | escaped | single | double | doubleEscaped
  deriving DecidableEq

/-- What is known of the word at hand. -/
structure LexState where
  /-- Quotes around the next character. -/
  quoting : Quoting
  /-- The characters of the word; there is none between words. -/
  word : Option Word
  /-- It has an unquoted character of a pattern. -/
  pattern : Bool
  /-- How many characters still belong to an expansion. -/
  skip : Nat

/-- The words of a text, and the commands that are run for them. -/
structure Words where
  /-- The words. -/
  words : List Word
  /-- The commands. -/
  commands : List Word
  deriving DecidableEq

namespace Words

/-- Nothing. -/
def nothing : Words := ⟨[], []⟩

/-- A word without a command. -/
def one (word : Word) : Words := ⟨[word], []⟩

/-- One after the other. -/
def append (left right : Words) : Words :=
  ⟨left.words ++ right.words, left.commands ++ right.commands⟩

@[simp] theorem nothing_append (right : Words) : nothing.append right = right := rfl

@[simp] theorem append_nothing (left : Words) : left.append nothing = left := by
  unfold append nothing
  rw [List.append_nil, List.append_nil]

theorem append_assoc (left middle right : Words) :
    (left.append middle).append right = left.append (middle.append right) := by
  unfold append
  rw [List.append_assoc, List.append_assoc]

@[simp] theorem words_append (left right : Words) :
    (left.append right).words = left.words ++ right.words := rfl

end Words

namespace LexState

/-- Between two words. -/
def start : LexState := ⟨.unquoted, .none, false, 0⟩

/-- In a word without quotes and patterns. -/
def inside (quoting : Quoting) (word : Word) (pattern : Bool) : LexState :=
  ⟨quoting, some word, pattern, 0⟩

/-- The word goes on. -/
def add (state : LexState) (text : Word) (quoting : Quoting) : LexState :=
  { state with quoting := quoting, word := some (state.word.getD [] ++ text) }

end LexState

section Lexing

variable (shell : Shell)

/-- The word at hand ends. -/
def finishWord (state : LexState) (rest : List UInt8) : Words :=
  match state.word with
  | none => .nothing
  | some word => if state.pattern then ⟨shell.paths word rest, []⟩ else .one word

/-- The fields of an unquoted expansion are put in; an empty one makes no word. -/
def putFields (state : LexState) (rest : List UInt8) : List Word → Words × LexState
  | [] => (.nothing, state)
  | [field] => (.nothing, if field = [] then state else state.add field .unquoted)
  | field :: fields =>
    let first := if field = [] then state else state.add field .unquoted
    let last := fields.getLastD []
    ((finishWord shell first rest).append ⟨fields.dropLast, []⟩,
      { state with word := if last = [] then none else some last, pattern := false })

/-- An expansion. -/
def putExpansion (state : LexState) (quoted : Bool) (text : List UInt8) :
    Option (Words × LexState) :=
  match shell.expand quoted text with
  | none => none
  | some expanded =>
    let rest := text.drop (1 + expanded.length)
    let (words, next) :=
      if quoted then (Words.nothing, state.add expanded.fields.flatten .double)
      else putFields shell state rest expanded.fields
    some (Words.append ⟨[], expanded.commands⟩ words, { next with skip := expanded.length })

/-- What a character does: it is an error, it ends the word at hand, it begins an expansion, or the
word goes on. -/
inductive Effect where
  | error
  | ends
  | expands (quoted : Bool)
  | goesOn (next : LexState)

/-- The effect of a character does not depend on the shell. -/
def effect (state : LexState) (c : UInt8) : Effect :=
  if state.skip > 0 then .goesOn { state with skip := state.skip - 1 }
  else
    match state.quoting with
    | .unquoted =>
      if c ∈ blanks then .ends
      else if c ∈ forbidden then .error
      else if c = quote then .goesOn (state.add [] .single)
      else if c = doubleQuote then .goesOn (state.add [] .double)
      else if c = backslash then .goesOn { state with quoting := .escaped }
      else if c ∈ signs ∨ c = tilde ∧ state.word = none then .expands false
      else if c ∈ globs then .goesOn { state.add [c] .unquoted with pattern := true }
      else .goesOn (state.add [c] .unquoted)
    | .escaped =>
      if c = newline then .goesOn { state with quoting := .unquoted }
      else .goesOn (state.add [c] .unquoted)
    | .single =>
      if c = quote then .goesOn { state with quoting := .unquoted }
      else .goesOn (state.add [c] .single)
    | .double =>
      if c = doubleQuote then .goesOn { state with quoting := .unquoted }
      else if c = backslash then .goesOn { state with quoting := .doubleEscaped }
      else if c ∈ signs then .expands true
      else .goesOn (state.add [c] .double)
    | .doubleEscaped =>
      if c = newline then .goesOn { state with quoting := .double }
      else if c ∈ escapable then .goesOn (state.add [c] .double)
      else .goesOn (state.add [backslash, c] .double)

/-- One character. -/
def lexStep (state : LexState) (c : UInt8) (rest : List UInt8) : Option (Words × LexState) :=
  match effect state c with
  | .error => none
  | .ends => some (finishWord shell state rest, .start)
  | .expands quoted => putExpansion shell state quoted (c :: rest)
  | .goesOn next => some (.nothing, next)

/-- A text up to its end, where no quote may be open. -/
def lexFrom (state : LexState) : List UInt8 → Option Words
  | [] => if state.quoting = .unquoted then some (finishWord shell state []) else none
  | c :: rest =>
    match lexStep shell state c rest with
    | none => none
    | some (words, next) => (lexFrom next rest).map words.append

/-- `wordexp` without flags: the words of a text, or an error. -/
def wordexp (text : List UInt8) : Option Words := lexFrom shell .start text

/-- A part of a text, with what follows it. -/
def lexPart (state : LexState) (rest : List UInt8) : List UInt8 → Option (Words × LexState)
  | [] => some (.nothing, state)
  | c :: text =>
    match lexStep shell state c (text ++ rest) with
    | none => none
    | some (words, next) =>
      (lexPart next rest text).map fun (later, last) => (words.append later, last)

variable {shell} {state : LexState} {text rest : List UInt8}

/-- A text is read part by part. -/
theorem lexFrom_append (state : LexState) (text rest : List UInt8) :
    lexFrom shell state (text ++ rest) =
      match lexPart shell state rest text with
      | none => none
      | some (words, next) => (lexFrom shell next rest).map words.append := by
  induction text generalizing state with
  | nil =>
    rw [List.nil_append, lexPart]
    dsimp only
    cases lexFrom shell state rest with
    | none => rfl
    | some result => rfl
  | cons c text ih =>
    rw [List.cons_append, lexFrom, lexPart]
    cases lexStep shell state c (text ++ rest) with
    | none => rfl
    | some stepped =>
      obtain ⟨words, next⟩ := stepped
      dsimp only
      rw [ih]
      cases lexPart shell next rest text with
      | none => rfl
      | some parted =>
        obtain ⟨later, last⟩ := parted
        dsimp only [Option.map_some]
        cases lexFrom shell last rest with
        | none => rfl
        | some result =>
          rw [Option.map_some, Option.map_some, Option.map_some, Words.append_assoc]

/-! ## One character -/

theorem effect_escaped (front : Word) (pattern : Bool) (c : UInt8) :
    effect (.inside .escaped front pattern) c =
      if c = newline then .goesOn (.inside .unquoted front pattern)
      else .goesOn (.inside .unquoted (front ++ [c]) pattern) := rfl

theorem effect_single (front : Word) (pattern : Bool) (c : UInt8) :
    effect (.inside .single front pattern) c =
      if c = quote then .goesOn (.inside .unquoted front pattern)
      else .goesOn (.inside .single (front ++ [c]) pattern) := rfl

theorem effect_double (front : Word) (pattern : Bool) (c : UInt8) :
    effect (.inside .double front pattern) c =
      if c = doubleQuote then .goesOn (.inside .unquoted front pattern)
      else if c = backslash then .goesOn (.inside .doubleEscaped front pattern)
      else if c ∈ signs then .expands true
      else .goesOn (.inside .double (front ++ [c]) pattern) := rfl

theorem effect_doubleEscaped (front : Word) (pattern : Bool) (c : UInt8) :
    effect (.inside .doubleEscaped front pattern) c =
      if c = newline then .goesOn (.inside .double front pattern)
      else if c ∈ escapable then .goesOn (.inside .double (front ++ [c]) pattern)
      else .goesOn (.inside .double (front ++ [backslash, c]) pattern) := rfl

theorem effect_unquoted (word : Option Word) (pattern : Bool) (c : UInt8) :
    effect ⟨.unquoted, word, pattern, 0⟩ c =
      if c ∈ blanks then .ends
      else if c ∈ forbidden then .error
      else if c = quote then .goesOn (.inside .single (word.getD [] ++ []) pattern)
      else if c = doubleQuote then .goesOn (.inside .double (word.getD [] ++ []) pattern)
      else if c = backslash then .goesOn ⟨.escaped, word, pattern, 0⟩
      else if c ∈ signs ∨ c = tilde ∧ word = none then .expands false
      else if c ∈ globs then .goesOn (.inside .unquoted (word.getD [] ++ [c]) true)
      else .goesOn (.inside .unquoted (word.getD [] ++ [c]) pattern) := rfl

theorem lexStep_goesOn {c : UInt8} {next : LexState} (step : effect state c = .goesOn next)
    (rest : List UInt8) : lexStep shell state c rest = some (.nothing, next) := by
  rw [lexStep, step]

/-! ## Texts that are read as whole words -/

/-- A text between words is read as whole words, whatever follows it. -/
def ReadsWords (text : List UInt8) (words : List Word) : Prop :=
  ∀ (shell : Shell) (rest : List UInt8),
    lexPart shell .start rest text = some (⟨words, []⟩, .start)

/-- What follows such a text is read on its own. -/
theorem ReadsWords.wordexp {words : List Word} (reads : ReadsWords text words) (rest : List UInt8) :
    wordexp shell (text ++ rest) = (wordexp shell rest).map (Words.append ⟨words, []⟩) := by
  unfold FsArchiver.Lib.wordexp
  rw [lexFrom_append, reads shell rest]

/-- Parts of a part. -/
theorem lexPart_append (state : LexState) (text text' rest : List UInt8) :
    lexPart shell state rest (text ++ text') =
      match lexPart shell state (text' ++ rest) text with
      | none => none
      | some (words, next) =>
        (lexPart shell next rest text').map fun (later, last) => (words.append later, last) := by
  induction text generalizing state with
  | nil =>
    rw [List.nil_append, lexPart]
    dsimp only
    cases lexPart shell state rest text' with
    | none => rfl
    | some result => rfl
  | cons c text ih =>
    rw [List.cons_append, lexPart, lexPart, List.append_assoc]
    cases lexStep shell state c (text ++ (text' ++ rest)) with
    | none => rfl
    | some stepped =>
      obtain ⟨words, next⟩ := stepped
      dsimp only
      rw [ih]
      cases lexPart shell next (text' ++ rest) text with
      | none => rfl
      | some parted =>
        obtain ⟨later, last⟩ := parted
        dsimp only [Option.map_some]
        cases lexPart shell last rest text' with
        | none => rfl
        | some result =>
          rw [Option.map_some, Option.map_some, Option.map_some, Words.append_assoc]

theorem ReadsWords.append {text text' : List UInt8} {words words' : List Word}
    (reads : ReadsWords text words) (reads' : ReadsWords text' words') :
    ReadsWords (text ++ text') (words ++ words') := by
  intro shell rest
  rw [lexPart_append, reads shell (text' ++ rest)]
  dsimp only
  rw [reads' shell rest]
  rfl

/-- A space between words. -/
theorem reads_space : ReadsWords [space] [] := fun _ _ => rfl

/-- Characters without a meaning of their own. -/
def PlainChar (c : UInt8) : Prop :=
  c ∉ blanks ∧ c ∉ forbidden ∧ c ∉ quoting ∧ c ∉ signs ∧ c ≠ tilde ∧ c ∉ globs

instance (c : UInt8) : Decidable (PlainChar c) :=
  inferInstanceAs (Decidable (_ ∧ _ ∧ _ ∧ _ ∧ _ ∧ _))

/-- A plain character continues a word. -/
theorem effect_plain {c : UInt8} (plain : PlainChar c) (word : Option Word) :
    effect ⟨.unquoted, word, false, 0⟩ c =
      .goesOn (.inside .unquoted (word.getD [] ++ [c]) false) := by
  obtain ⟨noBlank, allowed, unquoting, noSign, noTilde, noGlob⟩ := plain
  have noQuote : c ≠ quote := fun same => unquoting (same ▸ by decide)
  have noDouble : c ≠ doubleQuote := fun same => unquoting (same ▸ by decide)
  have noBackslash : c ≠ backslash := fun same => unquoting (same ▸ by decide)
  rw [effect_unquoted, if_neg noBlank, if_neg allowed, if_neg noQuote, if_neg noDouble,
    if_neg noBackslash, if_neg, if_neg noGlob]
  · rintro (sign | ⟨isTilde, _⟩)
    · exact noSign sign
    · exact noTilde isTilde

/-- A word of such characters. -/
def PlainWord (word : Word) : Prop := word ≠ [] ∧ ∀ c ∈ word, PlainChar c

instance (word : Word) : Decidable (PlainWord word) :=
  @instDecidableAnd _ _ _ (List.decidableBAll _ word)

/-- A plain word and a space. -/
theorem reads_plain {word : Word} (plainWord : PlainWord word) :
    ReadsWords (word ++ [space]) [word] := by
  intro shell rest
  obtain ⟨nonempty, plain⟩ := plainWord
  have steps : ∀ (text front : Word), (∀ c ∈ text, PlainChar c) →
      lexPart shell (.inside .unquoted front false) rest (text ++ [space]) =
        some (.one (front ++ text), .start) := by
    intro text
    induction text with
    | nil =>
      intro front _
      rw [List.append_nil]
      rfl
    | cons c text ih =>
      intro front plain
      have step : effect (.inside .unquoted front false) c =
          .goesOn (.inside .unquoted (front ++ [c]) false) :=
        effect_plain (plain c List.mem_cons_self) (some front)
      rw [List.cons_append, lexPart, lexStep_goesOn step]
      dsimp only
      rw [ih (front ++ [c]) fun d later => plain d (List.mem_cons_of_mem _ later),
        List.append_assoc, List.singleton_append]
      rfl
  cases word with
  | nil => exact absurd rfl nonempty
  | cons c text =>
    have step : effect .start c = .goesOn (.inside .unquoted [c] false) :=
      effect_plain (plain c List.mem_cons_self) none
    rw [List.cons_append, lexPart, lexStep_goesOn step]
    dsimp only
    rw [steps text [c] fun d later => plain d (List.mem_cons_of_mem _ later)]
    rfl

/-- A plain word between spaces. -/
theorem reads_flag {word : Word} (plain : PlainWord word) :
    ReadsWords ([space] ++ (word ++ [space])) [word] :=
  reads_space.append (reads_plain plain)

/-- Text without a quote in single quotes. -/
theorem lexPart_single {text : Word} (free : quote ∉ text) (front : Word) (rest : List UInt8) :
    lexPart shell (.inside .single front false) rest (text ++ [quote]) =
      some (.nothing, .inside .unquoted (front ++ text) false) := by
  induction text generalizing front with
  | nil =>
    rw [List.append_nil]
    rfl
  | cons c text ih =>
    have other : c ≠ quote := fun same => free (same ▸ List.mem_cons_self)
    have step : effect (.inside .single front false) c =
        .goesOn (.inside .single (front ++ [c]) false) := by
      rw [effect_single, if_neg other]
    rw [List.cons_append, lexPart, lexStep_goesOn step]
    dsimp only
    rw [ih (fun later => free (List.mem_cons_of_mem _ later)), List.append_assoc,
      List.singleton_append]
    rfl

/-- A text in single quotes is one word. -/
theorem reads_quoted {text : Word} (free : quote ∉ text) :
    ReadsWords ([quote] ++ text ++ [quote, space]) [text] := by
  intro shell rest
  have whole : [quote] ++ text ++ [quote, space] = [quote] ++ ((text ++ [quote]) ++ [space]) := by
    simp
  have opened : lexPart shell .start (text ++ [quote] ++ [space] ++ rest) [quote] =
      some (.nothing, .inside .single [] false) := rfl
  rw [whole, lexPart_append, opened]
  dsimp only
  rw [lexPart_append, lexPart_single free]
  rfl

/-- A plain word and a text in single quotes. -/
theorem reads_quotedOption {name text : Word} (plain : PlainWord name) (free : quote ∉ text) :
    ReadsWords ([space] ++ (name ++ [space]) ++ ([quote] ++ text ++ [quote, space]))
      [name, text] :=
  (reads_flag plain).append (reads_quoted free)

/-! ## A quote in a quoted text -/

/-- A step that ends no word. -/
theorem lexFrom_of_step {c : UInt8} {next : LexState}
    (step : effect state c = .goesOn next) :
    lexFrom shell state (c :: rest) = lexFrom shell next rest := by
  rw [lexFrom, lexStep_goesOn step]
  dsimp only
  cases lexFrom shell next rest with
  | none => rfl
  | some result => rfl

/-- A shell that finds no path for any pattern. -/
def Shell.Literal (shell : Shell) : Prop := ∀ pattern rest, shell.paths pattern rest = [pattern]

theorem finishWord_literal (literal : shell.Literal) {front : Word}
    (word : state.word = some front) (rest : List UInt8) :
    finishWord shell state rest = .one front := by
  unfold finishWord
  rw [word]
  dsimp only
  split
  · rw [literal]
    rfl
  · rfl

/-- What a step does to the word at hand: it ends, or it goes on. -/
def Extends (front : Word) (stepped : Words × LexState) : Prop :=
  (∃ more later, stepped.1.words = (front ++ more) :: later) ∨
    stepped.1.words = [] ∧ ∃ more, stepped.2.word = some (front ++ more)

theorem extends_add {front more : Word} (word : state.word = some front) (quoting : Quoting) :
    Extends front (.nothing, state.add more quoting) := by
  refine Or.inr ⟨rfl, more, ?_⟩
  unfold LexState.add
  rw [word]
  rfl

theorem extends_same {front : Word} {next : LexState} (word : next.word = some front) :
    Extends front (.nothing, next) :=
  Or.inr ⟨rfl, [], by rw [word, List.append_nil]⟩

theorem extends_finish (literal : shell.Literal) {front : Word} (word : state.word = some front)
    (later : Words) (next : LexState) :
    Extends front ((finishWord shell state rest).append later, next) := by
  refine Or.inl ⟨[], later.words, ?_⟩
  rw [finishWord_literal literal word, List.append_nil]
  rfl

/-- A field that continues the word at hand. -/
theorem word_putField {front : Word} (word : state.word = some front) (field : Word) :
    (if field = [] then state else state.add field .unquoted).word = some (front ++ field) := by
  split
  · next empty => rw [word, empty, List.append_nil]
  · unfold LexState.add
    rw [word]
    rfl

theorem extends_putFields (literal : shell.Literal) {front : Word}
    (word : state.word = some front) (fields : List Word) :
    Extends front (putFields shell state rest fields) := by
  cases fields with
  | nil => exact extends_same word
  | cons field fields =>
    have first := word_putField word field
    cases fields with
    | nil => exact Or.inr ⟨rfl, field, first⟩
    | cons field' fields =>
      refine Or.inl ⟨field, (field' :: fields).dropLast, ?_⟩
      have ended : (putFields shell state rest (field :: field' :: fields)).1 =
          (finishWord shell (if field = [] then state else state.add field .unquoted) rest).append
            ⟨(field' :: fields).dropLast, []⟩ := rfl
      rw [ended, finishWord_literal literal first]
      rfl

theorem extends_putExpansion (literal : shell.Literal) {front : Word} {quoted : Bool}
    {stepped : Words × LexState} (word : state.word = some front)
    (done : putExpansion shell state quoted text = some stepped) : Extends front stepped := by
  unfold putExpansion at done
  split at done
  · cases done
  · next expanded _ =>
    obtain rfl := Option.some.inj done
    cases quoted with
    | true => exact extends_add word .double
    | false =>
      have put : Extends front
          (putFields shell state (text.drop (1 + expanded.length)) expanded.fields) :=
        extends_putFields literal word expanded.fields
      exact put

/-- A character with which the word goes on. -/
theorem word_of_goesOn {front : Word} {c : UInt8} {next : LexState} (word : state.word = some front)
    (step : effect state c = .goesOn next) : ∃ more, next.word = some (front ++ more) := by
  have same : ∀ {other : LexState}, other.word = some front → ∃ more,
      other.word = some (front ++ more) :=
    fun kept => ⟨[], by rw [kept, List.append_nil]⟩
  have added : ∀ (more : Word) (quoting : Quoting), ∃ more',
      (state.add more quoting).word = some (front ++ more') := by
    intro more quoting
    refine ⟨more, ?_⟩
    unfold LexState.add
    rw [word]
    rfl
  unfold effect at step
  split at step
  · obtain rfl := Effect.goesOn.inj step
    exact same word
  · split at step
    · split at step
      · cases step
      · split at step
        · cases step
        · split at step
          · obtain rfl := Effect.goesOn.inj step
            exact added [] .single
          · split at step
            · obtain rfl := Effect.goesOn.inj step
              exact added [] .double
            · split at step
              · obtain rfl := Effect.goesOn.inj step
                exact same word
              · split at step
                · cases step
                · split at step
                  · obtain rfl := Effect.goesOn.inj step
                    exact added [c] .unquoted
                  · obtain rfl := Effect.goesOn.inj step
                    exact added [c] .unquoted
    · split at step
      · obtain rfl := Effect.goesOn.inj step
        exact same word
      · obtain rfl := Effect.goesOn.inj step
        exact added [c] .unquoted
    · split at step
      · obtain rfl := Effect.goesOn.inj step
        exact same word
      · obtain rfl := Effect.goesOn.inj step
        exact added [c] .single
    · split at step
      · obtain rfl := Effect.goesOn.inj step
        exact same word
      · split at step
        · obtain rfl := Effect.goesOn.inj step
          exact same word
        · split at step
          · cases step
          · obtain rfl := Effect.goesOn.inj step
            exact added [c] .double
    · split at step
      · obtain rfl := Effect.goesOn.inj step
        exact same word
      · split at step
        · obtain rfl := Effect.goesOn.inj step
          exact added [c] .double
        · obtain rfl := Effect.goesOn.inj step
          exact added [backslash, c] .double

/-- A step only extends the word at hand. -/
theorem extends_lexStep (literal : shell.Literal) {front : Word} {c : UInt8}
    {stepped : Words × LexState} (word : state.word = some front)
    (done : lexStep shell state c rest = some stepped) : Extends front stepped := by
  unfold lexStep at done
  split at done
  · cases done
  · obtain rfl := Option.some.inj done
    have finished := @extends_finish shell state rest literal front word .nothing .start
    rwa [Words.append_nothing] at finished
  · exact extends_putExpansion literal word done
  · next step =>
    obtain rfl := Option.some.inj done
    exact Or.inr ⟨rfl, word_of_goesOn word step⟩

/-- The word at hand is the beginning of the first word of the rest. -/
theorem word_of_lexFrom (literal : shell.Literal) {front : Word} {result : Words}
    (word : state.word = some front) (done : lexFrom shell state text = some result) :
    ∃ more later, result.words = (front ++ more) :: later := by
  induction text generalizing state front result with
  | nil =>
    rw [lexFrom] at done
    split at done
    · obtain rfl := Option.some.inj done
      refine ⟨[], [], ?_⟩
      rw [finishWord_literal literal word, List.append_nil]
      rfl
    · cases done
  | cons c text ih =>
    rw [lexFrom] at done
    cases stepped : lexStep shell state c text with
    | none =>
      rw [stepped] at done
      cases done
    | some step =>
      rw [stepped] at done
      obtain ⟨last, rest, rfl⟩ := Option.map_eq_some_iff.mp done
      rcases extends_lexStep literal word stepped with ⟨more, later, ended⟩ | ⟨none, more, going⟩
      · refine ⟨more, later ++ last.words, ?_⟩
        rw [Words.words_append, ended]
        rfl
      · obtain ⟨more', later, words⟩ := ih going rest
        refine ⟨more ++ more', later, ?_⟩
        rw [Words.words_append, none, words, List.nil_append, List.append_assoc]

/-- The first word of a rest: it ends before a character, or has it behind at most so many others. -/
def MeetsWithin (front : Word) (bound : Nat) (c : UInt8) (result : Words) : Prop :=
  ∃ more later, more.length ≤ bound ∧
    (result.words = (front ++ more) :: later ∨
      ∃ behind, result.words = (front ++ more ++ c :: behind) :: later)

/-- Characters in front of those that are met. -/
theorem MeetsWithin.of_add {front added : Word} {bound : Nat} {c : UInt8} {result : Words}
    (meets : MeetsWithin (front ++ added) bound c result) :
    MeetsWithin front (bound + added.length) c result := by
  obtain ⟨more, later, short, words⟩ := meets
  refine ⟨added ++ more, later, ?_, ?_⟩
  · rw [List.length_append]
    omega
  · rwa [← List.append_assoc]

theorem MeetsWithin.mono {front : Word} {bound bound' : Nat} {c : UInt8} {result : Words}
    (meets : MeetsWithin front bound c result) (le : bound ≤ bound') :
    MeetsWithin front bound' c result := by
  obtain ⟨more, later, short, words⟩ := meets
  exact ⟨more, later, Nat.le_trans short le, words⟩

/-- The character is met when it is added to the word. -/
theorem meetsWithin_added (literal : shell.Literal) {front between : Word} {c : UInt8}
    {quoting : Quoting} {pattern : Bool} {result : Words}
    (done : lexFrom shell (.inside quoting (front ++ between ++ [c]) pattern) rest = some result) :
    MeetsWithin front between.length c result := by
  obtain ⟨behind, later, words⟩ := word_of_lexFrom literal rfl done
  refine ⟨between, later, Nat.le_refl _, Or.inr ⟨behind, ?_⟩⟩
  rw [words, List.append_assoc (front ++ between), List.singleton_append]

/-- A backslash in double quotes is still to come. -/
def Quoting.lag : Quoting → Nat
  | .doubleEscaped => 1
  | _ => 0

/-- A character that quotes nothing is met after no more characters than there are in front of it. -/
theorem meetsWithin_here (literal : shell.Literal) {c : UInt8} (other : c ∉ Shell.quoting)
    (fails : ∀ quoted, shell.expand quoted (c :: rest) = none) {quoting : Quoting} {front : Word}
    {pattern : Bool} {result : Words}
    (done : lexFrom shell (.inside quoting front pattern) (c :: rest) = some result) :
    MeetsWithin front quoting.lag c result := by
  have notQuote : c ≠ quote := fun same => other (same ▸ by decide)
  have notDouble : c ≠ doubleQuote := fun same => other (same ▸ by decide)
  have notBackslash : c ≠ backslash := fun same => other (same ▸ by decide)
  have notNewline : c ≠ newline := fun same => other (same ▸ by decide)
  have noExpansion : ∀ (state : LexState) (quoted : Bool),
      putExpansion shell state quoted (c :: rest) = none := by
    intro state quoted
    unfold putExpansion
    rw [fails]
  have added : ∀ {next : Quoting} {between : Word} {pattern' : Bool},
      effect (.inside quoting front pattern) c =
        .goesOn (.inside next (front ++ between ++ [c]) pattern') →
          between.length ≤ quoting.lag → MeetsWithin front quoting.lag c result := by
    intro next between pattern' step short
    rw [lexFrom_of_step step] at done
    exact (meetsWithin_added literal done).mono short
  have alone : ∀ {next : Quoting} {pattern' : Bool},
      effect (.inside quoting front pattern) c =
        .goesOn (.inside next (front ++ [c]) pattern') →
          MeetsWithin front quoting.lag c result := by
    intro next pattern' step
    rw [← List.append_nil (front ++ [c]), List.append_assoc] at step
    exact @added next [] pattern' (by rw [step, List.append_nil, List.append_nil]) (Nat.zero_le _)
  cases quoting with
  | unquoted =>
    have step := effect_unquoted (some front) pattern c
    rw [if_neg notQuote, if_neg notDouble, if_neg notBackslash] at step
    by_cases blank : c ∈ blanks
    · rw [if_pos blank] at step
      rw [lexFrom, lexStep, LexState.inside, step] at done
      obtain ⟨last, _, rfl⟩ := Option.map_eq_some_iff.mp done
      refine ⟨[], last.words, Nat.zero_le _, Or.inl ?_⟩
      rw [finishWord_literal literal rfl, List.append_nil]
      rfl
    · rw [if_neg blank] at step
      by_cases bad : c ∈ forbidden
      · rw [if_pos bad] at step
        rw [lexFrom, lexStep, LexState.inside, step] at done
        cases done
      · rw [if_neg bad] at step
        by_cases sign : c ∈ signs
        · rw [if_pos (Or.inl sign)] at step
          rw [lexFrom, lexStep, LexState.inside, step] at done
          dsimp only at done
          rw [noExpansion] at done
          cases done
        · rw [if_neg (by simp [sign])] at step
          by_cases glob : c ∈ globs
          · rw [if_pos glob] at step
            exact alone step
          · rw [if_neg glob] at step
            exact alone step
  | escaped =>
    have step := effect_escaped front pattern c
    rw [if_neg notNewline] at step
    exact alone step
  | single =>
    have step := effect_single front pattern c
    rw [if_neg notQuote] at step
    exact alone step
  | double =>
    have step := effect_double front pattern c
    rw [if_neg notDouble, if_neg notBackslash] at step
    by_cases sign : c ∈ signs
    · rw [if_pos sign] at step
      rw [lexFrom, lexStep, step] at done
      dsimp only at done
      rw [noExpansion] at done
      cases done
    · rw [if_neg sign] at step
      exact alone step
  | doubleEscaped =>
    have step := effect_doubleEscaped front pattern c
    rw [if_neg notNewline] at step
    by_cases quoted : c ∈ escapable
    · rw [if_pos quoted] at step
      exact alone step
    · rw [if_neg quoted] at step
      have parts : front ++ [backslash, c] = front ++ [backslash] ++ [c] := by simp
      rw [parts] at step
      exact added step (Nat.le_refl 1)

/-- Characters that quote make the word shorter, by at least one if the first is not quoted. -/
theorem meetsWithin_behind (literal : shell.Literal) {c : UInt8} (other : c ∉ Shell.quoting)
    (fails : ∀ quoted, shell.expand quoted (c :: rest) = none) {text : Word}
    (allQuoting : ∀ d ∈ text, d ∈ Shell.quoting) {quoting : Quoting} {front : Word}
    {pattern : Bool} {result : Words}
    (done : lexFrom shell (.inside quoting front pattern) (text ++ c :: rest) = some result) :
    MeetsWithin front (text.length + quoting.lag - if quoting = .unquoted ∧ text ≠ [] then 1 else 0)
      c result := by
  induction text generalizing quoting front with
  | nil =>
    rw [if_neg (by simp), Nat.sub_zero, List.length_nil, Nat.zero_add]
    exact meetsWithin_here literal other fails done
  | cons d text ih =>
    have goesOn : ∀ {next : Quoting} {added : Word},
        effect (.inside quoting front pattern) d = .goesOn (.inside next (front ++ added) pattern) →
            text.length + next.lag + added.length ≤ (d :: text).length + quoting.lag -
              (if quoting = .unquoted ∧ d :: text ≠ [] then 1 else 0) →
                MeetsWithin front ((d :: text).length + quoting.lag -
                  if quoting = .unquoted ∧ d :: text ≠ [] then 1 else 0) c result := by
      intro next added step bound
      rw [List.cons_append, lexFrom_of_step step] at done
      have later := ih (fun e member => allQuoting e (List.mem_cons_of_mem _ member)) done
      exact later.of_add.mono (by omega)
    have stays : front ++ [] = front := List.append_nil front
    have kind : d = quote ∨ d = doubleQuote ∨ d = backslash ∨ d = newline := by
      have member := allQuoting d List.mem_cons_self
      simpa [Shell.quoting, quote, doubleQuote, backslash, newline] using member
    cases quoting with
    | unquoted =>
      have bound : ∀ {next : Quoting}, next.lag = 0 →
          text.length + next.lag + ([] : Word).length ≤ (d :: text).length + Quoting.unquoted.lag -
            (if Quoting.unquoted = .unquoted ∧ d :: text ≠ [] then 1 else 0) := by
        intro next none
        rw [none, if_pos ⟨rfl, List.cons_ne_nil _ _⟩]
        exact Nat.le_refl _
      rcases kind with rfl | rfl | rfl | rfl
      · exact @goesOn .single [] rfl (bound rfl)
      · exact @goesOn .double [] rfl (bound rfl)
      · exact @goesOn .escaped [] (by rw [stays]; rfl) (bound rfl)
      · exact nomatch done
    | escaped =>
      rcases kind with rfl | rfl | rfl | rfl
      · exact @goesOn .unquoted [quote] rfl (by simp [Quoting.lag])
      · exact @goesOn .unquoted [doubleQuote] rfl (by simp [Quoting.lag])
      · exact @goesOn .unquoted [backslash] rfl (by simp [Quoting.lag])
      · exact @goesOn .unquoted [] (by rw [stays]; rfl) (by simp [Quoting.lag])
    | single =>
      rcases kind with rfl | rfl | rfl | rfl
      · exact @goesOn .unquoted [] (by rw [stays]; rfl) (by simp [Quoting.lag])
      · exact @goesOn .single [doubleQuote] rfl (by simp [Quoting.lag])
      · exact @goesOn .single [backslash] rfl (by simp [Quoting.lag])
      · exact @goesOn .single [newline] rfl (by simp [Quoting.lag])
    | double =>
      rcases kind with rfl | rfl | rfl | rfl
      · exact @goesOn .double [quote] rfl (by simp [Quoting.lag])
      · exact @goesOn .unquoted [] (by rw [stays]; rfl) (by simp [Quoting.lag])
      · exact @goesOn .doubleEscaped [] (by rw [stays]; rfl) (by simp [Quoting.lag])
      · exact @goesOn .double [newline] rfl (by simp [Quoting.lag])
    | doubleEscaped =>
      rcases kind with rfl | rfl | rfl | rfl
      · exact @goesOn .double [backslash, quote] rfl (by simp [Quoting.lag])
      · exact @goesOn .double [doubleQuote] rfl (by simp [Quoting.lag])
      · exact @goesOn .double [backslash] rfl (by simp [Quoting.lag])
      · exact @goesOn .double [] (by rw [stays]; rfl) (by simp +arith [Quoting.lag])

/-- A text with a quote, in single quotes, is not the first word, if every expansion in it fails. -/
theorem head_ne_of_quote (literal : shell.Literal) {text : Word} (has : quote ∈ text)
    (fails : ∀ quoted (behind : List UInt8), rest.length < behind.length →
      shell.expand quoted behind = none) {result : Words}
    (done : wordexp shell ([quote] ++ text ++ [quote, space] ++ rest) = some result) :
    result.words.head? ≠ some text := by
  obtain ⟨front, back, rfl, free⟩ := List.eq_append_cons_of_mem has
  -- what follows the part that is still in quotes
  let behind := back ++ [quote, space]
  have closed : lexFrom shell (.inside .unquoted front false) (behind ++ rest) = some result := by
    have whole : [quote] ++ (front ++ quote :: back) ++ [quote, space] ++ rest =
        [quote] ++ ((front ++ [quote]) ++ (behind ++ rest)) := by simp [behind]
    have opened : lexPart shell .start ((front ++ [quote]) ++ (behind ++ rest)) [quote] =
        some (.nothing, .inside .single [] false) := rfl
    have same : ∀ found : Option Words, found.map (Words.append .nothing) = found := by
      intro found
      cases found <;> rfl
    rw [wordexp, whole, lexFrom_append, opened] at done
    dsimp only at done
    rw [same, lexFrom_append, lexPart_single free] at done
    dsimp only at done
    rwa [same] at done
  obtain ⟨c, found⟩ : ∃ c, behind.find? (· ∉ Shell.quoting) = some c :=
    Option.isSome_iff_exists.mp (List.find?_isSome.mpr ⟨space, by simp [behind], by decide⟩)
  obtain ⟨unquoted, text, later, parts, quoted⟩ := List.find?_eq_some_iff_append.mp found
  have other : c ∉ Shell.quoting := of_decide_eq_true unquoted
  have allQuoting : ∀ d ∈ text, d ∈ Shell.quoting := by
    intro d member
    simpa using quoted d member
  have length : text.length + (later.length + 1) = back.length + 2 := by
    have lengths := congrArg List.length parts
    simpa [behind] using lengths.symm
  rw [parts, List.append_assoc, List.cons_append] at closed
  obtain ⟨more, others, short, words⟩ := meetsWithin_behind literal other
    (fun quoted => fails quoted _ (by simp +arith)) allQuoting closed
  intro head
  rcases words with words | ⟨behind', words⟩
  · rw [words, List.head?_cons, Option.some.injEq, List.append_cancel_left_eq] at head
    rw [head, List.length_cons] at short
    split at short
    · simp only [Quoting.lag] at short
      omega
    · next empty =>
      simp only [Quoting.lag] at short
      simp at empty
      simp [empty] at short
  · rw [words, List.head?_cons, Option.some.injEq, List.append_assoc,
      List.append_cancel_left_eq] at head
    cases more with
    | nil =>
      rw [List.nil_append, List.cons.injEq] at head
      exact other (head.1 ▸ by decide)
    | cons first more =>
      rw [List.cons_append, List.cons.injEq] at head
      have inside : more.length < text.length := by
        rw [List.length_cons] at short
        simp only [Quoting.lag] at short
        split at short
        · omega
        · omega
      have here : behind[more.length]? = some c := by
        have met : back[more.length]? = some c := by
          rw [← head.2]
          simp
        obtain ⟨within, same⟩ := List.getElem?_eq_some_iff.mp met
        rw [List.getElem?_append_left within, met]
      rw [parts, List.getElem?_append_left inside] at here
      exact other (allQuoting c (List.mem_of_getElem? here))

/-! ## A shell whose expansions fail -/

/-- A pattern stands for itself. -/
theorem literal_ne (pattern : Word) (_ : List UInt8) : [pattern] ≠ [] := List.cons_ne_nil _ _

/-- A shell without any paths, whose expansions fail in front of the last characters of a text. -/
def Shell.failing (shell : Shell) (last : Nat) : Shell where
  expand quoted text := if last < text.length then none else shell.expand quoted text
  paths pattern _ := [pattern]
  paths_ne := literal_ne

theorem Shell.failing_literal (shell : Shell) (last : Nat) : (shell.failing last).Literal :=
  fun _ _ => rfl

/-- No fewer words are found by a shell with paths. -/
theorem finishWord_failing (shell : Shell) (last : Nat) (state : LexState) (rest : List UInt8) :
    (finishWord (shell.failing last) state rest).words.length ≤
      (finishWord shell state rest).words.length := by
  unfold finishWord
  cases state.word with
  | none => exact Nat.le_refl _
  | some word =>
    dsimp only
    split
    · exact List.length_pos_of_ne_nil (shell.paths_ne word rest)
    · exact Nat.le_refl _

theorem putFields_failing (shell : Shell) (last : Nat) (state : LexState) (rest : List UInt8)
    (fields : List Word) :
    (putFields (shell.failing last) state rest fields).2 = (putFields shell state rest fields).2 ∧
      (putFields (shell.failing last) state rest fields).1.words.length ≤
        (putFields shell state rest fields).1.words.length := by
  cases fields with
  | nil => exact ⟨rfl, Nat.le_refl _⟩
  | cons field fields =>
    cases fields with
    | nil => exact ⟨rfl, Nat.le_refl _⟩
    | cons field' fields =>
      refine ⟨rfl, ?_⟩
      have finished := finishWord_failing shell last
        (if field = [] then state else state.add field .unquoted) rest
      have length : ∀ shell : Shell,
          (putFields shell state rest (field :: field' :: fields)).1.words.length =
            (finishWord shell (if field = [] then state else state.add field .unquoted)
              rest).words.length + (field' :: fields).dropLast.length :=
        fun shell => List.length_append
      rw [length, length]
      omega

/-- A step that succeeds does so with failing expansions behind it. -/
theorem lexStep_failing {shell : Shell} {last : Nat} {c : UInt8} {stepped : Words × LexState}
    (behind : (c :: rest).length ≤ last) (done : lexStep shell state c rest = some stepped) :
    ∃ words, lexStep (shell.failing last) state c rest = some (words, stepped.2) ∧
      words.words.length ≤ stepped.1.words.length := by
  unfold lexStep at done ⊢
  split at done
  · cases done
  · obtain rfl := Option.some.inj done
    exact ⟨_, rfl, finishWord_failing shell last state rest⟩
  · next quoted _ =>
    have same : (shell.failing last).expand quoted (c :: rest) = shell.expand quoted (c :: rest) :=
      if_neg (Nat.not_lt.mpr behind)
    unfold putExpansion at done ⊢
    rw [same]
    split at done
    · cases done
    · next expanded _ =>
      obtain rfl := Option.some.inj done
      cases quoted with
      | true => exact ⟨_, rfl, Nat.le_refl _⟩
      | false =>
        obtain ⟨sameState, fewer⟩ := putFields_failing shell last state
          ((c :: rest).drop (1 + expanded.length)) expanded.fields
        have skipped := congrArg
          (fun put : LexState => { put with skip := expanded.length }) sameState
        exact ⟨_, congrArg some (Prod.ext rfl skipped), fewer⟩
  · obtain rfl := Option.some.inj done
    exact ⟨_, rfl, Nat.le_refl _⟩

/-- A text that is read is read with failing expansions in front of it, and gives no more words. -/
theorem lexFrom_failing {shell : Shell} {last : Nat} {result : Words} (behind : text.length ≤ last)
    (done : lexFrom shell state text = some result) :
    ∃ fewer, lexFrom (shell.failing last) state text = some fewer ∧
      fewer.words.length ≤ result.words.length := by
  induction text generalizing state result with
  | nil =>
    rw [lexFrom] at done ⊢
    split at done
    · next ended =>
      obtain rfl := Option.some.inj done
      exact ⟨_, if_pos ended, finishWord_failing shell last state []⟩
    · cases done
  | cons c text ih =>
    rw [lexFrom] at done ⊢
    cases stepped : lexStep shell state c text with
    | none =>
      rw [stepped] at done
      cases done
    | some step =>
      rw [stepped] at done
      obtain ⟨later, rest, rfl⟩ := Option.map_eq_some_iff.mp done
      obtain ⟨words, step', short⟩ := lexStep_failing behind stepped
      obtain ⟨fewer, rest', short'⟩ := ih (Nat.le_of_succ_le behind) rest
      refine ⟨words.append fewer, ?_, ?_⟩
      · rw [step']
        dsimp only
        rw [rest']
        rfl
      · rw [Words.words_append, Words.words_append, List.length_append, List.length_append]
        omega

end Lexing

end FsArchiver.Lib
