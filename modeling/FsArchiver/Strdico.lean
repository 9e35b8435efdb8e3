import FsArchiver.MountInfo
import Mathlib.Algebra.Group.Int.Defs

/-!
# Dictionaries of strings

`strdico.c`: the arguments of a restoration, such as `id=0,dest=/dev/sda1`, as pairs of strings.
The key and the value of a definition are copied through two local buffers on their way into the
dictionary, and these bound them: a longer key is taken for a definition without `=`, a longer value
is cut off.
-/
namespace FsArchiver

open Lib

/-! ## The functions of `strdico.c` -/

/-- `s_strdicoitem`. -/
structure StrdicoItem where
  /-- Key. -/
  key : List UInt8
  /-- Value. -/
  value : List UInt8
  deriving DecidableEq

/-- `s_strdico`. -/
structure Strdico where
  /-- The linked list from `head`. -/
  items : List StrdicoItem
  /-- The keys that are allowed, with delimiters between them, or any keys. -/
  validkeys : Option (List UInt8)
  deriving DecidableEq

/-- `strdico_alloc`. -/
def strdicoAlloc : Strdico := ⟨[], none⟩

/-- `strdico_set_valid_keys`. -/
def strdicoSetValidKeys (d : Strdico) (keys : List UInt8) : Strdico :=
  { d with validkeys := some keys }

/-- The delimiters `,;\t\n`. -/
def strdicoDelims : List UInt8 := [0x2c, 0x3b, 0x09, 0x0a]

/-- The character `=`. -/
def equalsSign : UInt8 := 0x3d

/-- The loop of `strdico_set_value` over the valid keys. -/
def isKeyAmong (key s : List UInt8) : Bool :=
  match _found : strtokR strdicoDelims s with
  | none => false
  | some (result, rest) => if result = key then true else isKeyAmong key rest
termination_by s.length
decreasing_by exact strtokR_shorter _found

/-- The value of the first item with this key is replaced, if there is one. -/
def replaceValue (key value : List UInt8) : List StrdicoItem → Option (List StrdicoItem)
  | [] => none
  | item :: rest =>
    if item.key = key then some ({ item with value } :: rest)
    else (replaceValue key value rest).map (item :: ·)

/-- `strdico_set_value`. -/
def strdicoSetValue (d : Strdico) (key value : List UInt8) : Except FsaErr Strdico :=
  if (d.validkeys.map (isKeyAmong key)).getD true then
    match replaceValue key value d.items with
    | some items => .ok { d with items }
    | none => .ok { d with items := ⟨key, value⟩ :: d.items }
  else .error .einval

/-- The body of the loop of `strdico_parse_string`: `char key[1024]` and `char value[1024]`. -/
def strdicoDefine (d : Strdico) (result : List UInt8) : Except FsaErr Strdico :=
  let key := (result.takeWhile (· ≠ equalsSign)).take (1024 - 1)
  match result.drop key.length with
  | [] => .error .einval
  | c :: rest =>
    if c ≠ equalsSign then .error .einval else strdicoSetValue d key (rest.take (1024 - 1))

/-- The loop of `strdico_parse_string` from a call of `strtok_r` on. -/
def strdicoParseFrom (d : Strdico) (s : List UInt8) : Except FsaErr Strdico :=
  match _found : strtokR strdicoDelims s with
  | none => .ok d
  | some (result, rest) =>
    match strdicoDefine d result with
    | .ok d => strdicoParseFrom d rest
    | .error res => .error res
termination_by s.length
decreasing_by exact strtokR_shorter _found

/-- `strdico_parse_string`. What an error leaves in the dictionary is not looked at. -/
def strdicoParseString (d : Strdico) (strdefs : List UInt8) : Except FsaErr Strdico :=
  strdicoParseFrom d strdefs

/-- `strdico_get_string`: the string in the buffer. -/
def strdicoGetString (d : Strdico) (outbufsize : Nat) (key : List UInt8) :
    Except FsaErr (List UInt8) :=
  match d.items.find? fun item => item.key = key with
  | some item => .ok (snprintfS outbufsize item.value)
  | none => .error .enoent

/-- `isspace`. -/
def isspace (c : UInt8) : Bool := c = 0x20 ∨ (0x09 ≤ c ∧ c ≤ 0x0d)

/-- `strtoll` with base 10: the value, whether `errno` is set, and what `endptr` points to. -/
def strtoll (text : List UInt8) : Int × Bool × List UInt8 :=
  let signed := text.dropWhile isspace
  let unsigned := if signed.head? = some 0x2d ∨ signed.head? = some 0x2b then signed.tail else signed
  let digits := unsigned.takeWhile fun c => 0x30 ≤ c ∧ c ≤ 0x39
  let number : Int := digits.foldl (fun n c => 10 * n + (c.toNat - 0x30)) 0
  let value := if signed.head? = some 0x2d then -number else number
  if digits = [] then (0, false, text)
  else if value < -2 ^ 63 then (-2 ^ 63, true, unsigned.drop digits.length)
  else if value ≥ 2 ^ 63 then (2 ^ 63 - 1, true, unsigned.drop digits.length)
  else (value, false, unsigned.drop digits.length)

/-- `strdico_get_s64`. -/
def strdicoGetS64 (d : Strdico) (key : List UInt8) : Except FsaErr Int :=
  match strdicoGetString d 1024 key with
  | .error res => .error res
  | .ok buffer =>
    if buffer = [] then .error .einval
    else
      let (value, errno, endptr) := strtoll buffer
      if errno ∨ endptr ≠ [] then .error .einval else .ok value

/-! ## Definitions -/

/-- What stands in front of the first `=`. -/
def keyOf (token : List UInt8) : List UInt8 := token.takeWhile (· ≠ equalsSign)

/-- What stands behind the first `=`. -/
def valueOf (token : List UInt8) : List UInt8 := (token.dropWhile (· ≠ equalsSign)).tail

/-- The tokens of a string. -/
def definitions (s : List UInt8) : List (List UInt8) := tokens strdicoDelims.contains s

/-- A key is allowed. -/
def ValidKey (validkeys : Option (List UInt8)) (key : List UInt8) : Prop :=
  ∀ keys, validkeys = some keys → key ∈ definitions keys

/-- A token is a definition of a valid key. -/
def Defines (validkeys : Option (List UInt8)) (token : List UInt8) : Prop :=
  equalsSign ∈ token ∧ ValidKey validkeys (keyOf token)

/-- The last of the tokens with this key. -/
def lastWith (key : List UInt8) (tokens : List (List UInt8)) : Option (List UInt8) :=
  tokens.reverse.find? fun token => keyOf token = key

/-- A string is parsed as the grammar of definitions has it: exactly if all its tokens are
definitions, and with the whole values of the last ones. -/
structure ParsedFaithfully (validkeys : Option (List UInt8)) (strdefs : List UInt8) : Prop where
  /-- When the string is accepted. -/
  accepted : (∃ d, strdicoParseString ⟨[], validkeys⟩ strdefs = .ok d) ↔
    ∀ token ∈ definitions strdefs, Defines validkeys token
  /-- What is found for a key. -/
  found : ∀ d, strdicoParseString ⟨[], validkeys⟩ strdefs = .ok d → ∀ key,
    match lastWith key (definitions strdefs) with
    | some token => ∀ outbufsize > (valueOf token).length,
        strdicoGetString d outbufsize key = .ok (valueOf token)
    | none => ∀ outbufsize, strdicoGetString d outbufsize key = .error .enoent

/-- If all tokens are definitions, their keys and the values that count fit into the buffers. -/
def DefinitionsFit (validkeys : Option (List UInt8)) (strdefs : List UInt8) : Prop :=
  (∀ token ∈ definitions strdefs, Defines validkeys token) →
    (∀ token ∈ definitions strdefs, (keyOf token).length < 1024) ∧
      ∀ key token, lastWith key (definitions strdefs) = some token → (valueOf token).length < 1024

section Parsing

variable {d : Strdico} {validkeys : Option (List UInt8)} {key value token s : List UInt8}

/-! ## Keys -/

/-- A key is looked for among the tokens of the valid keys. -/
theorem isKeyAmong_iff (key s : List UInt8) : isKeyAmong key s = true ↔ key ∈ definitions s := by
  unfold definitions
  fun_induction isKeyAmong key s with
  | case1 s done =>
    rw [tokens_of_strtokR_none done]
    simp
  | case2 s rest found =>
    rw [tokens_of_strtokR_some found]
    simp
  | case3 s result rest found other ih =>
    rw [tokens_of_strtokR_some found, List.mem_cons, ih]
    exact (or_iff_right (Ne.symm other)).symm

/-- The check of `strdico_set_value` accepts the valid keys. -/
theorem validKey_iff (validkeys : Option (List UInt8)) (key : List UInt8) :
    (validkeys.map (isKeyAmong key)).getD true = true ↔ ValidKey validkeys key := by
  cases validkeys with
  | none => simp [ValidKey]
  | some keys => simp [ValidKey, isKeyAmong_iff]

/-! ## Values -/

/-- The value of a key. -/
def Strdico.lookup (d : Strdico) (key : List UInt8) : Option (List UInt8) :=
  (d.items.find? fun item => item.key = key).map StrdicoItem.value

/-- A value that is replaced is found, and the others stay. -/
theorem find_replaceValue {items replaced : List StrdicoItem}
    (there : replaceValue key value items = some replaced) (other : List UInt8) :
    (replaced.find? fun item => item.key = other).map StrdicoItem.value =
      if key = other then some value
      else (items.find? fun item => item.key = other).map StrdicoItem.value := by
  induction items generalizing replaced with
  | nil => cases there
  | cons item rest ih =>
    rw [replaceValue] at there
    split at there
    · next same =>
      cases there
      subst same
      by_cases this : item.key = other
      · simp [this]
      · simp [this]
    · next different =>
      obtain ⟨tail, there', rfl⟩ := Option.map_eq_some_iff.mp there
      have onward := ih there'
      by_cases this : item.key = other
      · have apart : key ≠ other := fun same => different (this.trans same.symm)
        simp [this, apart]
      · simpa [this] using onward

/-- A valid key gets its value, and every other one keeps what it has. -/
theorem strdicoSetValue_of_valid (valid : ValidKey d.validkeys key) (value : List UInt8) :
    ∃ d', strdicoSetValue d key value = .ok d' ∧ d'.validkeys = d.validkeys ∧
      ∀ other, d'.lookup other = if key = other then some value else d.lookup other := by
  rw [strdicoSetValue, if_pos ((validKey_iff _ _).mpr valid)]
  cases there : replaceValue key value d.items with
  | some items => exact ⟨_, rfl, rfl, find_replaceValue there⟩
  | none =>
    refine ⟨_, rfl, rfl, fun other => ?_⟩
    by_cases same : key = other
    · simp [Strdico.lookup, same]
    · simp [Strdico.lookup, same]

/-! ## Definitions one by one -/

/-- A token is its key and what begins with the first `=`. -/
theorem keyOf_append (token : List UInt8) :
    keyOf token ++ token.dropWhile (· ≠ equalsSign) = token :=
  List.takeWhile_append_dropWhile

/-- Behind the key stands what begins with the first `=`. -/
theorem drop_keyOf (token : List UInt8) :
    token.drop (keyOf token).length = token.dropWhile (· ≠ equalsSign) := by
  have behind : (keyOf token ++ token.dropWhile (· ≠ equalsSign)).drop (keyOf token).length =
      token.dropWhile (· ≠ equalsSign) := List.drop_left
  rwa [keyOf_append] at behind

/-- Behind the key of a definition stand `=` and the value. -/
theorem dropWhile_of_mem (member : equalsSign ∈ token) :
    token.dropWhile (· ≠ equalsSign) = equalsSign :: valueOf token := by
  unfold valueOf
  have ends := List.head?_dropWhile_not (· ≠ equalsSign) token
  cases behind : token.dropWhile (· ≠ equalsSign) with
  | nil =>
    rw [List.dropWhile_eq_nil_iff] at behind
    simpa using behind equalsSign member
  | cons c rest =>
    rw [behind] at ends
    have same : c = equalsSign := by simpa using ends
    rw [same, List.tail_cons]

/-- A definition of a valid key that fits into its buffer gives the key its value, as far as this
fits into its own. -/
theorem strdicoDefine_of_defines (defines : Defines d.validkeys token)
    (fits : (keyOf token).length < 1024) :
    ∃ d', strdicoDefine d token = .ok d' ∧ d'.validkeys = d.validkeys ∧
      ∀ key, d'.lookup key =
        if keyOf token = key then some ((valueOf token).take 1023) else d.lookup key := by
  have key : (token.takeWhile (· ≠ equalsSign)).take (1024 - 1) = keyOf token :=
    List.take_of_length_le (Nat.le_of_lt_succ fits)
  obtain ⟨d', set, rest⟩ := strdicoSetValue_of_valid defines.2 ((valueOf token).take (1024 - 1))
  refine ⟨d', ?_, rest⟩
  simp only [strdicoDefine, key, drop_keyOf, dropWhile_of_mem defines.1]
  exact set

/-- Every other token is an error. -/
theorem strdicoDefine_of_not (other : ¬(Defines d.validkeys token ∧ (keyOf token).length < 1024)) :
    strdicoDefine d token = .error .einval := by
  by_cases fits : (keyOf token).length < 1024
  · have key : (token.takeWhile (· ≠ equalsSign)).take (1024 - 1) = keyOf token :=
      List.take_of_length_le (Nat.le_of_lt_succ fits)
    simp only [strdicoDefine, key, drop_keyOf]
    by_cases member : equalsSign ∈ token
    · have invalid : ¬ValidKey d.validkeys (keyOf token) :=
        fun valid => other ⟨⟨member, valid⟩, fits⟩
      simp only [dropWhile_of_mem member, ne_eq, not_true_eq_false, if_false]
      rw [strdicoSetValue, if_neg (mt (validKey_iff _ _).mp invalid)]
    · have none : token.dropWhile (· ≠ equalsSign) = [] := by
        rw [List.dropWhile_eq_nil_iff]
        intro c among
        simpa using fun same : c = equalsSign => member (same ▸ among)
      simp only [none]
  · -- the buffer ends in front of the first `=`
    have long : 1023 < (keyOf token).length := by omega
    have size : ((token.takeWhile (· ≠ equalsSign)).take (1024 - 1)).length = 1023 := by
      rw [List.length_take]
      exact Nat.min_eq_left (Nat.le_of_lt long)
    have behind : token.drop 1023 =
        (keyOf token)[1023] :: ((keyOf token).drop 1024 ++ token.dropWhile (· ≠ equalsSign)) := by
      have front : (keyOf token ++ token.dropWhile (· ≠ equalsSign)).drop 1023 =
          (keyOf token).drop 1023 ++ token.dropWhile (· ≠ equalsSign) :=
        List.drop_append_of_le_length (Nat.le_of_lt long)
      rw [keyOf_append, List.drop_eq_getElem_cons long] at front
      exact front
    have plain : (keyOf token)[1023] ≠ equalsSign := by
      simpa using List.mem_takeWhile_imp (List.getElem_mem long)
    simp only [strdicoDefine, size, behind, ne_eq, plain, not_false_eq_true, if_true]

/-! ## All definitions -/

/-- The loop takes the tokens one by one. -/
theorem strdicoParseFrom_eq (d : Strdico) (s : List UInt8) :
    strdicoParseFrom d s = (definitions s).foldlM strdicoDefine d := by
  unfold definitions
  fun_induction strdicoParseFrom d s with
  | case1 d s done => rw [tokens_of_strtokR_none done]; rfl
  | case2 d s result rest found d' defined ih =>
    rw [tokens_of_strtokR_some found, List.foldlM_cons, defined, ih]
    rfl
  | case3 d s result rest found res failed =>
    rw [tokens_of_strtokR_some found, List.foldlM_cons, failed]
    rfl

/-- The last of the tokens with a key is the last one, or the last of those in front of it. -/
theorem lastWith_cons (key token : List UInt8) (rest : List (List UInt8)) :
    lastWith key (token :: rest) =
      (lastWith key rest).or (if keyOf token = key then some token else none) := by
  unfold lastWith
  rw [List.reverse_cons, List.find?_append]
  by_cases same : keyOf token = key
  · simp [same]
  · simp [same]

/-- Tokens that are all definitions, and whose keys fit, give every key the value of the last
token with it, as far as this fits. -/
theorem foldlM_of_defines {ts : List (List UInt8)}
    (all : ∀ token ∈ ts, Defines d.validkeys token ∧ (keyOf token).length < 1024) :
    ∃ d', ts.foldlM strdicoDefine d = .ok d' ∧
      ∀ key, d'.lookup key =
        ((lastWith key ts).map fun token => (valueOf token).take 1023).or (d.lookup key) := by
  induction ts generalizing d with
  | nil => exact ⟨d, rfl, fun key => rfl⟩
  | cons token rest ih =>
    obtain ⟨defines, fits⟩ := all token List.mem_cons_self
    obtain ⟨d₁, defined, same, first⟩ := strdicoDefine_of_defines defines fits
    obtain ⟨d', parsed, others⟩ := ih (d := d₁) fun other member => by
      rw [same]
      exact all other (List.mem_cons_of_mem _ member)
    refine ⟨d', ?_, fun key => ?_⟩
    · rw [List.foldlM_cons, defined]
      exact parsed
    · rw [others key, first key, lastWith_cons]
      cases lastWith key rest with
      | some token => rfl
      | none =>
        by_cases this : keyOf token = key
        · simp [this]
        · simp [this]

/-- One other token is an error. -/
theorem foldlM_of_not {ts : List (List UInt8)}
    (other : ¬∀ token ∈ ts, Defines d.validkeys token ∧ (keyOf token).length < 1024) :
    ts.foldlM strdicoDefine d = .error .einval := by
  induction ts generalizing d with
  | nil => exact absurd (fun _ absent => absurd absent List.not_mem_nil) other
  | cons token rest ih =>
    rw [List.foldlM_cons]
    by_cases here : Defines d.validkeys token ∧ (keyOf token).length < 1024
    · obtain ⟨d₁, defined, same, -⟩ := strdicoDefine_of_defines here.1 here.2
      rw [defined]
      refine ih fun all => other fun found member => ?_
      rcases List.mem_cons.mp member with rfl | member
      · exact here
      · rw [same] at all
        exact all found member
    · rw [strdicoDefine_of_not here]
      rfl

/-- A string is looked up in a buffer that is large enough. -/
theorem strdicoGetString_eq (d : Strdico) (outbufsize : Nat) (key : List UInt8) :
    strdicoGetString d outbufsize key =
      match d.lookup key with
      | some value => .ok (snprintfS outbufsize value)
      | none => .error .enoent := by
  unfold strdicoGetString Strdico.lookup
  cases d.items.find? fun item => item.key = key with
  | none => rfl
  | some item => rfl

/-- A string that is accepted has only definitions, whose keys fit. -/
theorem defines_of_parsed (parsed : strdicoParseString ⟨[], validkeys⟩ s = .ok d) :
    (∀ token ∈ definitions s, Defines validkeys token ∧ (keyOf token).length < 1024) ∧
      ∀ key, d.lookup key =
        (lastWith key (definitions s)).map fun token => (valueOf token).take 1023 := by
  rw [strdicoParseString, strdicoParseFrom_eq] at parsed
  have all : ∀ token ∈ definitions s, Defines validkeys token ∧ (keyOf token).length < 1024 := by
    by_contra other
    rw [foldlM_of_not (d := ⟨[], validkeys⟩) other] at parsed
    cases parsed
  refine ⟨all, fun key => ?_⟩
  obtain ⟨d', defined, found⟩ := foldlM_of_defines (d := ⟨[], validkeys⟩) all
  rw [defined, Except.ok.injEq] at parsed
  rw [← parsed, found key]
  exact Option.or_none

/-- A string whose tokens are definitions that fit is accepted. -/
theorem parsed_of_defines
    (all : ∀ token ∈ definitions s, Defines validkeys token ∧ (keyOf token).length < 1024) :
    ∃ d, strdicoParseString ⟨[], validkeys⟩ s = .ok d := by
  obtain ⟨d, defined, -⟩ := foldlM_of_defines (d := ⟨[], validkeys⟩) all
  exact ⟨d, by rw [strdicoParseString, strdicoParseFrom_eq, defined]⟩

/-- A string that is parsed faithfully fits into the buffers. -/
theorem definitionsFit_of_faithful (faithful : ParsedFaithfully validkeys s) :
    DefinitionsFit validkeys s := by
  intro defines
  obtain ⟨d, parsed⟩ := faithful.accepted.mpr defines
  obtain ⟨all, lookups⟩ := defines_of_parsed parsed
  refine ⟨fun token member => (all token member).2, fun key token last => ?_⟩
  have found := faithful.found d parsed key
  rw [last] at found
  have whole := found ((valueOf token).length + 1) (Nat.lt_succ_self _)
  rw [strdicoGetString_eq, lookups key, last] at whole
  have same := congrArg List.length (Except.ok.inj whole)
  rw [snprintfS, List.length_take, List.length_take] at same
  omega

/-- A string that fits into the buffers is parsed faithfully. -/
theorem faithful_of_definitionsFit (fit : DefinitionsFit validkeys s) :
    ParsedFaithfully validkeys s := by
  refine ⟨⟨fun ⟨d, parsed⟩ token member => ((defines_of_parsed parsed).1 token member).1,
    fun defines => ?_⟩, fun d parsed key => ?_⟩
  · exact parsed_of_defines fun token member =>
      ⟨defines token member, (fit defines).1 token member⟩
  · obtain ⟨all, lookups⟩ := defines_of_parsed parsed
    have short := (fit fun token member => (all token member).1).2
    cases last : lastWith key (definitions s) with
    | none =>
      intro outbufsize
      rw [strdicoGetString_eq, lookups key, last]
      rfl
    | some token =>
      intro outbufsize large
      have less := short key token last
      rw [strdicoGetString_eq, lookups key, last]
      simp only [Option.map_some, snprintfS]
      rw [List.take_of_length_le (Nat.le_of_lt_succ less), List.take_of_length_le (by omega)]

/-- `strdico_parse_string` and `strdico_get_string` agree with the grammar of definitions exactly
if, where all tokens are definitions, the keys and the values that count are shorter than the two
local buffers. -/
theorem strdicoParseString_iff (validkeys : Option (List UInt8)) (strdefs : List UInt8) :
    ParsedFaithfully validkeys strdefs ↔ DefinitionsFit validkeys strdefs :=
  ⟨definitionsFit_of_faithful, faithful_of_definitionsFit⟩

/-- The value of 1024 characters that is given to the key `x` is cut off. -/
theorem long_value_cut :
    ¬ParsedFaithfully (some [0x78]) ([0x78, equalsSign] ++ List.replicate 1024 0x79) := by
  intro faithful
  have fit := definitionsFit_of_faithful faithful
  have free : ∀ c ∈ [0x78, equalsSign] ++ List.replicate 1024 0x79,
      strdicoDelims.contains c = false := by
    intro c member
    simp only [List.mem_append, List.mem_cons, List.not_mem_nil, or_false, List.mem_replicate]
      at member
    rcases member with (rfl | rfl) | ⟨-, rfl⟩
    · rfl
    · rfl
    · rfl
  have one : definitions ([0x78, equalsSign] ++ List.replicate 1024 0x79) =
      [[0x78, equalsSign] ++ List.replicate 1024 0x79] :=
    tokens_of_free free (List.cons_ne_nil _ _)
  have key : keyOf ([0x78, equalsSign] ++ List.replicate 1024 0x79) = [0x78] := rfl
  rw [DefinitionsFit, one] at fit
  have defines : Defines (some [0x78]) ([0x78, equalsSign] ++ List.replicate 1024 0x79) := by
    refine ⟨List.mem_append_left _ (by decide), fun keys same => ?_⟩
    cases same
    rw [key]
    exact List.mem_singleton.mpr rfl
  have short := (fit fun token member => List.mem_singleton.mp member ▸ defines).2 [0x78]
    ([0x78, equalsSign] ++ List.replicate 1024 0x79) (by rw [lastWith_cons, key]; rfl)
  have value : valueOf ([0x78, equalsSign] ++ List.replicate 1024 0x79) =
      List.replicate 1024 0x79 := rfl
  rw [value, List.length_replicate] at short
  exact Nat.lt_irrefl 1024 short

end Parsing

end FsArchiver
