import FsArchiver.Records

/-!
# What the header parser and the accessors rely on

`archreader_read_dico` takes the number of items, and the size of each item, from the body of a
header, and compares neither of them with the length of the body. `HoldsBody` describes the bodies
that hold what they announce. The accessors bound the size of an item from above only, so that an
item may be shorter than the number that is read from it.
-/
namespace FsArchiver

open Lib

/-! ## Reads of the parser -/

/-- A read from the buffer of `archreader_read_dico`. -/
structure BufferRead where
  /-- Size of the buffer. -/
  headerlen : Nat
  /-- Offset of the first byte. -/
  pos : Nat
  /-- Number of bytes. -/
  size : Nat
  deriving DecidableEq

/-- The bytes lie in the buffer. -/
def BufferRead.Inside (read : BufferRead) : Prop := read.pos + read.size ≤ read.headerlen

instance BufferRead.decidableInside (read : BufferRead) : Decidable read.Inside :=
  inferInstanceAs (Decidable (read.pos + read.size ≤ read.headerlen))

/-- The reads of type, section, key and size of an item. -/
def headReads (headerlen pos : Nat) : List BufferRead :=
  [⟨headerlen, pos, 1⟩, ⟨headerlen, pos + 1, 1⟩, ⟨headerlen, pos + 2, 2⟩, ⟨headerlen, pos + 4, 2⟩]

/-- `readItems` with its reads. `dico_add_generic` copies the payload behind its search for the
pair; an empty payload is a read of no bytes. -/
def readItemsTraced (mem : Mem) (buffer : List UInt8) :
    Nat → Nat → Dico → List BufferRead × Option Dico
  | 0, _, d => ([], some d)
  | count + 1, pos, d =>
    let type := UInt8.ofNat (leNat (heapBytes mem buffer pos 1))
    let sect := UInt8.ofNat (leNat (heapBytes mem buffer (pos + 1) 1))
    let key := UInt16.ofNat (leNat (heapBytes mem buffer (pos + 2) 2))
    let size := leNat (heapBytes mem buffer (pos + 4) 2)
    match dicoAddGeneric d sect key (heapBytes mem buffer (pos + 6) size) type with
    | none => (headReads buffer.length pos, none)
    | some d =>
      let rest := readItemsTraced mem buffer count (pos + 6 + size) d
      (headReads buffer.length pos ++ ⟨buffer.length, pos + 6, size⟩ :: rest.1, rest.2)

/-- `archreaderReadDico` with its reads: `fletcher32` goes over the whole buffer. -/
def archreaderReadDicoTraced (mem : Mem) (ai : ArchReader) : List BufferRead × Read Dico :=
  let lenSize := if ai.filefmtver = 1 then 2 else 4
  if ai.filefmtver ≠ 1 ∧ ai.filefmtver ≠ 2 then ([], .fatal)
  else
    match archreaderReadData ai lenSize with
    | none => ([], .fatal)
    | some (len, ai) =>
      match archreaderReadData ai (leNat len) with
      | none => ([], .fatal)
      | some (buffer, ai) =>
        match archreaderReadData ai 4 with
        | none => ([], .fatal)
        | some (origsum, ai) =>
          let whole := ⟨buffer.length, 0, buffer.length⟩
          if (fletcher32 buffer).toNat ≠ leNat origsum then ([whole], .minor ai)
          else
            let rest := readItemsTraced mem buffer (leNat (heapBytes mem buffer 0 2)) 2 Dico.alloc
            (whole :: ⟨buffer.length, 0, 2⟩ :: rest.1,
              match rest.2 with
              | none => .fatal
              | some d => .ok d ai)

/-- The reads are those of the loop of `archreader_read_dico`. -/
theorem readItemsTraced_result (mem : Mem) (buffer : List UInt8) (count pos : Nat) (d : Dico) :
    (readItemsTraced mem buffer count pos d).2 = readItems mem buffer count pos d := by
  induction count generalizing pos d with
  | zero => rfl
  | succ count ih =>
    rw [readItemsTraced, readItems]
    cases dicoAddGeneric d (UInt8.ofNat (leNat (heapBytes mem buffer (pos + 1) 1)))
      (UInt16.ofNat (leNat (heapBytes mem buffer (pos + 2) 2)))
      (heapBytes mem buffer (pos + 6) (leNat (heapBytes mem buffer (pos + 4) 2)))
      (UInt8.ofNat (leNat (heapBytes mem buffer pos 1))) with
    | none => rfl
    | some d => exact ih _ d

/-- The reads are those of `archreader_read_dico`. -/
theorem archreaderReadDicoTraced_result (mem : Mem) (ai : ArchReader) :
    (archreaderReadDicoTraced mem ai).2 = archreaderReadDico mem ai := by
  unfold archreaderReadDicoTraced archreaderReadDico
  by_cases unsupported : ai.filefmtver ≠ 1 ∧ ai.filefmtver ≠ 2
  · rw [if_pos unsupported, if_pos unsupported]
  rw [if_neg unsupported, if_neg unsupported]
  cases archreaderReadData ai (if ai.filefmtver = 1 then 2 else 4) with
  | none => rfl
  | some len =>
    obtain ⟨len, ai⟩ := len
    cases body : archreaderReadData ai (leNat len) with
    | none => simp only [body]
    | some buffer =>
      obtain ⟨buffer, ai⟩ := buffer
      cases sum : archreaderReadData ai 4 with
      | none => simp only [body, sum]
      | some origsum =>
        obtain ⟨origsum, ai⟩ := origsum
        simp only [body, sum]
        by_cases bad : (fletcher32 buffer).toNat ≠ leNat origsum
        · rw [if_pos bad, if_pos bad]
        · rw [if_neg bad, if_neg bad]
          cases items : readItems mem buffer (leNat (heapBytes mem buffer 0 2)) 2 Dico.alloc with
          | none => simp only [readItemsTraced_result, items]
          | some d => simp only [readItemsTraced_result, items]

/-! ## Bodies that hold what they announce -/

/-- Section and key in the head of an item. -/
def headPair : List UInt8 → Option (UInt8 × UInt16)
  | _ :: sect :: low :: high :: _ :: _ :: _ => some (sect, UInt16.ofNat (leNat [low, high]))
  | _ => none

/-- The bytes hold so many items behind those whose pairs were seen. An item with a pair that was
seen ends the parsing with an error, and only its head is needed. -/
inductive HoldsItems : List (UInt8 × UInt16) → Nat → List UInt8 → Prop
  | none (seen : List (UInt8 × UInt16)) (bytes : List UInt8) : HoldsItems seen 0 bytes
  | item {seen : List (UInt8 × UInt16)} {count : Nat} {item : DicoItem} {rest : List UInt8}
      (fresh : item.name ∉ seen) (behind : HoldsItems (seen ++ [item.name]) count rest) :
      HoldsItems seen (count + 1) (item.encode ++ rest)
  | repeated {seen : List (UInt8 × UInt16)} {count : Nat} {bytes : List UInt8}
      {pair : UInt8 × UInt16} (head : headPair bytes = some pair) (taken : pair ∈ seen) :
      HoldsItems seen (count + 1) bytes

/-- A body that starts with a number of items and holds that many. -/
def HoldsBody (body : List UInt8) : Prop :=
  ∃ count bytes, count < 65536 ∧ body = leBytes 2 count ++ bytes ∧ HoldsItems [] count bytes

/-- A complete dico record with this body and the right checksum is ahead of the reader. -/
structure ArchReader.DicoAhead (ai : ArchReader) (body : List UInt8) : Prop where
  /-- A known version of the format. -/
  version : ai.filefmtver = 1 ∨ ai.filefmtver = 2
  /-- Length, body and checksum. -/
  record : ∃ len sum rest, (len.length = if ai.filefmtver = 1 then 2 else 4) ∧
    leNat len = body.length ∧ sum.length = 4 ∧ (fletcher32 body).toNat = leNat sum ∧
    ai.ahead = len ++ (body ++ (sum ++ rest))

/-- The head of an item is six bytes long. -/
theorem six_le_of_headPair {bytes : List UInt8} {pair : UInt8 × UInt16}
    (head : headPair bytes = some pair) : 6 ≤ bytes.length := by
  unfold headPair at head
  split at head
  · simp only [List.length_cons]
    omega
  · cases head

/-- What bytes that hold one item more begin with. -/
theorem holdsItems_succ {seen : List (UInt8 × UInt16)} {count : Nat} {bytes : List UInt8} :
    HoldsItems seen (count + 1) bytes ↔
      (∃ (item : DicoItem) (rest : List UInt8), bytes = item.encode ++ rest ∧ item.name ∉ seen ∧
        HoldsItems (seen ++ [item.name]) count rest) ∨
      ∃ pair, headPair bytes = some pair ∧ pair ∈ seen := by
  constructor
  · intro holds
    cases holds with
    | item fresh behind => exact .inl ⟨_, _, rfl, fresh, behind⟩
    | repeated head taken => exact .inr ⟨_, head, taken⟩
  · rintro (⟨item, rest, rfl, fresh, behind⟩ | ⟨pair, head, taken⟩)
    · exact .item fresh behind
    · exact .repeated head taken

/-- The fields of an item are where the parser looks for them. -/
theorem encode_append_eq {item : DicoItem} {type sect k0 k1 s0 s1 : UInt8} {behind rest : List UInt8}
    (same : item.encode ++ behind = type :: sect :: k0 :: k1 :: s0 :: s1 :: rest) :
    item.name = (sect, UInt16.ofNat (leNat [k0, k1])) ∧ item.data.length = leNat [s0, s1] ∧
      item.data ++ behind = rest := by
  have key : leNat (leBytes 2 item.key.toNat) = item.key.toNat := leNat_leBytes_uint16 item.key
  have size : leNat (leBytes 2 item.data.length) = item.data.length :=
    leNat_leBytes_of_lt item.size_lt
  simp only [DicoItem.encode, leBytes, List.cons_append, List.nil_append, List.cons.injEq] at same
  obtain ⟨-, rfl, rfl, rfl, rfl, rfl, rfl⟩ := same
  simp only [leBytes] at key size
  refine ⟨?_, size.symm, rfl⟩
  rw [key, UInt16.ofNat_toNat]
  rfl

/-- Two bytes are a 16-bit number. -/
theorem leNat_pair_lt (low high : UInt8) : leNat [low, high] < 65536 := by
  have bound := leNat_lt [low, high]
  simp only [List.length_cons, List.length_nil, Nat.reduceAdd, Nat.reducePow] at bound
  exact bound

/-- The item that the parser finds in these bytes. -/
theorem encode_make {type sect k0 k1 s0 s1 : UInt8} {rest : List UInt8}
    (inside : leNat [s0, s1] ≤ rest.length) :
    (DicoItem.make sect (UInt16.ofNat (leNat [k0, k1])) (rest.take (leNat [s0, s1])) type).encode ++
      rest.drop (leNat [s0, s1]) = type :: sect :: k0 :: k1 :: s0 :: s1 :: rest := by
  have small := leNat_pair_lt s0 s1
  have length : (rest.take (leNat [s0, s1])).length = leNat [s0, s1] := List.length_take_of_le inside
  have word := leNat_pair_lt k0 k1
  have data : (DicoItem.make sect (UInt16.ofNat (leNat [k0, k1])) (rest.take (leNat [s0, s1]))
      type).data = rest.take (leNat [s0, s1]) := sizedData_of_lt (by rwa [length])
  have key : leBytes 2 (UInt16.ofNat (leNat [k0, k1])).toNat = [k0, k1] := by
    apply leNat_injective
    · rw [length_leBytes]
      rfl
    · rw [leNat_leBytes_uint16, UInt16.toNat_ofNat', Nat.mod_eq_of_lt word]
  have size : leBytes 2 (leNat [s0, s1]) = [s0, s1] := by
    apply leNat_injective
    · rw [length_leBytes]
      rfl
    · rw [leNat_leBytes_of_lt small]
  rw [DicoItem.encode, data, length, size]
  show [type, sect] ++ leBytes 2 (UInt16.ofNat (leNat [k0, k1])).toNat ++ [s0, s1] ++ _ ++ _ = _
  rw [key]
  simp only [List.cons_append, List.nil_append, List.take_append_drop]

/-- What lies at a place of the buffer does not depend on what lies behind the buffer. -/
theorem heapBytes_of_drop (mem : Mem) {buffer part rest : List UInt8} {pos : Nat}
    (here : buffer.drop pos = part ++ rest) (within : pos ≤ buffer.length) :
    heapBytes mem buffer pos part.length = part := by
  have split : buffer = buffer.take pos ++ part ++ rest := by
    rw [List.append_assoc, ← here, List.take_append_drop]
  have cut := heapBytes_of_split mem (buffer.take pos) part rest
    (List.length_take_of_le within).symm rfl
  rwa [← split] at cut

/-- The first two bytes of a buffer. -/
theorem heapBytes_front (mem : Mem) {buffer : List UInt8} (two : 2 ≤ buffer.length) :
    heapBytes mem buffer 0 2 = buffer.take 2 := by
  have cut := @heapBytes_of_drop mem buffer (buffer.take 2) (buffer.drop 2) 0
    (List.take_append_drop 2 buffer).symm (Nat.zero_le _)
  rwa [List.length_take_of_le two] at cut

/-- A read that succeeds says what was ahead. -/
theorem archreaderReadData_ahead {ai after : ArchReader} {size : Nat} {data : List UInt8}
    (read : archreaderReadData ai size = some (data, after)) :
    data.length = size ∧ ai.ahead = data ++ (ai.skip size).ahead ∧ after = ai.skip size := by
  rw [archreaderReadData, Option.map_eq_some_iff] at read
  obtain ⟨part, found, same⟩ := read
  obtain ⟨rfl, rfl⟩ := Prod.mk.inj same
  obtain ⟨length, here⟩ := drop_of_readAt found
  exact ⟨length, here, rfl⟩

/-- The parser stays in the buffer exactly as long as the bytes hold the items. -/
theorem readItemsTraced_inside (mem : Mem) (buffer : List UInt8) (count pos : Nat) (d : Dico) :
    (∀ read ∈ (readItemsTraced mem buffer count pos d).1, read.Inside) ↔
      HoldsItems (d.items.map DicoItem.name) count (buffer.drop pos) := by
  induction count generalizing pos d with
  | zero => exact ⟨fun _ => .none .., fun _ _ member => nomatch member⟩
  | succ count ih =>
    rw [holdsItems_succ, readItemsTraced]
    by_cases room : pos + 6 ≤ buffer.length
    · have heads : ∀ read ∈ headReads buffer.length pos, read.Inside := by
        intro read member
        simp only [headReads, List.mem_cons, List.not_mem_nil, or_false] at member
        unfold BufferRead.Inside
        rcases member with rfl | rfl | rfl | rfl
        all_goals
          simp only
          omega
      obtain ⟨type, sect, k0, k1, s0, s1, rest, here⟩ : ∃ type sect k0 k1 s0 s1 rest,
          buffer.drop pos = type :: sect :: k0 :: k1 :: s0 :: s1 :: rest := by
        have long : 6 ≤ (buffer.drop pos).length := by
          rw [List.length_drop]
          omega
        match buffer.drop pos, long with
        | _ :: _ :: _ :: _ :: _ :: _ :: _, _ => exact ⟨_, _, _, _, _, _, _, rfl⟩
      have further (before part after : List UInt8) (place : Nat) (atPlace : place = before.length)
          (short : place ≤ 6)
          (same : type :: sect :: k0 :: k1 :: s0 :: s1 :: rest = before ++ (part ++ after)) :
          heapBytes mem buffer (pos + place) part.length = part := by
        subst atPlace
        apply heapBytes_of_drop
        · exact drop_add_of_drop (here.trans same)
        · omega
      have type' : heapBytes mem buffer pos 1 = [type] := further [] [type] _ 0 rfl (by decide) rfl
      have sect' : heapBytes mem buffer (pos + 1) 1 = [sect] :=
        further [type] [sect] _ 1 rfl (by decide) rfl
      have key' : heapBytes mem buffer (pos + 2) 2 = [k0, k1] :=
        further [type, sect] [k0, k1] _ 2 rfl (by decide) rfl
      have size' : heapBytes mem buffer (pos + 4) 2 = [s0, s1] :=
        further [type, sect, k0, k1] [s0, s1] _ 4 rfl (by decide) rfl
      have behind : buffer.length = pos + 6 + rest.length := by
        have length := congrArg List.length here
        simp only [List.length_drop, List.length_cons] at length
        omega
      rw [here, type', sect', key', size']
      have one (byte : UInt8) : UInt8.ofNat (leNat [byte]) = byte := by
        rw [leNat, leNat, Nat.mul_zero, Nat.add_zero, UInt8.ofNat_toNat]
      simp only [one, headPair, Option.some.injEq, exists_eq_left']
      cases added : dicoAddGeneric d sect (UInt16.ofNat (leNat [k0, k1]))
        (heapBytes mem buffer (pos + 6) (leNat [s0, s1])) type with
      | none =>
        have taken : (sect, UInt16.ofNat (leNat [k0, k1])) ∈ d.items.map DicoItem.name := by
          by_contra fresh
          rw [dicoAddGeneric, dif_pos fresh] at added
          cases added
        exact ⟨fun _ => .inr taken, fun _ => heads⟩
      | some d' =>
        obtain ⟨fresh, items⟩ := dicoAddGeneric_eq_some.mp added
        have names : d'.items.map DicoItem.name =
            d.items.map DicoItem.name ++ [(sect, UInt16.ofNat (leNat [k0, k1]))] := by
          rw [items, List.map_append]
          rfl
        have beyond : rest.drop (leNat [s0, s1]) = buffer.drop (pos + 6 + leNat [s0, s1]) := by
          have split : buffer.drop pos = [type, sect, k0, k1, s0, s1] ++ rest := here
          have after : buffer.drop (pos + 6) = rest := drop_add_of_drop split
          rw [← List.drop_drop, after]
        have onward := ih (pos + 6 + leNat [s0, s1]) d'
        rw [names, ← beyond] at onward
        constructor
        · intro inside
          have payload := inside ⟨buffer.length, pos + 6, leNat [s0, s1]⟩
            (List.mem_append_right _ List.mem_cons_self)
          have long : leNat [s0, s1] ≤ rest.length := by
            unfold BufferRead.Inside at payload
            simp only at payload
            omega
          have tail := onward.mp fun read member =>
            inside read (List.mem_append_right _ (List.mem_cons_of_mem _ member))
          exact .inl ⟨_, _, (encode_make long).symm, fresh, tail⟩
        · rintro (⟨item, after, same, -, holds⟩ | taken)
          · obtain ⟨name, length, split⟩ := encode_append_eq same.symm
            have long : leNat [s0, s1] ≤ rest.length := by
              rw [← split, ← length, List.length_append]
              omega
            have after' : after = rest.drop (leNat [s0, s1]) := by
              rw [← split, ← length, List.drop_left]
            rw [name, after'] at holds
            intro read member
            rcases List.mem_append.mp member with head | later
            · exact heads read head
            rcases List.mem_cons.mp later with rfl | tail
            · unfold BufferRead.Inside
              simp only
              omega
            · exact onward.mpr holds read tail
          · exact absurd taken fresh
    · -- the head of the item does not fit
      have short : (buffer.drop pos).length < 6 := by
        rw [List.length_drop]
        omega
      constructor
      · intro inside
        have size : (⟨buffer.length, pos + 4, 2⟩ : BufferRead).Inside := by
          apply inside
          split
          · simp [headReads]
          · simp [headReads]
        unfold BufferRead.Inside at size
        simp only at size
        omega
      · rintro (⟨item, rest, same, -⟩ | ⟨pair, head, -⟩)
        · rw [same, List.length_append, length_encodeItem] at short
          omega
        · have long := six_le_of_headPair head
          omega

/-! ## Whole records -/

/-- A body holds what its first two bytes announce. -/
theorem holdsBody_iff {body : List UInt8} :
    HoldsBody body ↔ 2 ≤ body.length ∧ HoldsItems [] (leNat (body.take 2)) (body.drop 2) := by
  constructor
  · rintro ⟨count, bytes, small, rfl, holds⟩
    have front : (leBytes 2 count ++ bytes).take 2 = leBytes 2 count :=
      List.take_left' (length_leBytes 2 count)
    have back : (leBytes 2 count ++ bytes).drop 2 = bytes :=
      List.drop_left' (length_leBytes 2 count)
    rw [front, back, leNat_leBytes_of_lt small, List.length_append, length_leBytes]
    exact ⟨Nat.le_add_right 2 _, holds⟩
  · rintro ⟨two, holds⟩
    match body, two, holds with
    | low :: high :: bytes, _, holds =>
      refine ⟨leNat [low, high], bytes, leNat_pair_lt low high, ?_, holds⟩
      have digits : leBytes 2 (leNat [low, high]) = [low, high] := by
        apply leNat_injective
        · rw [length_leBytes]
          rfl
        · exact leNat_leBytes_of_lt (leNat_pair_lt low high)
      rw [digits]
      rfl

/-- A record ahead is checked and parsed. -/
theorem archreaderReadDicoTraced_of_ahead (mem : Mem) {ai : ArchReader} {body : List UInt8}
    (ahead : ai.DicoAhead body) :
    (archreaderReadDicoTraced mem ai).1 =
      ⟨body.length, 0, body.length⟩ :: ⟨body.length, 0, 2⟩ ::
        (readItemsTraced mem body (leNat (heapBytes mem body 0 2)) 2 Dico.alloc).1 := by
  obtain ⟨version, len, sum, rest, lenSize, lenValue, sumSize, good, here⟩ := ahead
  have supported : ¬(ai.filefmtver ≠ 1 ∧ ai.filefmtver ≠ 2) := by omega
  have atBody := ArchReader.ahead_skip here
  have atSum := ArchReader.ahead_skip atBody
  have readLen := archreaderReadData_of_ahead here rfl
  have readBody := archreaderReadData_of_ahead atBody rfl
  have readSum := archreaderReadData_of_ahead atSum sumSize.symm
  have matching : ¬(fletcher32 body).toNat ≠ leNat sum := fun bad => bad good
  rw [archreaderReadDicoTraced]
  simp only [if_neg supported, ← lenSize, readLen, lenValue, readBody, readSum, if_neg matching]

/-- Without a complete record and the right checksum nothing is parsed. -/
theorem archreaderReadDicoTraced_else (mem : Mem) {ai : ArchReader}
    (missing : ∀ body, ¬ai.DicoAhead body) :
    ∀ read ∈ (archreaderReadDicoTraced mem ai).1, read.Inside := by
  unfold archreaderReadDicoTraced
  by_cases unsupported : ai.filefmtver ≠ 1 ∧ ai.filefmtver ≠ 2
  · rw [if_pos unsupported]
    exact fun _ member => nomatch member
  rw [if_neg unsupported]
  generalize width : (if ai.filefmtver = 1 then 2 else 4) = lenSize
  cases readLen : archreaderReadData ai lenSize with
  | none => exact fun _ member => nomatch member
  | some read =>
    obtain ⟨len, atBody⟩ := read
    obtain ⟨lenLength, lenHere, atBody'⟩ := archreaderReadData_ahead readLen
    cases readBody : archreaderReadData atBody (leNat len) with
    | none =>
      simp only [readBody]
      exact fun _ member => nomatch member
    | some read =>
      obtain ⟨buffer, atSum⟩ := read
      obtain ⟨bodyLength, bodyHere, atSum'⟩ := archreaderReadData_ahead readBody
      cases readSum : archreaderReadData atSum 4 with
      | none =>
        simp only [readBody, readSum]
        exact fun _ member => nomatch member
      | some read =>
        obtain ⟨sum, after⟩ := read
        obtain ⟨sumLength, sumHere, -⟩ := archreaderReadData_ahead readSum
        have bad : (fletcher32 buffer).toNat ≠ leNat sum := by
          intro good
          apply missing buffer
          refine ⟨by omega, len, sum, (atSum.skip 4).ahead, lenLength.trans width.symm,
            bodyLength.symm, sumLength, good, ?_⟩
          rw [lenHere, ← atBody', bodyHere, ← atSum', sumHere]
        simp only [readBody, readSum, if_pos bad]
        intro read member
        rw [List.mem_singleton.mp member]
        exact Nat.le_of_eq (Nat.zero_add _)

/-- The parser only reads bytes of the body, for every content of the archive behind the fsid of
a header, exactly if a body whose checksum matches holds what it announces. -/
theorem parser_inside_iff (mem : Mem) (ai : ArchReader) :
    (archreaderReadDicoTraced mem ai).2 = archreaderReadDico mem ai ∧
      ((∀ read ∈ (archreaderReadDicoTraced mem ai).1, read.Inside) ↔
        ∀ body, ai.DicoAhead body → HoldsBody body) := by
  refine ⟨archreaderReadDicoTraced_result mem ai, ?_⟩
  constructor
  · intro inside body ahead
    rw [archreaderReadDicoTraced_of_ahead mem ahead] at inside
    have two : 2 ≤ body.length := by
      have count := inside ⟨body.length, 0, 2⟩ (List.mem_cons_of_mem _ List.mem_cons_self)
      unfold BufferRead.Inside at count
      simp only at count
      omega
    have items := (readItemsTraced_inside mem body (leNat (heapBytes mem body 0 2)) 2
      Dico.alloc).mp fun read member =>
        inside read (List.mem_cons_of_mem _ (List.mem_cons_of_mem _ member))
    rw [heapBytes_front mem two] at items
    exact holdsBody_iff.mpr ⟨two, items⟩
  · intro holds
    by_cases complete : ∃ body, ai.DicoAhead body
    · obtain ⟨body, ahead⟩ := complete
      obtain ⟨two, items⟩ := holdsBody_iff.mp (holds body ahead)
      rw [← heapBytes_front mem two] at items
      rw [archreaderReadDicoTraced_of_ahead mem ahead]
      intro read member
      rcases List.mem_cons.mp member with rfl | member
      · exact Nat.le_of_eq (Nat.zero_add _)
      rcases List.mem_cons.mp member with rfl | member
      · exact Nat.le_trans (Nat.le_of_eq (Nat.zero_add _)) two
      · exact (readItemsTraced_inside mem body _ 2 Dico.alloc).mpr items read member
    · exact archreaderReadDicoTraced_else mem (not_exists.mp complete)

/-- A header with an empty body: the number of items is read behind the buffer, and if there are
zeros the header is accepted. -/
theorem parser_outside_empty_body :
    let mem : Mem := ⟨fun _ => 0, fun _ => 0⟩
    let ai := { archreaderInit with file := [0, 0, 0, 0, 255, 255, 255, 255], filefmtver := 2 }
    (∃ read ∈ (archreaderReadDicoTraced mem ai).1, ¬read.Inside) ∧
      archreaderReadDico mem ai = .ok Dico.alloc { ai with pos := 8 } := by
  refine ⟨⟨⟨0, 0, 2⟩, ?_, ?_⟩, rfl⟩
  · decide
  · decide

/-! ## Accessors -/

/-- A successful call of an accessor of numbers returns the number that is stored in this width. -/
def ReturnsStored (width : Nat) (d : Dico) (sect : UInt8) (key : UInt16)
    (get : Mem → Option Nat) : Prop :=
  ∀ mem value, get mem = some value →
    ∃ item, d.find sect key = some item ∧ item.data.length = width ∧ value = leNat item.data

/-- A successful call of `dico_get_string` leaves a string in its buffer. -/
def ReturnsString (d : Dico) (sect : UInt8) (key : UInt16) (bufsize : Nat) : Prop :=
  ∀ data, dicoGetString d sect key bufsize = some data →
    (stringBuffer bufsize data).length = bufsize ∧ 0 ∈ stringBuffer bufsize data

/-- What `dico_get_data` needs to succeed. -/
theorem dicoGetData_eq_some {d : Dico} {sect : UInt8} {key : UInt16} {maxsize : Nat}
    {data : List UInt8} :
    dicoGetData d sect key maxsize = some data ↔
      0 < maxsize ∧ ∃ item, d.find sect key = some item ∧ item.data.length ≤ maxsize ∧
        item.data = data := by
  unfold dicoGetData dicoGetGeneric
  by_cases room : maxsize < 1
  · have empty : ¬0 < maxsize := by omega
    simp only [if_pos room, empty, false_and, reduceCtorEq]
  · have some' : 0 < maxsize := by omega
    simp only [if_neg room, some', true_and]
    cases found : d.find sect key with
    | none => simp only [reduceCtorEq, false_and, exists_false]
    | some item =>
      simp only [Option.some.injEq, exists_eq_left']
      by_cases big : item.data.length > maxsize
      · have wide : ¬item.data.length ≤ maxsize := by omega
        simp only [if_pos big, wide, false_and, reduceCtorEq]
      · have fits : item.data.length ≤ maxsize := by omega
        simp only [if_neg big, fits, true_and, Option.some.injEq]

/-- The number an accessor reads is the stored one exactly if the item is not shorter than the
variable it is copied to. -/
theorem returnsStored_word_iff {width : Nat} (wide : 0 < width) (d : Dico) (sect : UInt8)
    (key : UInt16) :
    ReturnsStored width d sect key (fun mem => dicoGetWord mem width d sect key) ↔
      ∀ item, d.find sect key = some item → width ≤ item.data.length := by
  constructor
  · intro returns item found
    apply Nat.le_of_not_lt
    intro short
    have read : dicoGetData d sect key width = some item.data :=
      dicoGetData_eq_some.mpr ⟨wide, item, found, Nat.le_of_lt short, rfl⟩
    obtain ⟨other, found', length, -⟩ := returns ⟨fun _ => 0, fun _ => 0⟩ _
      (congrArg (Option.map _) read)
    rw [found] at found'
    cases found'
    omega
  · intro long mem value get
    obtain ⟨data, read, rfl⟩ := Option.map_eq_some_iff.mp get
    obtain ⟨-, item, found, fits, rfl⟩ := dicoGetData_eq_some.mp read
    have length : item.data.length = width := Nat.le_antisymm fits (long item found)
    refine ⟨item, found, length, ?_⟩
    rw [length, Nat.sub_self, List.range_zero, List.map_nil, List.append_nil]

/-- A number of the width of a variable is not changed by being stored in it. -/
theorem returnsStored_map {width : Nat} {d : Dico} {sect : UInt8} {key : UInt16} {α : Type}
    (ofNat : Nat → α) (toNat : α → Nat)
    (same : ∀ number, number < 256 ^ width → toNat (ofNat number) = number) :
    ReturnsStored width d sect key
        (fun mem => ((dicoGetWord mem width d sect key).map ofNat).map toNat) ↔
      ReturnsStored width d sect key (fun mem => dicoGetWord mem width d sect key) := by
  have kept (mem : Mem) : ((dicoGetWord mem width d sect key).map ofNat).map toNat =
      dicoGetWord mem width d sect key := by
    cases read : dicoGetData d sect key width with
    | none => rw [dicoGetWord, read, Option.map_none, Option.map_none, Option.map_none]
    | some data =>
      obtain ⟨-, item, -, fits, rfl⟩ := dicoGetData_eq_some.mp read
      rw [dicoGetWord, read, Option.map_some, Option.map_some, Option.map_some, same]
      apply Nat.lt_of_lt_of_eq (leNat_lt _)
      rw [List.length_append, List.length_map, List.length_range, Nat.add_sub_cancel' fits]
  simp only [kept]

/-- The buffer of `dico_get_string` holds a string exactly if the item does not fill it, or brings
the terminating NUL itself. -/
theorem returnsString_iff (d : Dico) (sect : UInt8) (key : UInt16) (bufsize : Nat) :
    ReturnsString d sect key bufsize ↔
      ∀ item, d.find sect key = some item → 0 < bufsize → item.data.length = bufsize →
        0 ∈ item.data := by
  constructor
  · intro returns item found room full
    have read : dicoGetData d sect key bufsize = some item.data :=
      dicoGetData_eq_some.mpr ⟨room, item, found, Nat.le_of_eq full, rfl⟩
    have ends := (returns item.data read).2
    rwa [stringBuffer, full, Nat.sub_self, List.replicate_zero, List.append_nil] at ends
  · intro ends data get
    obtain ⟨room, item, found, fits, rfl⟩ := dicoGetData_eq_some.mp get
    constructor
    · rw [stringBuffer, List.length_append, List.length_replicate, Nat.add_sub_cancel' fits]
    · rcases Nat.lt_or_eq_of_le fits with shorter | full
      · apply List.mem_append_right
        exact List.mem_replicate.mpr ⟨Nat.sub_ne_zero_of_lt shorter, rfl⟩
      · exact List.mem_append_left _ (ends item found room full)

/-- The accessors return what is stored, whatever bytes a dico was built from, exactly if the item
is not shorter than the number asked for, and does not fill the buffer of a string without a
NUL. -/
theorem accessors_exact_iff (d : Dico) (sect : UInt8) (key : UInt16) :
    (ReturnsStored 2 d sect key (fun mem => (dicoGetU16 mem d sect key).map UInt16.toNat) ↔
      ∀ item, d.find sect key = some item → 2 ≤ item.data.length) ∧
    (ReturnsStored 4 d sect key (fun mem => (dicoGetU32 mem d sect key).map UInt32.toNat) ↔
      ∀ item, d.find sect key = some item → 4 ≤ item.data.length) ∧
    (ReturnsStored 8 d sect key (fun mem => (dicoGetU64 mem d sect key).map UInt64.toNat) ↔
      ∀ item, d.find sect key = some item → 8 ≤ item.data.length) ∧
    ∀ bufsize, ReturnsString d sect key bufsize ↔
      ∀ item, d.find sect key = some item → 0 < bufsize → item.data.length = bufsize →
        0 ∈ item.data := by
  have two := returnsStored_word_iff (by decide : 0 < 2) d sect key
  have four := returnsStored_word_iff (by decide : 0 < 4) d sect key
  have eight := returnsStored_word_iff (by decide : 0 < 8) d sect key
  refine ⟨?_, ?_, ?_, returnsString_iff d sect key⟩
  · exact (returnsStored_map UInt16.ofNat UInt16.toNat fun number small =>
      UInt16.toNat_ofNat_of_lt' small).trans two
  · exact (returnsStored_map UInt32.ofNat UInt32.toNat fun number small =>
      UInt32.toNat_ofNat_of_lt' small).trans four
  · exact (returnsStored_map UInt64.ofNat UInt64.toNat fun number small =>
      UInt64.toNat_ofNat_of_lt' small).trans eight

/-- A header with a 16-bit item of one byte: the number read from it depends on the other byte of
the variable, and as a string it fills a buffer of one byte. -/
theorem accessors_short_item :
    let ai := { archreaderInit with
      file := [9, 0, 0, 0, 1, 0, 2, 0, 0, 0, 1, 0, 97, 101, 0, 123, 0], filefmtver := 2 }
    ∃ d after, archreaderReadDico ⟨fun _ => 0, fun _ => 0⟩ ai = .ok d after ∧
      dicoGetU16 ⟨fun _ => 0, fun _ => 0⟩ d 0 0 = some 97 ∧
      dicoGetU16 ⟨fun _ => 1, fun _ => 0⟩ d 0 0 = some 353 ∧
      dicoGetString d 0 0 1 = some [97] ∧ 0 ∉ stringBuffer 1 [97] := by
  refine ⟨⟨[DicoItem.make 0 0 [97] DicType.u16], ?_⟩, { archreaderInit with
      file := [9, 0, 0, 0, 1, 0, 2, 0, 0, 0, 1, 0, 97, 101, 0, 123, 0], filefmtver := 2,
      pos := 17 }, rfl, ?_, ?_, ?_, ?_⟩
  · decide
  · decide
  · decide
  · decide
  · decide

end FsArchiver
