import Mathlib.Tactic.Ring
import FsArchiver.Records

/-!
# The checksum

The two halves of `fletcher32` are the sum of the bytes and the sum of these sums, in the
representation of a remainder modulo 65535 by the numbers from 1 to 65535: every reduction keeps
the remainder, and no sum leaves the 32 bits between two reductions. A change of one byte changes
the first sum by less than the modulus. Two changes that leave it alone are opposite, and if they
are near to each other they change the second sum by less than the modulus.
-/
namespace FsArchiver

open Lib

/-! ## The sums -/

/-- The sum of the bytes. -/
def byteSum (data : List UInt8) : Nat := (data.map UInt8.toNat).sum

/-- The sum of the bytes, each as often as there are bytes from it on. -/
def weightedSum : List UInt8 → Nat
  | [] => 0
  | byte :: rest => (rest.length + 1) * byte.toNat + weightedSum rest

/-- The number from 1 to 65535 with the remainder of a number modulo 65535. -/
def representative (number : Nat) : Nat :=
  if number % 65535 = 0 then 65535 else number % 65535

@[simp] theorem byteSum_nil : byteSum [] = 0 := rfl

@[simp] theorem byteSum_cons (byte : UInt8) (rest : List UInt8) :
    byteSum (byte :: rest) = byte.toNat + byteSum rest := by
  simp only [byteSum, List.map_cons, List.sum_cons]

/-- A number with the remainder that is in the range of the representatives. -/
theorem eq_representative {half number : Nat} (pos : 0 < half) (small : half ≤ 65535)
    (rem : half % 65535 = number % 65535) : half = representative number := by
  unfold representative
  split <;> omega

/-! ## Additions that do not wrap -/

/-- An addition of the source, which fails where it would leave the 32 bits. -/
def addExact (left right : UInt32) : Option UInt32 :=
  if left.toNat + right.toNat < 4294967296 then some (left + right) else none

/-- `fletcherReduce` with its addition checked. -/
def fletcherReduceExact (sum : UInt32) : Option UInt32 :=
  addExact (sum &&& (0xffff : UInt32)) (sum >>> (16 : UInt32))

/-- `fletcherLoop` with all its additions checked. -/
def fletcherLoopExact : List UInt8 → Nat → UInt32 → UInt32 → Option (UInt32 × UInt32)
  | [], _, sum1, sum2 => some (sum1, sum2)
  | byte :: rest, tlen, sum1, sum2 => do
    let sum1 ← addExact sum1 byte.toUInt32
    let sum2 ← addExact sum2 sum1
    if tlen ≤ 1 ∨ rest = [] then
      let sum1 ← fletcherReduceExact sum1
      let sum2 ← fletcherReduceExact sum2
      fletcherLoopExact rest 360 sum1 sum2
    else fletcherLoopExact rest (tlen - 1) sum1 sum2

/-- `fletcher32` with all its additions checked. -/
def fletcher32Exact (data : List UInt8) : Option UInt32 := do
  let sums ← fletcherLoopExact data 360 0xffff 0xffff
  let sum1 ← fletcherReduceExact sums.1
  let sum2 ← fletcherReduceExact sums.2
  some (sum2 <<< 16 ||| sum1)

/-- An addition with room for its result. -/
theorem addExact_eq {left right : UInt32} (room : left.toNat + right.toNat < 4294967296) :
    addExact left right = some (left + right) ∧
      (left + right).toNat = left.toNat + right.toNat := by
  constructor
  · exact if_pos room
  · rw [UInt32.toNat_add]
    exact Nat.mod_eq_of_lt room

/-- A reduction adds the carry to the low half, and never leaves the 32 bits. -/
theorem fletcherReduceExact_eq (sum : UInt32) :
    fletcherReduceExact sum = some (fletcherReduce sum) ∧
      (fletcherReduce sum).toNat = sum.toNat % 65536 + sum.toNat / 65536 := by
  have bound := sum.toNat_lt
  have low : (sum &&& (0xffff : UInt32)).toNat = sum.toNat % 65536 := by
    rw [UInt32.toNat_and]
    exact Nat.and_two_pow_sub_one_eq_mod sum.toNat 16
  have high : (sum >>> (16 : UInt32)).toNat = sum.toNat / 65536 := by
    rw [UInt32.toNat_shiftRight]
    exact Nat.shiftRight_eq_div_pow sum.toNat 16
  have room : (sum &&& (0xffff : UInt32)).toNat + (sum >>> (16 : UInt32)).toNat < 4294967296 := by
    omega
  obtain ⟨exact, value⟩ := addExact_eq room
  rw [low, high] at value
  exact ⟨exact, value⟩

/-! ## The loops -/

/-- The two sums when so many bytes were added since the last reduction. -/
structure Bounded (sum1 sum2 : UInt32) (added : Nat) : Prop where
  /-- Zero is represented by the modulus. -/
  pos1 : 0 < sum1.toNat
  /-- The second sum is never smaller than the first one it has received. -/
  pos2 : 0 < sum2.toNat
  /-- The first sum behind a reduction, and the bytes. -/
  small1 : sum1.toNat ≤ 65537 + added * 255
  /-- The second sum behind a reduction, and as many first sums. -/
  small2 : sum2.toNat ≤ 131070 + added * 157337

/-- The sums behind the loops: as small as behind a reduction, with these remainders. -/
structure Settled (sum1 sum2 : UInt32) (total1 total2 : Nat) : Prop where
  /-- Behind a reduction. -/
  bounded : Bounded sum1 sum2 0
  /-- The remainder of the first sum. -/
  rem1 : sum1.toNat % 65535 = total1 % 65535
  /-- The remainder of the second sum. -/
  rem2 : sum2.toNat % 65535 = total2 % 65535

/-- One byte more. -/
theorem Bounded.add {sum1 sum2 : UInt32} {added : Nat} (bounded : Bounded sum1 sum2 added)
    (few : added < 360) (byte : UInt8) :
    addExact sum1 byte.toUInt32 = some (sum1 + byte.toUInt32) ∧
      addExact sum2 (sum1 + byte.toUInt32) = some (sum2 + (sum1 + byte.toUInt32)) ∧
      (sum1 + byte.toUInt32).toNat = sum1.toNat + byte.toNat ∧
      (sum2 + (sum1 + byte.toUInt32)).toNat = sum2.toNat + (sum1.toNat + byte.toNat) ∧
      Bounded (sum1 + byte.toUInt32) (sum2 + (sum1 + byte.toUInt32)) (added + 1) := by
  obtain ⟨pos1, pos2, small1, small2⟩ := bounded
  have one := byte.toNat_lt
  have room1 : sum1.toNat + byte.toUInt32.toNat < 4294967296 := by
    rw [UInt8.toNat_toUInt32]
    omega
  obtain ⟨exact1, value1⟩ := addExact_eq room1
  rw [UInt8.toNat_toUInt32] at value1
  have room2 : sum2.toNat + (sum1 + byte.toUInt32).toNat < 4294967296 := by
    rw [value1]
    omega
  obtain ⟨exact2, value2⟩ := addExact_eq room2
  rw [value1] at value2
  refine ⟨exact1, exact2, value1, value2, ?_, ?_, ?_, ?_⟩
  · omega
  · omega
  · omega
  · omega

/-- A reduction makes the sums small again and keeps their remainders. -/
theorem Bounded.reduce {sum1 sum2 : UInt32} {added : Nat} (bounded : Bounded sum1 sum2 added)
    (few : added ≤ 360) :
    Settled (fletcherReduce sum1) (fletcherReduce sum2) sum1.toNat sum2.toNat := by
  obtain ⟨pos1, pos2, small1, small2⟩ := bounded
  have value1 := (fletcherReduceExact_eq sum1).2
  have value2 := (fletcherReduceExact_eq sum2).2
  have small : Bounded (fletcherReduce sum1) (fletcherReduce sum2) 0 := by
    constructor
    · omega
    · omega
    · omega
    · omega
  have rem1 : (fletcherReduce sum1).toNat % 65535 = sum1.toNat % 65535 := by omega
  have rem2 : (fletcherReduce sum2).toNat % 65535 = sum2.toNat % 65535 := by omega
  exact ⟨small, rem1, rem2⟩

/-- The loops add up without wrapping. Between two reductions, `tlen` tells how many bytes were
added. -/
theorem fletcherLoopExact_eq (data : List UInt8) (tlen : Nat) (sum1 sum2 : UInt32)
    (total1 total2 : Nat) (started : data = [] → tlen = 360) (within : tlen ≤ 360)
    (more : data ≠ [] → 0 < tlen) (bounded : Bounded sum1 sum2 (360 - tlen))
    (rem1 : sum1.toNat % 65535 = total1 % 65535) (rem2 : sum2.toNat % 65535 = total2 % 65535) :
    fletcherLoopExact data tlen sum1 sum2 = some (fletcherLoop data tlen sum1 sum2) ∧
      Settled (fletcherLoop data tlen sum1 sum2).1 (fletcherLoop data tlen sum1 sum2).2
        (total1 + byteSum data) (total2 + data.length * total1 + weightedSum data) := by
  induction data generalizing tlen sum1 sum2 total1 total2 with
  | nil =>
    have whole := started rfl
    subst whole
    simp only [fletcherLoopExact, fletcherLoop, byteSum_nil, weightedSum, List.length_nil,
      Nat.zero_mul, Nat.add_zero, true_and]
    exact ⟨bounded, rem1, rem2⟩
  | cons byte rest ih =>
    have pos : 0 < tlen := more (List.cons_ne_nil _ _)
    have few : 360 - tlen < 360 := by omega
    obtain ⟨exact1, exact2, value1, value2, next⟩ := bounded.add few byte
    have totals1 : total1 + byteSum (byte :: rest) = total1 + byte.toNat + byteSum rest := by
      rw [byteSum_cons, Nat.add_assoc]
    have totals2 : total2 + (byte :: rest).length * total1 + weightedSum (byte :: rest) =
        total2 + (total1 + byte.toNat) + rest.length * (total1 + byte.toNat) +
          weightedSum rest := by
      rw [List.length_cons, weightedSum]
      ring
    rw [totals1, totals2]
    simp only [fletcherLoopExact, fletcherLoop, exact1, exact2, Option.bind_eq_bind,
      Option.bind_some]
    split
    next reduces =>
      have settled := next.reduce (by omega)
      have reduced1 := settled.rem1
      have reduced2 := settled.rem2
      rw [(fletcherReduceExact_eq _).1, (fletcherReduceExact_eq _).1, Option.bind_some,
        Option.bind_some]
      apply ih
      · exact fun _ => rfl
      · exact Nat.le_refl _
      · exact fun _ => by decide
      · exact settled.bounded
      · omega
      · omega
    next goesOn =>
      rw [not_or] at goesOn
      have step : 360 - tlen + 1 = 360 - (tlen - 1) := by omega
      rw [step] at next
      apply ih
      · exact fun ended => absurd ended goesOn.2
      · omega
      · intro
        omega
      · exact next
      · omega
      · omega

/-- The two halves of the checksum. -/
theorem fletcher32Exact_eq (data : List UInt8) :
    fletcher32Exact data = some (fletcher32 data) ∧
      (fletcher32 data).toNat =
        representative (weightedSum data) * 65536 + representative (byteSum data) := by
  have loop : fletcherLoopExact data 360 0xffff 0xffff =
        some (fletcherLoop data 360 0xffff 0xffff) ∧
      Settled (fletcherLoop data 360 0xffff 0xffff).1 (fletcherLoop data 360 0xffff 0xffff).2
        (0 + byteSum data) (0 + data.length * 0 + weightedSum data) := by
    apply fletcherLoopExact_eq
    · exact fun _ => rfl
    · exact Nat.le_refl _
    · exact fun _ => by decide
    · exact ⟨by decide, by decide, by decide, by decide⟩
    · rfl
    · rfl
  obtain ⟨exact, settled⟩ := loop
  rw [Nat.zero_add, Nat.mul_zero, Nat.add_zero, Nat.zero_add] at settled
  rw [fletcher32Exact, fletcher32, exact]
  generalize fletcherLoop data 360 0xffff 0xffff = sums at settled
  obtain ⟨⟨pos1, pos2, small1, small2⟩, rem1, rem2⟩ := settled
  obtain ⟨exact1, value1⟩ := fletcherReduceExact_eq sums.1
  obtain ⟨exact2, value2⟩ := fletcherReduceExact_eq sums.2
  have half1 : (fletcherReduce sums.1).toNat = representative (byteSum data) := by
    apply eq_representative
    · omega
    · omega
    · omega
  have half2 : (fletcherReduce sums.2).toNat = representative (weightedSum data) := by
    apply eq_representative
    · omega
    · omega
    · omega
  have low : (fletcherReduce sums.1).toNat < 2 ^ 16 := by omega
  have high : (fletcherReduce sums.2).toNat * 2 ^ 16 < 2 ^ 32 := by omega
  constructor
  · simp only [Option.bind_eq_bind, Option.bind_some, exact1, exact2]
  · rw [← half1, ← half2, UInt32.toNat_or, UInt32.toNat_shiftLeft]
    show (fletcherReduce sums.2).toNat <<< 16 % 2 ^ 32 ||| (fletcherReduce sums.1).toNat = _
    rw [Nat.shiftLeft_eq, Nat.mod_eq_of_lt high, ← Nat.shiftLeft_eq,
      ← Nat.shiftLeft_add_eq_or_of_lt low, Nat.shiftLeft_eq]

/-- Equal checksums are equal sums modulo 65535. -/
theorem sums_of_fletcher32 {left right : List UInt8} (same : fletcher32 left = fletcher32 right) :
    byteSum left % 65535 = byteSum right % 65535 ∧
      weightedSum left % 65535 = weightedSum right % 65535 := by
  have atLeft := (fletcher32Exact_eq left).2
  have atRight := (fletcher32Exact_eq right).2
  rw [same, atRight] at atLeft
  unfold representative at atLeft
  split at atLeft <;> split at atLeft <;> split at atLeft <;> split at atLeft <;> omega

/-! ## Changed bytes -/

/-- A change of one byte changes the sum of the bytes by the change of the byte. -/
theorem byteSum_set {data : List UInt8} {i : Nat} (inside : i < data.length) (value : UInt8) :
    byteSum (data.set i value) + data[i].toNat = byteSum data + value.toNat := by
  induction data generalizing i with
  | nil => exact absurd inside (Nat.not_lt_zero i)
  | cons byte rest ih =>
    cases i with
    | zero =>
      simp only [List.set_cons_zero, byteSum_cons, List.getElem_cons_zero]
      omega
    | succ i =>
      have later := ih (Nat.lt_of_succ_lt_succ inside)
      simp only [List.set_cons_succ, byteSum_cons, List.getElem_cons_succ]
      omega

/-- It changes the second sum by so many times that change. -/
theorem weightedSum_set {data : List UInt8} {i : Nat} (inside : i < data.length) (value : UInt8) :
    weightedSum (data.set i value) + (data.length - i) * data[i].toNat =
      weightedSum data + (data.length - i) * value.toNat := by
  induction data generalizing i with
  | nil => exact absurd inside (Nat.not_lt_zero i)
  | cons byte rest ih =>
    cases i with
    | zero =>
      simp only [List.set_cons_zero, weightedSum, List.getElem_cons_zero, List.length_cons,
        Nat.sub_zero]
      omega
    | succ i =>
      have later := ih (Nat.lt_of_succ_lt_succ inside)
      simp only [List.set_cons_succ, weightedSum, List.getElem_cons_succ, List.length_cons,
        List.length_set, Nat.add_sub_add_right]
      omega

/-- The checksum detects the change of one byte. -/
theorem fletcher32_set_ne {data : List UInt8} {i : Nat} {value : UInt8}
    (changes : data.set i value ≠ data) : fletcher32 (data.set i value) ≠ fletcher32 data := by
  have inside : i < data.length := by
    apply Nat.lt_of_not_le
    intro outside
    exact changes (List.set_eq_of_length_le outside)
  have differ : value.toNat ≠ data[i].toNat := by
    intro equal
    apply changes
    rw [UInt8.toNat_inj.mp equal, List.set_getElem_self]
  intro same
  have sums := (sums_of_fletcher32 same).1
  have changed := byteSum_set inside value
  have new := value.toNat_lt
  have old := data[i].toNat_lt
  omega

/-- The checksum detects the change of two bytes that are at most 256 positions apart. -/
theorem fletcher32_set_set_ne {data : List UInt8} {i j : Nat} {first second : UInt8}
    (order : i < j) (near : j ≤ i + 256) (inside : j < data.length) (differ : first ≠ data[i]) :
    fletcher32 ((data.set i first).set j second) ≠ fletcher32 data := by
  intro same
  obtain ⟨sums1, sums2⟩ := sums_of_fletcher32 same
  have earlier : i < data.length := Nat.lt_trans order inside
  have inside' : j < (data.set i first).length := by rwa [List.length_set]
  have kept : (data.set i first)[j] = data[j] := List.getElem_set_of_ne (Nat.ne_of_lt order) ..
  have byte1 := byteSum_set earlier first
  have byte2 := byteSum_set inside' second
  have weighted1 := weightedSum_set earlier first
  have weighted2 := weightedSum_set inside' second
  rw [kept] at byte2 weighted2
  rw [List.length_set] at weighted2
  have old1 := data[i].toNat_lt
  have old2 := data[j].toNat_lt
  have new1 := first.toNat_lt
  have new2 := second.toNat_lt
  -- the two changes are opposite
  have opposite : first.toNat + second.toNat = data[i].toNat + data[j].toNat := by omega
  obtain ⟨distance, apart⟩ := Nat.exists_eq_add_of_lt order
  obtain ⟨behind, weight⟩ : ∃ behind, data.length - j = behind := ⟨_, rfl⟩
  have weight' : data.length - i = behind + (distance + 1) := by omega
  rw [weight] at weighted2
  simp only [weight', Nat.add_mul behind (distance + 1)] at weighted1
  have cancel := congrArg (behind * ·) opposite
  simp only [Nat.mul_add] at cancel
  have short : distance + 1 ≤ 256 := by omega
  have bound1 : (distance + 1) * data[i].toNat ≤ 256 * 255 :=
    Nat.mul_le_mul short (Nat.le_of_lt_succ old1)
  have bound2 : (distance + 1) * first.toNat ≤ 256 * 255 :=
    Nat.mul_le_mul short (Nat.le_of_lt_succ new1)
  have equal : (distance + 1) * first.toNat = (distance + 1) * data[i].toNat := by omega
  exact differ (UInt8.toNat_inj.mp (Nat.eq_of_mul_eq_mul_left (Nat.succ_pos _) equal))

/-- Two byte strings of one length that differ in one byte, or in two bytes at most 256 positions
apart. -/
structure SmallDamage (left right : List UInt8) : Prop where
  /-- The damage does not move anything. -/
  length : left.length = right.length
  /-- The positions of the damage. -/
  places : ∃ i j, i ≤ j ∧ j ≤ i + 256 ∧ ∀ k, left[k]? ≠ right[k]? ↔ k = i ∨ k = j

/-- The checksum detects small damage. -/
theorem SmallDamage.fletcher32_ne {left right : List UInt8} (damage : SmallDamage left right) :
    fletcher32 left ≠ fletcher32 right := by
  obtain ⟨length, i, j, order, near, places⟩ := damage
  have inside : ∀ k, k = i ∨ k = j → k < right.length := by
    intro k place
    apply Nat.lt_of_not_le
    intro outside
    apply (places k).mpr place
    rw [List.getElem?_eq_none outside, List.getElem?_eq_none (length ▸ outside)]
  have insideI := inside i (.inl rfl)
  have insideJ := inside j (.inr rfl)
  have insideI' : i < left.length := length ▸ insideI
  have insideJ' : j < left.length := length ▸ insideJ
  have damaged : (right.set i left[i]).set j left[j] = left := by
    apply List.ext_getElem?
    intro k
    by_cases atJ : k = j
    · subst atJ
      rw [List.getElem?_set_self (by rwa [List.length_set]), List.getElem?_eq_getElem insideJ']
    · by_cases atI : k = i
      · subst atI
        rw [List.getElem?_set_ne (Ne.symm atJ), List.getElem?_set_self insideI,
          List.getElem?_eq_getElem insideI']
      · have same : left[k]? = right[k]? := by
          apply Decidable.not_not.mp
          intro other
          exact ((places k).mp other).elim atI atJ
        rw [List.getElem?_set_ne (Ne.symm atJ), List.getElem?_set_ne (Ne.symm atI), same]
  have differ : left[i] ≠ right[i] := by
    intro equal
    apply (places i).mpr (.inl rfl)
    rw [List.getElem?_eq_getElem insideI', List.getElem?_eq_getElem insideI, equal]
  rcases Nat.eq_or_lt_of_le order with rfl | apart
  · rw [List.set_set] at damaged
    rw [← damaged]
    apply fletcher32_set_ne
    rw [damaged]
    rintro rfl
    exact differ rfl
  · rw [← damaged]
    exact fletcher32_set_set_ne apart near insideJ differ

/-! ## Damaged headers and blocks -/

/-- A dico whose stored checksum is not that of its body is not used. -/
theorem archreaderReadDico_of_bad_sum (mem : Mem) {ai : ArchReader} {len body rest : List UInt8}
    {origsum : UInt32} (version : ai.filefmtver = 1 ∨ ai.filefmtver = 2)
    (lenSize : len.length = if ai.filefmtver = 1 then 2 else 4)
    (lenValue : leNat len = body.length) (bad : fletcher32 body ≠ origsum)
    (here : ai.ahead = len ++ (body ++ (leBytes 4 origsum.toNat ++ rest))) :
    archreaderReadDico mem ai = .minor (ai.skip (len.length + body.length + 4)) := by
  have atBody := ArchReader.ahead_skip here
  have atSum := ArchReader.ahead_skip atBody
  have readLen := archreaderReadData_of_ahead here rfl
  have readBody := archreaderReadData_of_ahead atBody rfl
  have readSum := archreaderReadData_of_ahead atSum rfl
  rw [ArchReader.skip_skip] at readSum
  rw [length_leBytes] at readSum
  have supported : ¬(ai.filefmtver ≠ 1 ∧ ai.filefmtver ≠ 2) := by omega
  have differ : (fletcher32 body).toNat ≠ origsum.toNat := by
    intro equal
    exact bad (UInt32.toNat_inj.mp equal)
  rw [archreaderReadDico]
  simp only [if_neg supported, ← lenSize, readLen, lenValue, readBody, ArchReader.skip_skip,
    readSum, leNat_leBytes_uint32, if_pos differ, ne_eq]

/-- A block whose stored checksum is not that of its data is replaced by zeros. -/
theorem archreaderReadBlock_of_bad_sum {mem : Mem} {ai after : ArchReader} {d : Dico}
    {head : BlockHead} {data : List UInt8} (fields : readBlockHead mem d = some head)
    (read : archreaderReadData ai head.finalsize.toNat = some (data, after))
    (bad : fletcher32 data ≠ head.arblockcsumorig) :
    archreaderReadBlock mem ai d false =
      some (some (head.blkinfo (List.replicate head.curblocksize.toNat 0), false), ai) := by
  simp only [archreaderReadBlock, fields, Option.bind_eq_bind, Option.bind_some,
    Bool.false_eq_true, ↓reduceIte, read, if_neg bad]

/-- No addition of `fletcher32` wraps, its result are the two sums modulo 65535, and so a header
or a block with small damage is noticed. -/
theorem small_damage_noticed :
    (∀ data, fletcher32Exact data = some (fletcher32 data) ∧
      (fletcher32 data).toNat =
        representative (weightedSum data) * 65536 + representative (byteSum data)) ∧
    ∀ stored damaged, SmallDamage stored damaged →
      fletcher32 stored ≠ fletcher32 damaged ∧
      (∀ (mem : Mem) (ai : ArchReader) (len rest : List UInt8),
        ai.filefmtver = 1 ∨ ai.filefmtver = 2 →
        (len.length = if ai.filefmtver = 1 then 2 else 4) → leNat len = damaged.length →
        ai.ahead = len ++ (damaged ++ (leBytes 4 (fletcher32 stored).toNat ++ rest)) →
        archreaderReadDico mem ai = .minor (ai.skip (len.length + damaged.length + 4))) ∧
      ∀ (mem : Mem) (ai after : ArchReader) (d : Dico) (head : BlockHead),
        readBlockHead mem d = some head → head.arblockcsumorig = fletcher32 stored →
        archreaderReadData ai head.finalsize.toNat = some (damaged, after) →
        archreaderReadBlock mem ai d false =
          some (some (head.blkinfo (List.replicate head.curblocksize.toNat 0), false), ai) := by
  refine ⟨fletcher32Exact_eq, ?_⟩
  intro stored damaged damage
  have differ := damage.fletcher32_ne
  refine ⟨differ, ?_, ?_⟩
  · intro mem ai len rest version lenSize lenValue here
    exact archreaderReadDico_of_bad_sum mem version lenSize lenValue differ.symm here
  · intro mem ai after d head fields sum read
    apply archreaderReadBlock_of_bad_sum fields read
    rw [sum]
    exact differ.symm

/-- Two bytes that change places. -/
theorem small_damage_noticed_swapped : fletcher32 [1, 2, 3] ≠ fletcher32 [3, 2, 1] := by
  apply (small_damage_noticed.2 [1, 2, 3] [3, 2, 1] ?_).1
  refine ⟨rfl, 0, 2, by decide, by decide, ?_⟩
  intro k
  match k with
  | 0 => decide
  | 1 => decide
  | 2 => decide
  | k + 3 => simp

end FsArchiver
