import FsArchiver.CutFiles

/-!
# Items that are lost

One item of an archive is lost before it is restored. Whom this harms depends on the part it
belongs to: the items of most parts are skipped as garbage once their header is lost, and a file
whose block is lost is removed again. A lost footer lets the file take the next header along, and
a pack of which anything but a single header is lost ends the restoration.
-/
namespace FsArchiver

open Lib

/-- The footer of a file. -/
def QueueData.isFooter : QueueData → Bool
  | .header ⟨.filf, _, _⟩ => true
  | _ => false

/-- An item that is lost from the part harms none of the parts behind it. -/
def Part.Spares (after : List Part) (lost : QueueData) : Part → Prop
  | .single _ | .cut _ _ => True
  | .file obj _ => lost.isFooter = true →
      ∃ link rest, after = .single link :: rest ∧ link.LinksTo obj.relpath
  | .pack objs => objs.length = 1 ∧ lost.isBlock = false

section Items

variable {md5 : Md5} {fsid : UInt16}

/-- An item of an archive is an item of one of its parts. -/
theorem packetItems_split {parts : List Part} {front back : List QueueData} {lost : QueueData}
    (split : packetItems md5 fsid (parts.map Part.packet) = front ++ lost :: back) :
    ∃ before part after head tail, parts = before ++ part :: after ∧
      part.packet.items md5 fsid = head ++ lost :: tail ∧
      front = packetItems md5 fsid (before.map Part.packet) ++ head ∧
      back = tail ++ packetItems md5 fsid (after.map Part.packet) := by
  induction parts generalizing front with
  | nil => exact absurd split.symm (List.append_ne_nil_of_right_ne_nil _ (List.cons_ne_nil _ _))
  | cons part rest ih =>
    rw [packetItems_cons] at split
    rcases List.append_eq_append_iff.mp split with ⟨more, own, onward⟩ | ⟨more, own, onward⟩
    · obtain ⟨before, other, after, head, tail, rfl, items, rfl, rfl⟩ := ih onward
      refine ⟨part :: before, other, after, head, tail, rfl, items, ?_, rfl⟩
      rw [own, packetItems_cons, List.append_assoc]
    · cases more with
      | nil =>
        rw [List.append_nil] at own
        obtain ⟨before, other, after, head, tail, rfl, items, none, rfl⟩ := @ih [] onward.symm
        refine ⟨part :: before, other, after, head, tail, rfl, items, ?_, rfl⟩
        rw [packetItems_cons, List.append_assoc, ← none, List.append_nil, own]
      | cons first more =>
        rw [List.cons_append, List.cons_eq_cons] at onward
        obtain ⟨rfl, rfl⟩ := onward
        exact ⟨[], part, rest, front, more, rfl, own, (List.nil_append _).symm, rfl⟩

/-- A header is behind every part. -/
theorem packetItems_header (parts : List Part)
    (wellMade : ∀ part ∈ parts, part.WellMade md5 fsid) (endFsid : UInt16) (endDico : Dico) :
    ∃ head rest, packetItems md5 fsid (parts.map Part.packet) ++
      [.header ⟨.datf, endFsid, endDico⟩] = .header head :: rest := by
  cases parts with
  | nil => exact ⟨_, _, rfl⟩
  | cons part parts =>
    have own := wellMade part List.mem_cons_self
    rw [packetItems_cons]
    cases part with
    | single obj | file obj blocks | cut obj blocks => exact ⟨_, _, rfl⟩
    | pack objs =>
      cases objs with
      | nil => exact absurd rfl own.1
      | cons obj objs => exact ⟨_, _, rfl⟩

/-- The items of a file: a header, its blocks, and a footer behind them. -/
theorem items_footer (obj : SavedObj) (blocks : List BlockInfo) :
    ∃ footer, (Part.file obj blocks).packet.items md5 fsid =
        objectItem fsid obj.d :: (blocks.map .block ++ footer) ∧
      (blocks = [] ∧ footer = [] ∨ blocks ≠ [] ∧ ∃ head, footer = [.header head] ∧ head.magic = .filf) := by
  refine ⟨_, rfl, ?_⟩
  by_cases none : blocks = []
  · exact .inl ⟨none, if_pos none⟩
  · exact .inr ⟨none, _, if_neg none, rfl⟩

end Items

/-! ## Losses inside a part -/

section Part

variable {ctx : Context} {exar : Extractar} {rest : List QueueData}

/-- The blocks of a file fall into those before a position and those behind it. -/
theorem chunked_append {fsid : UInt16} {pos : Nat} {contents : List UInt8}
    {front back : List BlockInfo} (chunked : Chunked fsid pos contents (front ++ back)) :
    ∃ first second, contents = first ++ second ∧ Chunked fsid pos first front ∧
      Chunked fsid (pos + first.length) second back := by
  induction front generalizing pos contents with
  | nil => exact ⟨[], contents, rfl, Chunked.nil pos, chunked⟩
  | cons block front ih =>
    rw [List.cons_append] at chunked
    cases chunked with
    | @cons _ data more _ nonempty small tail =>
      obtain ⟨first, second, rfl, before, behind⟩ := ih tail
      refine ⟨data ++ first, second, (List.append_assoc _ _ _).symm, Chunked.cons nonempty small before,
        ?_⟩
      rw [List.length_append, ← Nat.add_assoc]
      exact behind

/-- Blocks hold something. -/
theorem contents_pos {fsid : UInt16} {pos : Nat} {contents : List UInt8} {blocks : List BlockInfo}
    (chunked : Chunked fsid pos contents blocks) (nonempty : blocks ≠ []) : 0 < contents.length := by
  cases chunked with
  | nil pos => exact absurd rfl nonempty
  | cons some _ _ =>
    rw [List.length_append]
    exact Nat.add_pos_left (List.length_pos_iff.mpr some) _

/-- A file of which a block is lost is removed, and nothing else happens. -/
theorem SavedObj.reaches_broken (calm : ctx.os.Calm) {obj : SavedObj} (wellMade : obj.WellMade)
    (unique : obj.objtype = .regfileunique) (size : obj.contents.length = obj.st.size.toNat)
    {front back : List BlockInfo} {block : BlockInfo}
    (chunked : Chunked ctx.fsid 0 obj.contents (front ++ block :: back)) (footer : HeadInfo)
    (isFooter : footer.magic = .filf)
    (queue : exar.queue = objectItem ctx.fsid obj.d ::
      (front.map .block ++ (back.map .block ++ .header footer :: rest))) :
    ∃ exar' garbage made, Reaches ctx exar exar' garbage made ∧ exar'.queue = rest ∧
      Concerns made [obj.fullpath ctx] := by
  obtain ⟨first, second, contents, before, behind⟩ := chunked_append chunked
  have bound := obj.st.size.toNat_lt
  rw [contents, List.length_append] at size
  rw [Nat.zero_add] at behind
  cases behind with
  | @cons _ data more _ nonempty small tail =>
    have positive := List.length_pos_iff.mpr nonempty
    rw [List.length_append] at size
    have inside : first.length < obj.st.size.toNat := by omega
    -- what breaks the loop, and what it leaves
    have broken : ∃ left garbage, Breaks ctx obj.st.size first.length
        (back.map .block ++ .header footer :: rest) left ∧
        (restoreFooter ctx (obj.excluded ctx) (localBuffer ctx.mem 16 []) left).2 =
          garbage ++ rest ∧ garbage.length ≤ back.length + 1 ∧
        ∀ item ∈ garbage, item.isGarbage = true := by
      cases tail with
      | nil =>
        exact ⟨_, [], breaks_header inside footer rest, (restoreFooter_header _ _ footer rest).1,
          Nat.zero_le _, by simp⟩
      | @cons _ data' more' back' nonempty' small' tail' =>
        have other : (regfileBlock ctx.fsid (first.length + data.length) data').blkoffset ≠
            UInt64.ofNat first.length := by
          intro same
          have equal := congrArg UInt64.toNat same
          change (UInt64.ofNat (first.length + data.length)).toNat = _ at equal
          rw [UInt64.toNat_ofNat', UInt64.toNat_ofNat', Nat.mod_eq_of_lt (by omega),
            Nat.mod_eq_of_lt (by omega)] at equal
          omega
        refine ⟨back'.map .block ++ .header footer :: rest, ?_⟩
        cases back' with
        | nil =>
          exact ⟨[], breaks_block inside other _, (restoreFooter_header _ _ footer rest).1,
            Nat.zero_le _, by simp⟩
        | cons next others =>
          refine ⟨(next :: others).map .block ++ [.header footer], breaks_block inside other _, ?_, ?_,
            ?_⟩
          · rw [List.append_assoc]
            rfl
          · simp
          · intro item member
            rcases List.mem_append.mp member with member | member
            · obtain ⟨block, -, rfl⟩ := List.mem_map.mp member
              rfl
            · rw [List.mem_singleton.mp member]
              unfold QueueData.isGarbage
              split
              next same => cases same; cases isFooter
              next same => cases same; cases isFooter
              next => rfl
    obtain ⟨left, garbage, breaks, leaves, few, isGarbage⟩ := broken
    obtain ⟨exar₁, made, round, concerns, -⟩ :=
      obj.round_broken calm wellMade unique before inside breaks queue
    rw [leaves] at round
    have shorter : (garbage ++ rest).length < exar.queue.length := by
      rw [queue]
      simp only [List.length_append, List.length_cons, List.length_map]
      omega
    have whole := (round.reaches shorter).trans (@reaches_garbage ctx _ _ _ isGarbage round.queue)
    rw [List.append_nil] at whole
    exact ⟨_, _, made, whole, rfl, concerns⟩

/-- Headers of a pack, of which some may be lost. -/
theorem first_packHeader {objs : List SavedObj} (packed : ∀ obj ∈ objs, obj.Packed ctx.md5)
    {count : UInt32} {headers : List Dico} (nonempty : headers ≠ [])
    (inside : headers ⊆ packHeaders count 0 (objs.map SavedObj.packEntry)) :
    ∃ (obj : SavedObj) (offset : UInt32) (others : List Dico), obj.Packed ctx.md5 ∧
      headers = placedHeader count offset obj.d :: others := by
  cases headers with
  | nil => exact absurd rfl nonempty
  | cons first others =>
    obtain ⟨file, among, offset, rfl⟩ := mem_packHeaders (inside List.mem_cons_self)
    obtain ⟨obj, member, rfl⟩ := List.mem_map.mp among
    exact ⟨obj, offset, others, packed obj member, rfl⟩

/-- A pack of which an item is lost ends the restoration, unless it is the only header. -/
theorem fails_pack {objs : List SavedObj} (wellMade : (Part.pack objs).WellMade ctx.md5 ctx.fsid)
    {head tail : List QueueData} {lost : QueueData}
    (split : (Part.pack objs).packet.items ctx.md5 ctx.fsid = head ++ lost :: tail)
    (harmful : ¬(Part.pack objs).Spares [] lost) {next : HeadInfo}
    (queue : exar.queue = head ++ (tail ++ .header next :: rest)) : Fails ctx exar := by
  obtain ⟨nonempty, packed, few, -⟩ := wellMade
  let files := objs.map SavedObj.packEntry
  have number : files.length = objs.length := List.length_map _
  have count : (UInt32.ofNat files.length).toNat = objs.length := by
    rw [number]
    refine Nat.mod_eq_of_lt ?_
    rw [maxSmallFileCount] at few
    omega
  have length : (packHeaders (UInt32.ofNat files.length) 0 files).length = objs.length := by
    rw [length_packHeaders, number]
  change (packHeaders (UInt32.ofNat files.length) 0 files).map (objectItem ctx.fsid) ++
    [.block (packBlock ctx.fsid (files.flatMap Prod.snd))] = head ++ lost :: tail at split
  rcases tail.eq_nil_or_concat with rfl | ⟨front, last, rfl⟩
  · -- the block is lost
    obtain ⟨rfl, -⟩ := List.append_inj' split rfl
    obtain ⟨obj, offset, others, own, same⟩ := first_packHeader packed
      (List.ne_nil_of_length_pos (by rw [length]; exact List.length_pos_iff.mpr nonempty))
      (List.Subset.refl _)
    rw [same, List.length_cons] at length
    rw [same, List.nil_append, List.map_cons, List.cons_append] at queue
    obtain ⟨exar', stops⟩ := extractStep_pack_headers own (by rw [count, length]) (by omega) queue
    exact Fails.here stops
  · -- a header is lost
    rw [List.concat_eq_append] at split queue
    rw [← List.cons_append, ← List.append_assoc] at split
    obtain ⟨headers, blocks⟩ := List.append_inj' split rfl
    obtain ⟨before, behind, halves, rfl, behindSame⟩ := List.map_eq_append_iff.mp headers
    obtain ⟨gone, after, rfl, rfl, rfl⟩ := List.map_eq_cons_iff.mp behindSame
    rw [List.cons_eq_cons] at blocks
    obtain ⟨rfl, -⟩ := blocks
    have several : 1 < objs.length := by
      have positive := List.length_pos_iff.mpr nonempty
      have other : objs.length ≠ 1 := fun one => harmful ⟨one, rfl⟩
      omega
    rw [halves, List.length_append, List.length_cons] at length
    obtain ⟨obj, offset, others, own, same⟩ := @first_packHeader ctx objs packed
      (UInt32.ofNat files.length) (before ++ after)
      (List.ne_nil_of_length_pos (by rw [List.length_append]; omega)) (by
        change _ ⊆ packHeaders (UInt32.ofNat files.length) 0 files
        rw [halves]
        simp)
    have left := congrArg List.length same
    rw [List.length_append, List.length_cons] at left
    have queue' : exar.queue = objectItem ctx.fsid (placedHeader (UInt32.ofNat files.length) offset
        obj.d) :: (others.map (objectItem ctx.fsid) ++
          .block (packBlock ctx.fsid (files.flatMap Prod.snd)) :: .header next :: rest) := by
      rw [queue, ← List.append_assoc, ← List.append_assoc, ← List.map_append, same]
      simp
    obtain ⟨exar', stops⟩ := extractStep_pack_short own (by rw [count]; omega) queue'
    exact Fails.here stops

/-- What happens to a part of which an item is lost, and to the one behind it. -/
inductive LostRun (ctx : Context) (exar : Extractar) (rest : List QueueData) (part : Part)
    (after : List Part) (lost : QueueData) : Prop where
  /-- The loop gives up. -/
  | fails (fails : Fails ctx exar) (harmful : ¬part.Spares after lost)
  /-- It goes on, behind parts that were taken along. -/
  | goesOn (taken onward : List Part) (split : after = taken ++ onward) (exar' : Extractar)
      (garbage : List QueueData) (made : Log) (reaches : Reaches ctx exar exar' garbage made)
      (queue : exar'.queue = packetItems ctx.md5 ctx.fsid (onward.map Part.packet) ++ rest)
      (leaves : Leaves ctx exar.log made (part.objs ++ partObjs taken) [] (partObjs taken))
      (spares : part.Spares after lost ↔
        ∀ obj ∈ partObjs taken, ∃ own ∈ part.objs, obj.LinksTo own.relpath)

variable {part : Part} {after : List Part} {lost : QueueData} {head tail : List QueueData}

/-- Only the items of the part itself are gone. -/
theorem LostRun.alone {exar' : Extractar} {garbage : List QueueData} {made : Log}
    (reaches : Reaches ctx exar exar' garbage made)
    (queue : exar'.queue = packetItems ctx.md5 ctx.fsid (after.map Part.packet) ++ rest)
    (concerns : Concerns made (fullpaths ctx part.objs)) (spares : part.Spares after lost) :
    LostRun ctx exar rest part after lost := by
  refine .goesOn [] after rfl exar' garbage made reaches queue ⟨?_, by simp, by simp [partObjs]⟩
    ⟨fun _ => by simp [partObjs], fun _ => spares⟩
  simpa [partObjs] using concerns

/-- A part whose header is lost. -/
theorem lostRun_header (wellMade : part.WellMade ctx.md5 ctx.fsid)
    (others : ∀ part ∈ after, part.WellMade ctx.md5 ctx.fsid)
    (split : part.packet.items ctx.md5 ctx.fsid = lost :: tail) {endFsid : UInt16} {endDico : Dico}
    (queue : exar.queue = tail ++ (packetItems ctx.md5 ctx.fsid (after.map Part.packet) ++
      [.header ⟨.datf, endFsid, endDico⟩])) :
    LostRun ctx exar [.header ⟨.datf, endFsid, endDico⟩] part after lost := by
  by_cases one : part.objs.length = 1
  · obtain ⟨d, garbage, items, isGarbage⟩ := Part.items_one wellMade one
    obtain ⟨rfl, rfl⟩ := List.cons_eq_cons.mp (items.symm.trans split)
    refine LostRun.alone (reaches_garbage isGarbage queue) rfl (Concerns.nil _) ?_
    cases part with
    | single obj | cut obj blocks => trivial
    | file obj blocks => exact nofun
    | pack objs => exact ⟨one, rfl⟩
  · obtain ⟨next, rest, items⟩ := packetItems_header after others endFsid endDico
    rw [items] at queue
    cases part with
    | single obj | file obj blocks | cut obj blocks => exact absurd rfl one
    | pack objs =>
      have harmful {after : List Part} : ¬(Part.pack objs).Spares after lost := fun spares =>
        one spares.1
      exact .fails (@fails_pack _ _ _ _ wellMade [] _ _ split harmful _ queue) harmful

/-- A file whose footer is lost. -/
theorem lostRun_footer (calm : ctx.os.Calm) {obj : SavedObj} {blocks : List BlockInfo}
    (wellMade : (Part.file obj blocks).WellMade ctx.md5 ctx.fsid) (nonempty : blocks ≠ [])
    (others : ∀ part ∈ after, part.WellMade ctx.md5 ctx.fsid)
    (whole : ∀ part ∈ after, part.isWhole = true) (orderly : Orderly ctx (obj :: partObjs after))
    (isFooter : lost.isFooter = true) {endFsid : UInt16} {endDico : Dico}
    (queue : exar.queue = (Packet.cut obj.d blocks).items ctx.md5 ctx.fsid ++
      (packetItems ctx.md5 ctx.fsid (after.map Part.packet) ++
        [.header ⟨.datf, endFsid, endDico⟩])) :
    LostRun ctx exar [.header ⟨.datf, endFsid, endDico⟩] (.file obj blocks) after lost := by
  obtain ⟨made, unique, size, chunked⟩ := wellMade
  have positive := contents_pos chunked nonempty
  have unfooted : obj.Unfooted ctx blocks :=
    ⟨made, unique, chunked, Nat.le_of_eq size, by omega⟩
  cases after with
  | nil =>
    refine .fails (unfooted.fails_end calm queue) fun spares => ?_
    obtain ⟨link, rest, none, -⟩ := spares isFooter
    cases none
  | cons next after =>
    have nextMade := others next List.mem_cons_self
    rw [packetItems_cons, List.append_assoc] at queue
    rw [partObjs_cons] at orderly
    by_cases one : next.objs.length = 1
    · obtain ⟨exar', garbage, made, reaches, queue', leaves, -⟩ :=
        unfooted.leaves calm nextMade one (@Orderly.left _ (obj :: next.objs) _ orderly) queue
      refine .goesOn [next] after rfl exar' garbage made reaches queue' ?_ ⟨fun spares => ?_,
        fun linked _ => ?_⟩
      · simpa [partObjs, Part.objs] using leaves
      · obtain ⟨link, rest, same, links⟩ := spares isFooter
        obtain ⟨rfl, rfl⟩ := List.cons_eq_cons.mp same
        intro other member
        have own : other = link := by simpa [partObjs, Part.objs] using member
        exact ⟨obj, List.mem_singleton_self obj, own ▸ links⟩
      · obtain ⟨link, objs⟩ := List.length_eq_one_iff.mp one
        obtain ⟨own, member, links⟩ := linked link (by simp [partObjs, objs])
        rw [List.mem_singleton.mp member] at links
        -- of all parts, only one made of a header can be a hard link
        cases next with
        | single other =>
          obtain rfl : other = link := List.singleton_inj.mp objs
          exact ⟨other, after, rfl, links⟩
        | file other blocks =>
          obtain rfl : other = link := List.singleton_inj.mp objs
          exact absurd (nextMade.2.1.symm.trans links.1) (by decide)
        | cut other blocks => cases whole _ List.mem_cons_self
        | pack files =>
          change files = [link] at objs
          have multi := (nextMade.2.1 link (by rw [objs]; exact List.mem_cons_self)).multi
          exact absurd (multi.symm.trans links.1) (by decide)
    · have several : 1 < next.objs.length := by
        have positive := nextMade.objs_ne_nil
        omega
      refine .fails (unfooted.fails_several calm nextMade several queue) fun spares => ?_
      obtain ⟨link, rest, same, -⟩ := spares isFooter
      obtain ⟨rfl, rfl⟩ := List.cons_eq_cons.mp same
      exact one rfl

/-- A part of which any item is lost. -/
theorem lostRun_part (calm : ctx.os.Calm) (wellMade : part.WellMade ctx.md5 ctx.fsid)
    (own : part.isWhole = true) (others : ∀ part ∈ after, part.WellMade ctx.md5 ctx.fsid)
    (whole : ∀ part ∈ after, part.isWhole = true) (orderly : Orderly ctx (part.objs ++ partObjs after))
    (split : part.packet.items ctx.md5 ctx.fsid = head ++ lost :: tail)
    {endFsid : UInt16} {endDico : Dico}
    (queue : exar.queue = head ++ (tail ++ (packetItems ctx.md5 ctx.fsid (after.map Part.packet) ++
      [.header ⟨.datf, endFsid, endDico⟩]))) :
    LostRun ctx exar [.header ⟨.datf, endFsid, endDico⟩] part after lost := by
  cases head with
  | nil => exact lostRun_header wellMade others split queue
  | cons first head =>
    cases part with
    | cut obj blocks => cases own
    | single obj =>
      obtain ⟨-, none⟩ := List.cons_eq_cons.mp split
      exact absurd none.symm (List.append_ne_nil_of_right_ne_nil _ (List.cons_ne_nil _ _))
    | pack objs =>
      have harmful {after : List Part} : ¬(Part.pack objs).Spares after lost := by
        rintro ⟨one, notBlock⟩
        obtain ⟨obj, rfl⟩ := List.length_eq_one_iff.mp one
        have member : lost ∈ head ++ lost :: tail :=
          List.mem_append_right _ List.mem_cons_self
        obtain ⟨-, last⟩ := List.cons_eq_cons.mp split
        change _ = head ++ lost :: tail at last
        rw [← last] at member
        rw [List.mem_singleton.mp member] at notBlock
        cases notBlock
      obtain ⟨next, rest, items⟩ := packetItems_header after others endFsid endDico
      rw [items] at queue
      exact .fails (fails_pack wellMade split harmful queue) harmful
    | file obj blocks =>
      obtain ⟨footer, items, shape⟩ := @items_footer ctx.md5 ctx.fsid obj blocks
      rw [items, List.cons_append] at split
      obtain ⟨header, inner⟩ := List.cons_eq_cons.mp split
      subst header
      have lostFooter (none : footer = lost :: tail) (before : head = blocks.map .block) :
          LostRun ctx exar [.header ⟨.datf, endFsid, endDico⟩] (.file obj blocks) after lost := by
        rcases shape with ⟨-, empty⟩ | ⟨nonempty, foot, same, magic⟩
        · cases empty.symm.trans none
        · obtain ⟨rfl, rfl⟩ := List.cons_eq_cons.mp (same.symm.trans none)
          have isFooter : (QueueData.header foot).isFooter = true := by
            obtain ⟨magic', fsid, dico⟩ := foot
            cases magic
            rfl
          rw [before] at queue
          exact lostRun_footer calm wellMade nonempty others whole orderly isFooter queue
      rcases List.append_eq_append_iff.mp inner with ⟨more, before, behind⟩ | ⟨more, before, behind⟩
      · cases more with
        | nil =>
          rw [List.append_nil] at before
          exact lostFooter behind before
        | cons item more =>
          rcases shape with ⟨-, empty⟩ | ⟨-, foot, same, -⟩
          · cases empty.symm.trans behind
          · obtain ⟨-, none⟩ := List.cons_eq_cons.mp (same.symm.trans behind)
            exact absurd none.symm (List.append_ne_nil_of_right_ne_nil _ (List.cons_ne_nil _ _))
      · cases more with
        | nil =>
          rw [List.append_nil] at before
          exact lostFooter behind.symm before.symm
        | cons item more =>
          obtain ⟨rfl, rfl⟩ := List.cons_eq_cons.mp behind
          obtain ⟨front, rest, rfl, rfl, behindSame⟩ := List.map_eq_append_iff.mp before
          obtain ⟨block, back, rfl, rfl, rfl⟩ := List.map_eq_cons_iff.mp behindSame
          obtain ⟨made, unique, size, chunked⟩ := wellMade
          rcases shape with ⟨none, -⟩ | ⟨-, foot, rfl, magic⟩
          · exact absurd none (List.append_ne_nil_of_right_ne_nil _ (List.cons_ne_nil _ _))
          · have queue' : exar.queue = objectItem ctx.fsid obj.d :: (front.map .block ++
                (back.map .block ++ .header foot :: (packetItems ctx.md5 ctx.fsid
                  (after.map Part.packet) ++ [.header ⟨.datf, endFsid, endDico⟩]))) := by
              rw [queue]
              change _ ++ (back.map QueueData.block ++ [.header foot] ++ _) = _
              simp
            obtain ⟨exar', garbage, made, reaches, queue', concerns⟩ :=
              obj.reaches_broken calm made unique size chunked foot magic queue'
            exact LostRun.alone reaches queue' concerns nofun

/-- What a run leaves of an archive of which one item is lost. -/
theorem lostRun_parts (calm : ctx.os.Calm) {before : List Part}
    (wellMade : ∀ own ∈ before ++ part :: after, own.WellMade ctx.md5 ctx.fsid)
    (whole : ∀ own ∈ before ++ part :: after, own.isWhole = true)
    (orderly : Orderly ctx (partObjs (before ++ part :: after)))
    (split : part.packet.items ctx.md5 ctx.fsid = head ++ lost :: tail)
    {endFsid : UInt16} {endDico : Dico}
    (queue : exar.queue = packetItems ctx.md5 ctx.fsid (before.map Part.packet) ++ (head ++ (tail ++
      (packetItems ctx.md5 ctx.fsid (after.map Part.packet) ++
        [.header ⟨.datf, endFsid, endDico⟩])))) :
    (Fails ctx exar ∧ ¬part.Spares after lost) ∨
    ∃ taken exar' garbage made, Reaches ctx exar exar' garbage made ∧
      exar'.queue = [.header ⟨.datf, endFsid, endDico⟩] ∧ partObjs taken ⊆ partObjs after ∧
      (∀ obj ∈ partObjs (before ++ part :: after), obj ∈ part.objs ∨ obj ∈ partObjs taken ∨
        obj.Settled ctx exar.log made) ∧
      (∀ obj ∈ partObjs taken, Untouched made (obj.fullpath ctx)) ∧
      (part.Spares after lost ↔
        ∀ obj ∈ partObjs taken, ∃ own ∈ part.objs, obj.LinksTo own.relpath) := by
  rw [partObjs_append, partObjs_cons] at orderly
  have inFront {own : Part} (member : own ∈ before) : own ∈ before ++ part :: after :=
    List.mem_append_left _ member
  have behind {own : Part} (member : own ∈ after) : own ∈ before ++ part :: after :=
    List.mem_append_right _ (List.mem_cons_of_mem _ member)
  have here : part ∈ before ++ part :: after := List.mem_append_right _ List.mem_cons_self
  obtain ⟨exar₁, made₁, reaches₁, queue₁, -, -, concerns₁, settled₁⟩ := reaches_parts calm
    (fun own member => wellMade own (inFront member)) (fun own member => whole own (inFront member))
    orderly.left queue
  have leaves₁ : Leaves ctx exar.log made₁ (partObjs before) (partObjs before) [] :=
    ⟨concerns₁, settled₁, by simp⟩
  rcases lostRun_part calm (wellMade part here) (whole part here)
    (fun own member => wellMade own (behind member)) (fun own member => whole own (behind member))
    orderly.right split queue₁ with ⟨fails, harmful⟩ |
      ⟨taken, onward, rfl, exar₂, garbage, made₂, reaches₂, queue₂, leaves₂, spares⟩
  · exact .inl ⟨reaches₁.fails fails, harmful⟩
  · have orderly₃ : Orderly ctx ((part.objs ++ partObjs taken) ++ partObjs onward) := by
      have right := orderly.right
      rwa [partObjs_append, ← List.append_assoc] at right
    obtain ⟨exar₃, made₃, reaches₃, queue₃, -, -, concerns₃, settled₃⟩ := reaches_parts calm
      (fun own member => wellMade own (behind (List.mem_append_right _ member)))
      (fun own member => whole own (behind (List.mem_append_right _ member))) orderly₃.right queue₂
    have leaves₃ : Leaves ctx exar₂.log made₃ (partObjs onward) (partObjs onward) [] :=
      ⟨concerns₃, settled₃, by simp⟩
    rw [reaches₂.log] at leaves₃
    have later := Leaves.append orderly₃ (List.nil_subset _) (List.Subset.refl _)
      (List.subset_append_right _ _) (List.nil_subset _) leaves₂ leaves₃
    rw [reaches₁.log] at later
    have all := Leaves.append (by rwa [partObjs_append, ← List.append_assoc part.objs] at orderly)
      (List.Subset.refl _) (by simp) (List.nil_subset _) (by simp) leaves₁ later
    refine .inr ⟨taken, exar₃, _, _, reaches₁.trans (reaches₂.trans reaches₃), queue₃, by simp,
      fun obj member => ?_, fun obj member => all.lost obj (by simpa using member), spares⟩
    rw [partObjs_append, partObjs_cons, partObjs_append] at member
    rcases List.mem_append.mp member with member | member
    · exact .inr (.inr (all.settled obj (List.mem_append_left _ member)))
    · rcases List.mem_append.mp member with member | member
      · exact .inl member
      · rcases List.mem_append.mp member with member | member
        · exact .inr (.inl member)
        · refine .inr (.inr (all.settled obj (List.mem_append_right _ ?_)))
          exact List.mem_append_right _ member

end Part

/-! ## Whom a lost item harms -/

/-- The first link to a file is in the archive when every object counts as saved. -/
theorem link_has_file {mem : Mem} {md5 : Md5} {opts : SaveOptions} {visits : List Visit}
    {save : Savear} (sizes : opts.FromCmdline) (fit : PathsFit (visitedPaths visits))
    (apart : PathsApart (visitedPaths visits))
    (sound : ∀ call ∈ savedCalls mem md5 opts false visits (walkStart opts save), call.Sound)
    (counted : ∀ call ∈ savedCalls mem md5 opts false visits (walkStart opts save),
      call.Counted mem md5 opts)
    {obj : SavedObj} (among : obj ∈ walkObjs mem md5 opts visits save) {target : Path}
    (links : obj.LinksTo target) :
    ∃ file ∈ walkObjs mem md5 opts visits save, file.relpath = target ∧
      file.objtype = .regfileunique := by
  obtain ⟨call, member, object⟩ := List.mem_filterMap.mp among
  obtain ⟨before, after, split⟩ := List.append_of_mem member
  have seen := SaveCall.linkTarget_of_object (sound call member) object links
  obtain ⟨first, inFront, path, -, -⟩ := first_of_linkTarget fit split seen
  have listed : first ∈ savedCalls mem md5 opts false visits (walkStart opts save) := by
    rw [split]
    exact List.mem_append_left _ inFront
  obtain ⟨files, pends⟩ := pends_savedCalls sizes (pends_walkStart opts save) listed
  obtain ⟨file, object', -⟩ := (SaveCall.counted_iff sizes pends).mp (counted first listed)
  have inWalk : file ∈ walkObjs mem md5 opts visits save :=
    List.mem_filterMap.mpr ⟨first, listed, object'⟩
  have relpath := (SaveCall.fields_of_object object').1.trans path
  refine ⟨file, inWalk, relpath, (@file_of_link _ _ _ _ _ plainContext fit apart sound _ _ among
      inWalk _ links ?_).2⟩
  unfold SavedObj.fullpath
  rw [relpath]

/-- No file is cut when every object counts as saved. -/
theorem isWhole_of_counted {mem : Mem} {md5 : Md5} {opts : SaveOptions} {visits : List Visit}
    {save : Savear} {fsid : UInt16} (sizes : opts.FromCmdline)
    (wellMade : ∀ part ∈ walkParts mem md5 opts visits save, part.WellMade md5 fsid)
    (listed : ∀ obj ∈ partObjs (walkParts mem md5 opts visits save),
      obj ∈ walkObjs mem md5 opts visits save)
    (counted : ∀ call ∈ savedCalls mem md5 opts false visits (walkStart opts save),
      call.Counted mem md5 opts) :
    ∀ part ∈ walkParts mem md5 opts visits save, part.isWhole = true := by
  intro part member
  cases part with
  | single obj | file obj blocks | pack objs => rfl
  | cut obj blocks =>
    have among := listed obj (List.mem_flatMap.mpr ⟨_, member, List.mem_singleton_self obj⟩)
    obtain ⟨call, inCalls, object⟩ := List.mem_filterMap.mp among
    obtain ⟨files, pends⟩ := pends_savedCalls sizes (pends_walkStart opts save) inCalls
    obtain ⟨obj', object', saved⟩ := (SaveCall.counted_iff sizes pends).mp (counted call inCalls)
    rw [object, Option.some.injEq] at object'
    rw [← object', (wellMade _ member).2.2.2.2] at saved
    cases saved

/-- One item is lost from the archive of a tree that was saved without a failure: the restoration
ends well with every object but those of the part that the item belongs to and the hard links to
them, if and only if the loss harms none of the parts behind. -/
theorem lost_item_iff (mem : Mem) (opts : SaveOptions) (sizes : opts.FromCmdline)
    (save : Savear) (path : Path) (dir : DirCalls) (entries : DirStream)
    (wellNamed : entries.WellNamed) (fit : PathsFit (visitedPaths (treeVisits opts path dir entries)))
    (fromKernel : ∀ object ∈ savedObjects false (treeVisits opts path dir entries),
      object.calls.FromKernel)
    (ctx : Context) (calm : ctx.os.Calm) (all : ∀ path, ctx.exclude path = false)
    (fsid : ctx.fsid = save.fsid)
    (counted : ∀ call ∈ savedCalls mem ctx.md5 opts false (treeVisits opts path dir entries)
      (walkStart opts { save with pushed := [] }), call.Counted mem ctx.md5 opts)
    (front back : List QueueData) (lost : QueueData)
    (pushed : (createarSaveDirectoryWrapper mem ctx.md5 opts false { save with pushed := [] } path dir
      entries).2.pushed = front ++ lost :: back)
    (endFsid : UInt16) (endDico : Dico) (exar : Extractar)
    (queue : exar.queue = front ++ back ++ [.header ⟨.datf, endFsid, endDico⟩]) :
    let visits := treeVisits opts path dir entries
    let ran := extractarExtractReadObjects ctx exar
    ∃ before part after head tail,
      walkParts mem ctx.md5 opts visits { save with pushed := [] } = before ++ part :: after ∧
      part.packet.items ctx.md5 ctx.fsid = head ++ lost :: tail ∧
      front = packetItems ctx.md5 ctx.fsid (before.map Part.packet) ++ head ∧
      back = tail ++ packetItems ctx.md5 ctx.fsid (after.map Part.packet) ∧
      ((ran.1 = some 0 ∧ ∃ made, ran.2.log = exar.log ++ made ∧
        ∀ obj ∈ walkObjs mem ctx.md5 opts visits { save with pushed := [] }, obj ∉ part.objs →
          (∀ own ∈ part.objs, ¬obj.LinksTo own.relpath) → obj.Restored ctx exar.log made) ↔
        part.Spares after lost) := by
  intro visits ran
  let empty : Savear := { save with pushed := [] }
  have apart : PathsApart (visitedPaths visits) := treeVisits_apart wellNamed
  obtain ⟨items, wellMade, order⟩ := @parts_visits ctx.md5 _ mem _ sizes empty fit fromKernel
  have sound := @sound_savedCalls ctx.md5 opts mem _ (walkStart opts empty) rfl fit fromKernel
  have orderly : Orderly ctx (partObjs (walkParts mem ctx.md5 opts visits empty)) :=
    orderly_parts fit apart sound order
  have listed {obj : SavedObj} : obj ∈ partObjs (walkParts mem ctx.md5 opts visits empty) ↔
      obj ∈ walkObjs mem ctx.md5 opts visits empty := order.perm.mem_iff
  have kept (obj : SavedObj) : obj.excluded ctx = false := by
    simp [SavedObj.excluded, isFiledirExcluded, all]
  have whole : ∀ part ∈ walkParts mem ctx.md5 opts visits empty, part.isWhole = true :=
    isWhole_of_counted sizes wellMade (fun obj => listed.mp) counted
  have hasFile {obj : SavedObj} (among : obj ∈ partObjs (walkParts mem ctx.md5 opts visits empty))
      {target : Path} (links : obj.LinksTo target) :
      ∃ file ∈ partObjs (walkParts mem ctx.md5 opts visits empty), file.relpath = target ∧
        file.objtype = .regfileunique := by
    obtain ⟨file, inWalk, found⟩ := link_has_file sizes fit apart sound counted (listed.mp among) links
    exact ⟨file, listed.mpr inWalk, found⟩
  rw [createarSaveDirectoryWrapper_queue] at pushed
  have split := items.symm.trans pushed
  rw [List.nil_append, show empty.fsid = ctx.fsid from fsid.symm] at split
  obtain ⟨before, part, after, head, tail, parts, own, rfl, rfl⟩ := packetItems_split split
  refine ⟨before, part, after, head, tail, parts, own, rfl, rfl, ?_⟩
  change (_ ∧ ∃ made, _ ∧ ∀ obj ∈ walkObjs mem ctx.md5 opts visits empty, _) ↔ _
  simp only [← listed]
  rw [fsid.symm] at wellMade
  generalize walkParts mem ctx.md5 opts visits empty = walk at *
  subst parts
  have loop := @lostRun_parts ctx { exar with errors := 0 } part after lost head tail calm before
    wellMade whole orderly own endFsid endDico (by
      change exar.queue = _
      rw [queue]
      simp only [List.append_assoc])
  rcases loop with ⟨fails, harmful⟩ |
    ⟨taken, exar', garbage, made, reaches, rest, inside, each, untouched, spares⟩
  · have returns : ran.1 = some (-1) := fails.returns
    rw [returns]
    exact ⟨fun good => absurd good.1 (by decide), fun good => absurd good harmful⟩
  · have final : ran = (some 0, exar') := reaches.ends rest
    have log : exar'.log = exar.log ++ made := reaches.log
    rw [final, spares]
    constructor
    · rintro ⟨-, made', log', restored⟩ obj member
      obtain rfl : made' = made := List.append_cancel_left (log'.symm.trans log)
      by_contra alone
      have among : obj ∈ partObjs (before ++ part :: after) := by
        rw [partObjs_append, partObjs_cons]
        exact List.mem_append_right _ (List.mem_append_right _ (inside member))
      have elsewhere : obj ∉ part.objs := by
        rw [partObjs_append, partObjs_cons] at orderly
        intro here
        exact orderly.right.disjoint here (inside member) rfl
      obtain ⟨holder, inParts, ofHolder⟩ := List.mem_flatMap.mp among
      refine (restored obj among elsewhere fun own here links => ?_).touched
        ((wellMade holder inParts).obj ofHolder) (untouched obj member)
      exact alone ⟨own, here, links⟩
    · intro linked
      refine ⟨rfl, made, log, fun obj among elsewhere alone => ?_⟩
      have settled : obj.Settled ctx exar.log made := by
        rcases each obj among with here | member | settled
        · exact absurd here elsewhere
        · obtain ⟨own, here, links⟩ := linked obj member
          exact absurd links (alone own here)
        · exact settled
      refine settled.kept (kept obj) fun target links => ?_
      obtain ⟨file, inParts, relpath, unique⟩ := hasFile among links
      have settledFile : file.Settled ctx exar.log made := by
        rcases each file inParts with here | member | settled
        · exact absurd (relpath ▸ links) (alone file here)
        · obtain ⟨own, -, links'⟩ := linked file member
          exact absurd (unique.symm.trans links'.1) (by decide)
        · exact settled
      have restored := settledFile.kept (kept file) fun target links' =>
        absurd (unique.symm.trans links'.1) (by decide)
      have written := restored.file (by rw [unique]; rfl)
      rw [← relpath]
      change (contentAt (exar.log ++ made) (file.fullpath ctx)).isSome
      rw [written.contentAt]
      rfl

/-! ## Two losses -/

/-- What is on the queue once both files are saved, without the end header. -/
def twoEntriesQueue : List QueueData :=
  (createarSaveDirectoryWrapper plainMem exactContext.md5 plainOptions false
    { plainSavear with pushed := [] } [slash] plainDirCalls (twoEntries twoBytes)).2.pushed

/-- What is left to restore when an item is lost. -/
def lostItemExar (item : Nat) : Extractar where
  queue := twoEntriesQueue.take item ++ twoEntriesQueue.drop (item + 1) ++
    [.header ⟨.datf, 0, Dico.alloc⟩]
  log := []
  stats := {}
  errors := 0
  skipped := []

/-- The objects of both files and of their directory. -/
def twoEntriesObjs : List SavedObj :=
  walkObjs plainMem exactContext.md5 plainOptions
    (treeVisits plainOptions [slash] plainDirCalls (twoEntries twoBytes))
    { plainSavear with pushed := [] }

/-- The names of both files are names. -/
theorem twoEntries_wellNamed (openFile : Option (Nat → Nat → Option (List UInt8))) :
    (twoEntries openFile).WellNamed := by
  have named (name : UInt8) (other : name ≠ slash) (notNul : name ≠ 0) : IsName [name] :=
    ⟨List.cons_ne_nil _ _, by simpa using other.symm, by simpa using notNul.symm⟩
  exact ⟨named 0x61 (by decide) (by decide), by decide, trivial,
    named 0x62 (by decide) (by decide), by decide, trivial, trivial⟩

/-- Nothing comes from elsewhere than the kernel. -/
theorem twoEntries_fromKernel : ∀ object ∈ savedObjects false (treeVisits plainOptions [slash]
    plainDirCalls (twoEntries twoBytes)), object.calls.FromKernel := by
  have objects : savedObjects false (treeVisits plainOptions [slash] plainDirCalls
      (twoEntries twoBytes)) = [⟨[slash], plainDirStat, plainCalls⟩,
        ⟨[slash, 0x61], plainFileStat 2 2, { plainCalls with openFile := twoBytes }⟩,
        ⟨[slash, 0x62], plainFileStat 1 0,
          { plainCalls with openFile := some fun _ _ => some [] }⟩] := rfl
  rw [objects]
  simp only [List.mem_cons, List.not_mem_nil, or_false, forall_eq_or_imp, forall_eq]
  exact ⟨plainCalls_fromKernel none, plainCalls_fromKernel _, plainCalls_fromKernel _⟩

/-- Every object counts as saved. -/
theorem twoEntries_counted : ∀ call ∈ savedCalls plainMem exactContext.md5 plainOptions false
    (treeVisits plainOptions [slash] plainDirCalls (twoEntries twoBytes))
    (walkStart plainOptions { plainSavear with pushed := [] }),
    call.Counted plainMem exactContext.md5 plainOptions := by
  unfold SaveCall.Counted
  decide +kernel

/-- Without its header a file is skipped, and nothing else is harmed. -/
theorem lost_item_header :
    let ran := extractarExtractReadObjects exactContext (lostItemExar 1)
    ∃ part : Part, ran.1 = some 0 ∧ ∃ made, ran.2.log = [] ++ made ∧
      ∀ obj ∈ twoEntriesObjs, obj ∉ part.objs → (∀ own ∈ part.objs, ¬obj.LinksTo own.relpath) →
        obj.Restored exactContext [] made := by
  intro ran
  have inside : 1 < twoEntriesQueue.length := by decide +kernel
  obtain ⟨before, part, after, head, tail, parts, items, -, -, good⟩ := lost_item_iff plainMem
    plainOptions plainOptions_fromCmdline plainSavear [slash] plainDirCalls (twoEntries twoBytes)
    (twoEntries_wellNamed twoBytes) (by unfold PathsFit; decide) twoEntries_fromKernel
    exactContext exactContext_exact.toCalm (fun _ => rfl) rfl twoEntries_counted
    (twoEntriesQueue.take 1) (twoEntriesQueue.drop 2) twoEntriesQueue[1] (by
      change twoEntriesQueue = _
      rw [List.getElem_cons_drop, List.take_append_drop]) 0 Dico.alloc (lostItemExar 1) rfl
  refine ⟨part, good.mpr ?_⟩
  have header : ∀ item ∈ twoEntriesQueue.take 2, item.isFooter = false := by decide +kernel
  have noFooter := header twoEntriesQueue[1] (List.mem_take_iff_getElem.mpr ⟨1, by omega, rfl⟩)
  have noPacks : (walkParts plainMem exactContext.md5 plainOptions
      (treeVisits plainOptions [slash] plainDirCalls (twoEntries twoBytes))
      { plainSavear with pushed := [] }).all (fun part =>
        match part with
        | .pack _ => false
        | _ => true) = true := by decide +kernel
  cases part with
  | single obj | cut obj blocks => trivial
  | file obj blocks => exact fun isFooter => absurd (isFooter.symm.trans noFooter) (by decide)
  | pack objs =>
    rw [parts, List.all_eq_true] at noPacks
    have none := noPacks (.pack objs) (List.mem_append_right _ List.mem_cons_self)
    cases none

/-- Without its footer a file takes the next one along. -/
theorem lost_footer_takes_next :
    let ran := extractarExtractReadObjects exactContext (lostItemExar 3)
    ran.1 = some 0 ∧ ∃ obj ∈ twoEntriesObjs, obj.relpath = [slash, 0x62] ∧
      obj.objtype = .regfileunique ∧
        ∀ made, ran.2.log = [] ++ made → ¬obj.Restored exactContext [] made := by
  intro ran
  refine ⟨by decide +kernel, twoEntriesObjs.getLast (by decide +kernel), List.getLast_mem _,
    by decide +kernel, by decide +kernel, fun made log restored => ?_⟩
  have path : (twoEntriesObjs.getLast (by decide +kernel)).fullpath exactContext =
      [slash, 0x62] := by decide +kernel
  have untouched : Untouched made [slash, 0x62] := by
    have whole : ∀ entry ∈ ran.2.log, entry.1.object ≠ some [slash, 0x62] := by decide +kernel
    rw [log] at whole
    exact whole
  obtain ⟨fsid, sparse, blocks, -, own⟩ := restored.file (by decide +kernel)
  rw [path, untouched.history] at own
  cases own

end FsArchiver
