import FsArchiver.FsExt2

/-!
# The type of a recreated ext filesystem

Which type `extfs_mount` finds behind the features that `extfs_mkfs` lists for `mke2fs`. The listed
features are those of the final masks that stand in `mkfeatures` and that the version knows, so the
type is the requested one exactly if one of them tells it apart.
-/
namespace FsArchiver

open Lib ExtFeature

/-! ## What is created -/

/-- The mask of one kind with the listed features. -/
def listedMask (features : List (List UInt8)) (kind : CompatType) : UInt64 :=
  union ((mkfeatures.filter fun feature =>
    feature.compat = kind ∧ feature.name ∈ features).map MkFeature.mask)

/-- The features that `mke2fs` enables. -/
def createdFeatures (features : List (List UInt8)) : FeaturesTab where
  compat := listedMask features .compat
  incompat := listedMask features .incompat
  roIncompat := listedMask features .roIncompat

/-- The bits of a kind that ext3 does not know. -/
def ext3Unsupported : CompatType → UInt64
  | .compat => 0
  | .incompat => ext3IncompatUnsupported.toUInt64
  | .roIncompat => ext3RoCompatUnsupported.toUInt64

/-- The bits of a kind that ext2 does not know. -/
def ext2Unsupported : CompatType → UInt64
  | .compat => hasJournal
  | .incompat => ext2IncompatUnsupported.toUInt64
  | .roIncompat => ext2RoCompatUnsupported.toUInt64

/-- A version of `mke2fs` is told of a feature that makes an ext4 filesystem. -/
def ListsExt4 (e2fstoolsver : UInt64) (tab : FeaturesTab) : Prop :=
  ∃ feature ∈ mkfeatures, feature.firste2p ≤ e2fstoolsver ∧
    Meets feature.mask (ext3Unsupported feature.compat) ∧
      Meets (tab.get feature.compat) feature.mask

/-- The features of the archive lead to the requested type: no external journal and a journal for
ext3, something for the version to tell ext4 by unless `extfs_mkfs` adds it. -/
def LeadsTo (sys : ExtSystem) (tab : FeaturesTab) (devblksize : UInt64) : ExtFsType → Prop
  | .ext2 => True
  | .ext3 => ¬Meets tab.incompat journalDev ∧ (tab.fstype = .ext2 ∨ Meets tab.compat hasJournal)
  | .ext4 => tab.fstype ≠ .ext4 ∨ isLargeDevice sys devblksize ∨ ListsExt4 sys.e2fstoolsver tab

/-! ## The types of features -/

section Types

variable {tab : FeaturesTab}

/-- A mask of 32 bits finds the same bits in the low half of a word. -/
theorem and_toUInt32 (word : UInt64) (mask : UInt32) :
    word.toUInt32 &&& mask ≠ 0 ↔ Meets word mask.toUInt64 := by
  have narrow : (word &&& mask.toUInt64).toUInt32 = word.toUInt32 &&& mask := by
    rw [UInt64.toUInt32_and, UInt32.toUInt32_toUInt64]
  have wide : (word &&& mask.toUInt64).toUInt32.toUInt64 = word &&& mask.toUInt64 := by
    rw [UInt64.toUInt64_toUInt32]
    apply UInt64.toNat_inj.mp
    have le : (word &&& mask.toUInt64) ≤ mask.toUInt64 := UInt64.and_le_right
    have bound : (word &&& mask.toUInt64).toNat < 2 ^ 32 :=
      Nat.lt_of_le_of_lt (UInt64.le_iff_toNat_le.mp le) mask.toNat_lt
    rw [UInt64.toNat_mod]
    exact Nat.mod_eq_of_lt bound
  unfold Meets
  rw [← narrow, not_iff_not]
  constructor
  · intro zero
    rw [← wide, zero]
    rfl
  · intro zero
    rw [zero]
    rfl

/-- Something is set that ext3 does not know. -/
theorem fstype_eq_ext4 :
    tab.fstype = .ext4 ↔ ∃ kind, Meets (tab.get kind) (ext3Unsupported kind) := by
  have kinds : (∃ kind, Meets (tab.get kind) (ext3Unsupported kind)) ↔
      tab.roIncompat.toUInt32 &&& ext3RoCompatUnsupported ≠ 0 ∨
        tab.incompat.toUInt32 &&& ext3IncompatUnsupported ≠ 0 := by
    rw [and_toUInt32, and_toUInt32]
    constructor
    · rintro ⟨kind, meets⟩
      cases kind with
      | compat => exact absurd (meets_comm.mp meets) not_meets_zero
      | incompat => exact Or.inr meets
      | roIncompat => exact Or.inl meets
    · rintro (meets | meets)
      · exact ⟨.roIncompat, meets⟩
      · exact ⟨.incompat, meets⟩
  rw [kinds, FeaturesTab.fstype, extfsGetFstypeFromCompatFlags]
  split
  · next found => exact ⟨fun _ => found, fun _ => rfl⟩
  · next absent =>
    refine ⟨fun same => ?_, fun found => absurd found absent⟩
    split at same
    · cases same
    · split at same
      · cases same
      · cases same

/-- Nothing is set that ext2 does not know. -/
theorem fstype_eq_ext2 :
    tab.fstype = .ext2 ↔ ¬∃ kind, Meets (tab.get kind) (ext2Unsupported kind) := by
  have kinds : (∃ kind, Meets (tab.get kind) (ext2Unsupported kind)) ↔
      tab.compat.toUInt32 &&& hasJournal.toUInt32 ≠ 0 ∨
        (tab.roIncompat.toUInt32 &&& ext2RoCompatUnsupported ≠ 0 ∨
          tab.incompat.toUInt32 &&& ext2IncompatUnsupported ≠ 0) := by
    rw [and_toUInt32, and_toUInt32, and_toUInt32]
    constructor
    · rintro ⟨kind, meets⟩
      cases kind with
      | compat => exact Or.inl meets
      | incompat => exact Or.inr (Or.inr meets)
      | roIncompat => exact Or.inr (Or.inl meets)
    · rintro (meets | meets | meets)
      · exact ⟨.compat, meets⟩
      · exact ⟨.roIncompat, meets⟩
      · exact ⟨.incompat, meets⟩
  have wider : tab.roIncompat.toUInt32 &&& ext3RoCompatUnsupported ≠ 0 ∨
      tab.incompat.toUInt32 &&& ext3IncompatUnsupported ≠ 0 →
        tab.roIncompat.toUInt32 &&& ext2RoCompatUnsupported ≠ 0 ∨
          tab.incompat.toUInt32 &&& ext2IncompatUnsupported ≠ 0 := by
    rintro (meets | meets)
    · exact Or.inl meets
    · have part : ext2IncompatUnsupported.toUInt64 &&& ext3IncompatUnsupported.toUInt64 =
          ext3IncompatUnsupported.toUInt64 := by decide
      rw [and_toUInt32] at meets
      exact Or.inr ((and_toUInt32 _ _).mpr (meets_of_part part meets))
  rw [kinds, FeaturesTab.fstype, extfsGetFstypeFromCompatFlags]
  split
  · next found =>
    have not2 := wider found
    exact ⟨fun same => (by cases same), fun none => absurd (Or.inr not2) none⟩
  · split
    · next found => exact ⟨fun same => (by cases same), fun none => absurd (Or.inr found) none⟩
    · next absent =>
      split
      · next found => exact ⟨fun same => (by cases same), fun none => absurd (Or.inl found) none⟩
      · next clear => exact ⟨fun _ found => found.elim clear absent, fun _ => rfl⟩

end Types

/-! ## The list of features -/

section Listing

variable {sys : ExtSystem} {tab : FeaturesTab} {feature : MkFeature}

/-- The names differ. -/
theorem name_inj {other : MkFeature} (member : feature ∈ mkfeatures) (member' : other ∈ mkfeatures)
    (same : feature.name = other.name) : feature = other := by
  have nodup : (mkfeatures.map MkFeature.name).Nodup := by decide
  exact List.inj_on_of_nodup_map nodup member member' same

/-- No name begins with the sign for features that are not set. -/
theorem name_unmarked (member : feature ∈ mkfeatures) : feature.name.head? ≠ some 0x5e := by
  have all : ∀ feature ∈ mkfeatures, feature.name.head? ≠ some 0x5e := by decide
  exact all feature member

theorem name_nonempty (member : feature ∈ mkfeatures) : feature.name ≠ [] := by
  have all : ∀ feature ∈ mkfeatures, feature.name ≠ [] := by decide
  exact all feature member

/-- The text that is listed for a feature. -/
def listedText (tab : FeaturesTab) (feature : MkFeature) : List UInt8 :=
  if Meets (tab.get feature.compat) feature.mask then feature.name else ascii "^" ++ feature.name

theorem listedText_nonempty (nonempty : feature.name ≠ []) : listedText tab feature ≠ [] := by
  unfold listedText
  split
  · exact nonempty
  · exact List.cons_ne_nil _ _

/-- The list has the texts of the features that the version knows. -/
theorem mem_strfeatures {text : List UInt8} :
    text ∈ strfeatures sys tab ↔
      ∃ feature ∈ mkfeatures, feature.firste2p ≤ sys.e2fstoolsver ∧ text = listedText tab feature := by
  have steps : ∀ (rest : List MkFeature), (∀ feature ∈ rest, feature ∈ mkfeatures) →
      ∀ list : List Path, (text ∈ rest.foldl (fun list feature =>
        if feature.firste2p ≤ sys.e2fstoolsver then
          if tab.get feature.compat &&& feature.mask ≠ 0 then strlistAdd true list feature.name
          else strlistAdd true list (ascii "^" ++ feature.name)
        else list) list ↔ text ∈ list ∨
          ∃ feature ∈ rest, feature.firste2p ≤ sys.e2fstoolsver ∧
            text = listedText tab feature) := by
    intro rest
    induction rest with
    | nil => exact fun _ list => by simp
    | cons feature rest ih =>
      intro known list
      have nonempty := name_nonempty (known feature List.mem_cons_self)
      rw [List.foldl_cons, ih fun other later => known other (List.mem_cons_of_mem _ later),
        List.exists_mem_cons_iff, ← or_assoc]
      apply or_congr_left
      by_cases old : feature.firste2p ≤ sys.e2fstoolsver
      · have added : (if tab.get feature.compat &&& feature.mask ≠ 0 then
            strlistAdd true list feature.name else strlistAdd true list (ascii "^" ++ feature.name)) =
              strlistAdd true list (listedText tab feature) := (apply_ite _ _ _ _).symm
        rw [if_pos old, added, mem_strlistAdd (listedText_nonempty nonempty)]
        exact or_congr_right ⟨fun same => ⟨old, same.2⟩, fun found => ⟨rfl, found.2⟩⟩
      · rw [if_neg old]
        exact ⟨Or.inl, fun found => found.resolve_right fun listed => old listed.1⟩
  have whole := steps mkfeatures (fun _ member => member) []
  rw [or_iff_right List.not_mem_nil] at whole
  exact whole

/-- A feature is listed as enabled if the version knows it and it is set. -/
theorem name_mem_strfeatures (member : feature ∈ mkfeatures) :
    feature.name ∈ strfeatures sys tab ↔
      feature.firste2p ≤ sys.e2fstoolsver ∧ Meets (tab.get feature.compat) feature.mask := by
  rw [mem_strfeatures]
  constructor
  · rintro ⟨other, member', old, same⟩
    unfold listedText at same
    split at same
    · next set =>
      obtain rfl := name_inj member member' same
      exact ⟨old, set⟩
    · have marked : feature.name.head? = some 0x5e := by
        rw [same]
        rfl
      exact absurd marked (name_unmarked member)
  · rintro ⟨old, set⟩
    refine ⟨feature, member, old, ?_⟩
    rw [listedText, if_pos set]

/-- What is created meets a mask if a listed feature does. -/
theorem meets_createdFeatures {features : List (List UInt8)} {kind : CompatType} {mask : UInt64} :
    Meets ((createdFeatures features).get kind) mask ↔
      ∃ feature ∈ mkfeatures, feature.compat = kind ∧ feature.name ∈ features ∧
        Meets feature.mask mask := by
  have same : (createdFeatures features).get kind = listedMask features kind := by
    cases kind with
    | compat => rfl
    | incompat => rfl
    | roIncompat => rfl
  rw [same, listedMask, meets_union]
  constructor
  · rintro ⟨part, member, meets⟩
    obtain ⟨feature, kept, rfl⟩ := List.mem_map.mp member
    obtain ⟨known, listed⟩ := List.mem_filter.mp kept
    obtain ⟨ofKind, named⟩ := of_decide_eq_true listed
    exact ⟨feature, known, ofKind, named, meets⟩
  · rintro ⟨feature, known, ofKind, named, meets⟩
    exact ⟨feature.mask, List.mem_map_of_mem
      (List.mem_filter.mpr ⟨known, decide_eq_true ⟨ofKind, named⟩⟩), meets⟩

/-- What the listed features of masks create meets. -/
theorem meets_created {kind : CompatType} {mask : UInt64} :
    Meets ((createdFeatures (strfeatures sys tab)).get kind) mask ↔
      ∃ feature ∈ mkfeatures, feature.compat = kind ∧ feature.firste2p ≤ sys.e2fstoolsver ∧
        Meets (tab.get kind) feature.mask ∧ Meets feature.mask mask := by
  rw [meets_createdFeatures]
  constructor
  · rintro ⟨feature, known, rfl, named, meets⟩
    obtain ⟨old, set⟩ := (name_mem_strfeatures known).mp named
    exact ⟨feature, known, rfl, old, set, meets⟩
  · rintro ⟨feature, known, rfl, old, set, meets⟩
    exact ⟨feature, known, rfl, (name_mem_strfeatures known).mpr ⟨old, set⟩, meets⟩

end Listing

/-! ## The final masks -/

section Final

variable {mem : Mem} {sys : ExtSystem} {d : Dico} {extfstype : ExtFsType} {tab : FeaturesTab}
  {feature : MkFeature}

@[simp] theorem FeaturesTab.get_clear (tab : FeaturesTab) (kind other : CompatType)
    (mask : UInt64) :
    (tab.clear kind mask).get other =
      if kind = other then tab.get other &&& ~~~mask else tab.get other := by
  cases kind with
  | compat => cases other <;> rfl
  | incompat => cases other <;> rfl
  | roIncompat => cases other <;> rfl

/-- The masks of a kind that the requested type does not know. -/
def laterMasks (extfstype : ExtFsType) (kind : CompatType) : List UInt64 :=
  (mkfeatures.filter fun feature =>
    feature.compat = kind ∧ feature.firstfs.number > extfstype.number).map MkFeature.mask

/-- Later masks are removed from each kind. -/
theorem get_removeFeatures (kind : CompatType) :
    (removeFeatures extfstype tab).get kind = without (tab.get kind) (laterMasks extfstype kind) := by
  unfold removeFeatures laterMasks
  induction mkfeatures generalizing tab with
  | nil => rfl
  | cons feature rest ih =>
    rw [List.foldl_cons, ih]
    by_cases later : feature.firstfs.number > extfstype.number
    · rw [if_pos later, FeaturesTab.get_clear]
      by_cases ofKind : feature.compat = kind
      · have chosen : decide (feature.compat = kind ∧
            feature.firstfs.number > extfstype.number) = true := decide_eq_true ⟨ofKind, later⟩
        rw [if_pos ofKind, List.filter_cons, if_pos chosen]
        rfl
      · rw [if_neg ofKind, List.filter_cons_of_neg (by simp [ofKind])]
    · rw [if_neg later, List.filter_cons_of_neg (by simp [later])]

/-- Features with a bit in common are supported by the same filesystems. -/
theorem firstfs_of_meets {other : MkFeature} (member : feature ∈ mkfeatures)
    (member' : other ∈ mkfeatures) (ofKind : other.compat = feature.compat)
    (meets : Meets other.mask feature.mask) : other.firstfs = feature.firstfs := by
  have all : ∀ feature ∈ mkfeatures, ∀ other ∈ mkfeatures, other.compat = feature.compat →
      Meets other.mask feature.mask → other.firstfs = feature.firstfs := by decide
  exact all feature member other member' ofKind meets

/-- Features that the requested type knows stay, all others go. -/
theorem meets_removeFeatures (member : feature ∈ mkfeatures) :
    Meets ((removeFeatures extfstype tab).get feature.compat) feature.mask ↔
      feature.firstfs.number ≤ extfstype.number ∧
        Meets (tab.get feature.compat) feature.mask := by
  rw [get_removeFeatures]
  by_cases later : feature.firstfs.number > extfstype.number
  · have removed : feature.mask ∈ laterMasks extfstype feature.compat :=
      List.mem_map_of_mem (List.mem_filter.mpr ⟨member, decide_eq_true ⟨rfl, later⟩⟩)
    exact ⟨fun meets => absurd meets (not_meets_without removed),
      fun known => absurd known.1 (by omega)⟩
  · have apart : ∀ other ∈ laterMasks extfstype feature.compat, ¬Meets other feature.mask := by
      intro mask removed meets
      obtain ⟨other, kept, rfl⟩ := List.mem_map.mp removed
      obtain ⟨member', chosen⟩ := List.mem_filter.mp kept
      obtain ⟨ofKind, later'⟩ := of_decide_eq_true chosen
      rw [firstfs_of_meets member member' ofKind meets] at later'
      exact later later'
    rw [meets_without apart, and_iff_right (by omega)]

/-! ## The three types -/

/-- What a listed feature of the final masks tells about the type. -/
theorem created_eq_ext4 {used : FeaturesTab} :
    (createdFeatures (strfeatures sys used)).fstype = .ext4 ↔ ListsExt4 sys.e2fstoolsver used := by
  rw [fstype_eq_ext4]
  constructor
  · rintro ⟨kind, meets⟩
    obtain ⟨feature, member, rfl, old, set, unknown⟩ := meets_created.mp meets
    exact ⟨feature, member, old, unknown, set⟩
  · rintro ⟨feature, member, old, unknown, set⟩
    exact ⟨feature.compat, meets_created.mpr ⟨feature, member, rfl, old, set, unknown⟩⟩

/-- For ext2 the features that are left make an ext2 filesystem. -/
theorem created_ext2 : (createdFeatures (strfeatures sys (removeFeatures .ext2 tab))).fstype =
    .ext2 := by
  have known : ∀ feature ∈ mkfeatures, feature.firstfs.number ≤ ExtFsType.ext2.number →
      ¬Meets feature.mask (ext2Unsupported feature.compat) := by decide
  rw [fstype_eq_ext2]
  rintro ⟨kind, meets⟩
  obtain ⟨feature, member, rfl, _, set, unknown⟩ := meets_created.mp meets
  obtain ⟨early, _⟩ := (meets_removeFeatures member).mp set
  exact known feature member early unknown

/-- What is set for ext3: what is left, and a journal if there was none. -/
theorem meets_upgrade_ext3 (member : feature ∈ mkfeatures) :
    Meets ((upgradeFeatures .ext3 tab.fstype (removeFeatures .ext3 tab)).get feature.compat)
        feature.mask ↔
      feature.firstfs.number ≤ ExtFsType.ext3.number ∧ Meets (tab.get feature.compat) feature.mask ∨
        tab.fstype = .ext2 ∧ feature.compat = .compat ∧ Meets hasJournal feature.mask := by
  have noExtents : ∀ origextfstype, getsExtents .ext3 origextfstype = false := by
    intro origextfstype
    cases origextfstype <;> rfl
  unfold upgradeFeatures
  rw [noExtents, if_neg Bool.false_ne_true, ← meets_removeFeatures member]
  generalize removeFeatures .ext3 tab = left
  by_cases upgraded : getsJournal .ext3 tab.fstype = true
  · have old : tab.fstype = .ext2 := (of_decide_eq_true upgraded).1
    rw [if_pos upgraded, and_iff_right old]
    cases kind : feature.compat with
    | compat => exact meets_or.trans (or_congr_right ⟨fun meets => ⟨rfl, meets⟩, And.right⟩)
    | incompat => exact (or_iff_left fun other => nomatch other.1).symm
    | roIncompat => exact (or_iff_left fun other => nomatch other.1).symm
  · have newer : tab.fstype ≠ .ext2 :=
      fun old => upgraded (decide_eq_true ⟨old, by decide⟩)
    rw [if_neg upgraded]
    exact (or_iff_left fun other => newer other.1).symm

/-- The listed features make an ext3 filesystem if there is a journal, and not an external one. -/
theorem created_ext3 {used : FeaturesTab} (recent : ExtFsType.ext3.minver ≤ sys.e2fstoolsver)
    (final : used = upgradeFeatures .ext3 tab.fstype (removeFeatures .ext3 tab)) :
    (createdFeatures (strfeatures sys used)).fstype = .ext3 ↔
      ¬Meets tab.incompat journalDev ∧ (tab.fstype = .ext2 ∨ Meets tab.compat hasJournal) := by
  have unknown3 : ∀ feature ∈ mkfeatures, feature.firstfs.number ≤ ExtFsType.ext3.number →
      Meets feature.mask (ext3Unsupported feature.compat) →
        feature.compat = .incompat ∧ feature.mask = journalDev := by decide
  have unknown2 : ∀ feature ∈ mkfeatures, feature.firstfs.number ≤ ExtFsType.ext3.number →
      Meets feature.mask (ext2Unsupported feature.compat) →
        feature.compat = .incompat ∧ feature.mask = journalDev ∨
          feature.compat = .compat ∧ feature.mask = hasJournal := by decide
  have external : ListsExt4 sys.e2fstoolsver used ↔ Meets tab.incompat journalDev := by
    constructor
    · rintro ⟨feature, member, _, unknown, set⟩
      rw [final, meets_upgrade_ext3 member] at set
      rcases set with ⟨early, set⟩ | ⟨_, ofKind, _⟩
      · obtain ⟨ofKind, bit⟩ := unknown3 feature member early unknown
        rwa [ofKind, bit] at set
      · rw [ofKind] at unknown
        exact absurd (meets_comm.mp unknown) not_meets_zero
    · intro set
      obtain ⟨feature, member, ofKind, bit, early, old, unknown⟩ : ∃ feature ∈ mkfeatures,
          feature.compat = .incompat ∧ feature.mask = journalDev ∧
            feature.firstfs.number ≤ ExtFsType.ext3.number ∧
              feature.firste2p ≤ ExtFsType.ext3.minver ∧
                Meets feature.mask (ext3Unsupported feature.compat) := by decide
      refine ⟨feature, member, UInt64.le_trans old recent, unknown, ?_⟩
      rw [final, meets_upgrade_ext3 member]
      refine Or.inl ⟨early, ?_⟩
      rwa [ofKind, bit]
  have journal : tab.fstype = .ext2 ∨ Meets tab.compat hasJournal →
      Meets ((createdFeatures (strfeatures sys used)).get .compat) (ext2Unsupported .compat) := by
    intro reason
    obtain ⟨feature, member, ofKind, bit, early, old⟩ : ∃ feature ∈ mkfeatures,
        feature.compat = .compat ∧ feature.mask = hasJournal ∧
          feature.firstfs.number ≤ ExtFsType.ext3.number ∧
            feature.firste2p ≤ ExtFsType.ext3.minver := by decide
    refine meets_created.mpr ⟨feature, member, ofKind, UInt64.le_trans old recent, ?_, ?_⟩
    · rw [← ofKind, final, meets_upgrade_ext3 member]
      rcases reason with first | set
      · refine Or.inr ⟨first, ofKind, ?_⟩
        rw [bit]
        decide
      · refine Or.inl ⟨early, ?_⟩
        rwa [ofKind, bit]
    · rw [bit]
      decide
  constructor
  · intro created
    have plain : ¬Meets tab.incompat journalDev := by
      rw [← external, ← created_eq_ext4, created]
      exact fun same => nomatch same
    refine ⟨plain, ?_⟩
    have newer : (createdFeatures (strfeatures sys used)).fstype ≠ .ext2 := by
      rw [created]
      exact fun same => nomatch same
    obtain ⟨kind, meets⟩ := not_not.mp (mt fstype_eq_ext2.mpr newer)
    obtain ⟨feature, member, rfl, _, set, unknown⟩ := meets_created.mp meets
    rw [final, meets_upgrade_ext3 member] at set
    rcases set with ⟨early, set⟩ | ⟨first, _⟩
    · rcases unknown2 feature member early unknown with ⟨ofKind, bit⟩ | ⟨ofKind, bit⟩
      · rw [ofKind, bit] at set
        exact absurd set plain
      · rw [ofKind, bit] at set
        exact Or.inr set
    · exact Or.inl first
  · rintro ⟨plain, reason⟩
    cases created : (createdFeatures (strfeatures sys used)).fstype with
    | ext2 => exact absurd ⟨_, journal reason⟩ (fstype_eq_ext2.mp created)
    | ext3 => rfl
    | ext4 => exact absurd (external.mp (created_eq_ext4.mp created)) plain

/-- The listed features make an ext4 filesystem if the upgrade or the size of the device adds one
that does, or if one of the archive does. -/
theorem created_ext4 {used : FeaturesTab} {devblksize : UInt64}
    (recent : ExtFsType.ext4.minver ≤ sys.e2fstoolsver)
    (forced : forceFeatures sys .ext4 devblksize
      (upgradeFeatures .ext4 tab.fstype (removeFeatures .ext4 tab)) = some used) :
    (createdFeatures (strfeatures sys used)).fstype = .ext4 ↔
      tab.fstype ≠ .ext4 ∨ isLargeDevice sys devblksize ∨ ListsExt4 sys.e2fstoolsver tab := by
  rw [created_eq_ext4]
  by_cases older : tab.fstype ≠ .ext4
  · refine ⟨fun _ => Or.inl older, fun _ => ?_⟩
    obtain ⟨feature, member, ofKind, bit, old, unknown⟩ : ∃ feature ∈ mkfeatures,
        feature.compat = .incompat ∧ feature.mask = extents ∧
          feature.firste2p ≤ ExtFsType.ext4.minver ∧
            Meets feature.mask (ext3Unsupported feature.compat) := by decide
    refine ⟨feature, member, UInt64.le_trans old recent, unknown, ?_⟩
    have upgraded : getsExtents .ext4 tab.fstype = true := by
      cases same : tab.fstype with
      | ext2 => rfl
      | ext3 => rfl
      | ext4 => exact absurd same older
    have added : Meets (upgradeFeatures .ext4 tab.fstype (removeFeatures .ext4 tab)).incompat
        extents := by
      unfold upgradeFeatures
      rw [if_pos upgraded]
      exact meets_or.mpr (Or.inr (by decide))
    rw [ofKind, bit]
    unfold forceFeatures at forced
    split at forced
    · rw [if_neg (by decide)] at forced
      split at forced
      · cases forced
      · obtain rfl := Option.some.inj forced
        exact meets_or.mpr (Or.inl added)
    · obtain rfl := Option.some.inj forced
      exact added
  · have same : tab.fstype = .ext4 := not_not.mp older
    have nothing : upgradeFeatures .ext4 tab.fstype (removeFeatures .ext4 tab) =
        removeFeatures .ext4 tab := by
      rw [same]
      rfl
    have early : ∀ feature ∈ mkfeatures, feature.firstfs.number ≤ ExtFsType.ext4.number := by decide
    rw [nothing, forceFeatures] at forced
    rw [or_iff_right older]
    split at forced
    · next large =>
      refine ⟨fun _ => Or.inl large, fun _ => ?_⟩
      rw [if_neg (by decide)] at forced
      split at forced
      · cases forced
      · next recent' =>
        obtain rfl := Option.some.inj forced
        obtain ⟨feature, member, ofKind, bit, old, unknown⟩ : ∃ feature ∈ mkfeatures,
            feature.compat = .incompat ∧ feature.mask = incompat64bit ∧
              feature.firste2p ≤ progver 1 42 0 ∧
                Meets feature.mask (ext3Unsupported feature.compat) := by decide
        refine ⟨feature, member, UInt64.le_trans old (UInt64.not_lt.mp recent'), unknown, ?_⟩
        rw [ofKind, bit]
        exact meets_or.mpr (Or.inr (by decide))
    · next small =>
      obtain rfl := Option.some.inj forced
      rw [or_iff_right small]
      constructor
      · rintro ⟨feature, member, old, unknown, set⟩
        exact ⟨feature, member, old, unknown, ((meets_removeFeatures member).mp set).2⟩
      · rintro ⟨feature, member, old, unknown, set⟩
        exact ⟨feature, member, old, unknown,
          (meets_removeFeatures member).mpr ⟨early feature member, set⟩⟩

end Final

/-- The features that `extfs_mkfs` lists for `mke2fs` make a filesystem of the requested type
exactly if those of the archive lead to it. -/
theorem extfsMkfs_type_iff (mem : Mem) (sys : ExtSystem) (d : Dico) (extfstype : ExtFsType)
    (partition fsoptions mkfsuuid : List UInt8) (run : Mke2fs)
    (executed : extfsPlan mem sys d extfstype partition fsoptions mkfsuuid = some run) :
    (createdFeatures run.features).fstype = extfstype ↔
      LeadsTo sys (originalFeatures mem d) (blockSize mem d) extfstype := by
  obtain ⟨used, forced, recent, listed, _⟩ := extfsPlan_run executed
  have small : extfstype ≠ .ext4 → used = upgradeFeatures extfstype (originalFeatures mem d).fstype
      (removeFeatures extfstype (originalFeatures mem d)) := by
    intro other
    unfold forceFeatures at forced
    split at forced
    · have early : extfstype.number < ExtFsType.ext4.number := by
        cases extfstype with
        | ext2 => decide
        | ext3 => decide
        | ext4 => exact absurd rfl other
      rw [if_pos early] at forced
      cases forced
    · exact (Option.some.inj forced).symm
  -- without `-O` the archive has revision 0, and ext2 is requested
  have whole : extfstype ≠ .ext2 → run.features = strfeatures sys used := by
    intro other
    rw [listed, if_pos]
    split
    · decide
    · next same =>
      intro first
      have default : originalFeatures mem d = defaultFeatures := by
        unfold originalFeatures
        split
        · rw [if_pos first]
        · rfl
      have upgraded : getsJournal extfstype (originalFeatures mem d).fstype = true := by
        rw [default]
        cases extfstype with
        | ext2 => exact absurd rfl other
        | ext3 => decide
        | ext4 => decide
      exact same (Or.inl upgraded)
  cases extfstype with
  | ext2 =>
    refine ⟨fun _ => trivial, fun _ => ?_⟩
    have final : used = removeFeatures .ext2 (originalFeatures mem d) := by
      rw [small (by decide)]
      unfold upgradeFeatures getsJournal getsExtents
      simp [ExtFsType.number]
    have either : run.features = strfeatures sys used ∨ run.features = [] := by
      rw [listed]
      exact ite_eq_or_eq _ _ _
    rcases either with some | none
    · rw [some, final]
      exact created_ext2
    · rw [none]
      decide
  | ext3 =>
    rw [whole (by decide)]
    exact created_ext3 recent (small (by decide))
  | ext4 =>
    rw [whole (by decide)]
    exact created_ext4 recent forced

/-- A device of 1 GiB and version 1.47.0. -/
def smallSystem : ExtSystem where
  installed := true
  e2fstoolsver := progver 1 47 0
  devsize := 1073741824

/-- What `extfs_mkfs` executes for an ext3 filesystem from a header. -/
def ext3Run (d : Dico) : Option Mke2fs :=
  extfsPlan ⟨fun _ => 0, fun _ => 0⟩ smallSystem d .ext3 (ascii "/dev/sda1") [] []

/-- No features in the archive, ext3 requested. -/
theorem extfsMkfs_type_defaults : ∃ run, ext3Run Dico.alloc = some run ∧
    (createdFeatures run.features).fstype = .ext3 := by
  have executed : (ext3Run Dico.alloc).isSome = true := by decide
  obtain ⟨run, reached⟩ := Option.isSome_iff_exists.mp executed
  exact ⟨run, reached, (extfsMkfs_type_iff _ _ _ _ _ _ _ run reached).mpr
    ⟨by decide, Or.inl (by decide)⟩⟩

/-- The header of an ext4 filesystem with extents and without a journal. -/
def journallessExt4 : Dico :=
  dicoAddAll Dico.alloc
    [dicoAddU64 0 FsysHeadKey.fsextfeaturecompat (resizeInode ||| dirIndex ||| extAttr),
      dicoAddU64 0 FsysHeadKey.fsextfeatureincompat (filetype ||| extents),
      dicoAddU64 0 FsysHeadKey.fsextfeaturerocompat sparseSuper]

/-- An ext4 filesystem without a journal that is to become an ext3 becomes an ext2. -/
theorem journalless_becomes_ext2 : ∃ run, ext3Run journallessExt4 = some run ∧
    (createdFeatures run.features).fstype ≠ .ext3 := by
  have found : (ext3Run journallessExt4).map (fun run => (createdFeatures run.features).fstype) =
      some .ext2 := by decide +kernel
  obtain ⟨run, reached, type⟩ := Option.map_eq_some_iff.mp found
  refine ⟨run, reached, ?_⟩
  rw [type]
  decide

end FsArchiver
