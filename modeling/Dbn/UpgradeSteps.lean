import Dbn.Decode.WellFormedRecords
import Dbn.UpgradeMeaning

/-!
# Upgrading records in one step or in two

The conversions from version 1 to 3, from 1 to 2 and from 2 to 3 are written
separately.  That the second and the third make the first is a fact about the
layouts of the three definitions; no other type is converted twice.
-/

namespace Dbn

open Lib

/-!
## Conversions
-/

namespace Conversion

open RecordStruct

/-- Apart from the header a conversion reads no field of the header. -/
theorem newField_congr (c : Conversion) {old old' : Field -> List UInt8}
    (h : forall f, f ≠ .hd -> old f = old' f) {f : Field} (hf : f ≠ .hd) :
    c.newField old f = c.newField old' f := by
  unfold newField newDefinitionField
  cases c with
  | instrumentDefV1ToV2 => dsimp only; split <;> simp [h _ hf]
  | instrumentDefV1ToV3 => dsimp only; split <;> simp [h _ hf]
  | instrumentDefV2ToV3 => dsimp only; split <;> simp [h _ hf]
  | statV1ToV3 =>
      dsimp only
      rw [h .quantity (by decide)]
      split <;> simp [h _ hf]
  | symbolMappingV1ToV2 => dsimp only; split <;> simp [h _ hf]
  | errorV1ToV2 => dsimp only; split <;> simp [h _ hf]
  | systemV1ToV2 =>
      dsimp only
      rw [h .msg (by decide)]
      split <;> simp [h _ hf]

/-- The length in the old header is not used. -/
theorem convert_of_tail (c : Conversion) {old old' : List UInt8}
    (h : old.tail = old'.tail) : c.convert old = c.convert old' := by
  have hheader : newHeader c.target (c.source.layout.get old .hd) =
      newHeader c.target (c.source.layout.get old' .hd) := by
    rcases layout_eq_hd_cons c.source with ⟨rest, hlayout⟩
    have hdrop : forall bytes : List UInt8, (bytes.take headerLen).drop 2 =
        (bytes.tail.take 15).drop 1 := by
      intro bytes
      rw [← List.drop_one, List.drop_take, List.drop_take, List.drop_drop]
      rfl
    rw [hlayout]
    unfold newHeader Layout.get
    rw [if_pos rfl, if_pos rfl, hdrop, hdrop, h]
  rw [convert_eq_pack, convert_eq_pack, hheader]
  apply congrArg (Layout.pack c.target.layout)
  funext f
  by_cases hf : f = .hd
  · rw [if_pos hf, if_pos hf]
  · rw [if_neg hf, if_neg hf]
    exact c.newField_congr (fun g hg => get_of_tail c.source h hg) hf

/-- No field of a version 3 definition was longer in version 1 than in 2. -/
theorem width_le_of_mem_layout :
    forall field, field ∈ instrumentDefV3.layout ->
      instrumentDefV1.layout.width field.1 ≤
        instrumentDefV2.layout.width field.1 := by
  decide

/-- The second step keeps what the first one has copied. -/
theorem convert_instrumentDef {old : List UInt8}
    (h : headerLen ≤ old.length) :
    instrumentDefV2ToV3.convert (instrumentDefV1ToV2.convert old) =
      instrumentDefV1ToV3.convert old := by
  rw [convert_eq_pack, convert_eq_pack instrumentDefV1ToV3]
  apply Layout.pack_congr
  intro field hmem
  by_cases hhd : field.1 = .hd
  · -- the headers have the rest of the old header
    rcases convert_eq_header instrumentDefV1ToV2 h with ⟨rest, hconvert⟩
    have hold : (old.take headerLen).length = headerLen := by
      rw [List.length_take, Nat.min_eq_left h]
    have hlen : (newHeader instrumentDefV2 (old.take headerLen)).length =
        headerLen := by
      unfold newHeader
      rw [List.length_cons, List.length_cons, List.length_drop, hold]
      rfl
    have hmid : instrumentDefV2.layout.get
        (instrumentDefV1ToV2.convert old) .hd =
        newHeader instrumentDefV2 (old.take headerLen) := by
      rw [hconvert]
      exact List.take_left' hlen
    rw [if_pos hhd, if_pos hhd]
    change resize field.2 (newHeader _ (instrumentDefV2.layout.get _ .hd)) = _
    rw [hmid]
    rfl
  rw [if_neg hhd, if_neg hhd]
  change resize field.2 (newDefinitionField (instrumentDefV2.layout.get _)
    field.1) = resize field.2 (newDefinitionField _ field.1)
  unfold newDefinitionField
  split
  · rfl
  · rfl
  · rfl
  · rfl
  · next hreserved =>
      have hkept : instrumentDefV1ToV2.newField
          (instrumentDefV1.layout.get old) field.1 =
          instrumentDefV1.layout.get old field.1 := by
        apply newField_of_not_replaced
        intro hmem
        exact hreserved (List.mem_singleton.mp hmem)
      have hmid := get_convert instrumentDefV1ToV2 old hhd
      change instrumentDefV2.layout.get _ _ =
        resize (instrumentDefV2.layout.width field.1)
          (instrumentDefV1ToV2.newField (instrumentDefV1.layout.get old)
            field.1) at hmid
      rw [hmid, hkept]
      exact resize_resize (Nat.le_trans (Layout.length_get_le _ _ _)
        (width_le_of_mem_layout field hmem))

/-- So it is for records with the send timestamp. -/
theorem upgraded_instrumentDef {tsOut : Bool} {rec : List UInt8}
    (h : rec.length = instrumentDefV1.size + tsOutLen tsOut) :
    instrumentDefV2ToV3.upgraded tsOut
        (instrumentDefV1ToV2.upgraded tsOut rec) =
      instrumentDefV1ToV3.upgraded tsOut rec := by
  have hheader : headerLen ≤ rec.length := by
    rw [h]
    exact Nat.le_trans (by decide) (Nat.le_add_right _ _)
  cases tsOut with
  | false => exact convert_instrumentDef hheader
  | true =>
      have hlen : (instrumentDefV1ToV2.convert rec).length =
          instrumentDefV2.size := length_convert instrumentDefV1ToV2 rec
      have hconvert : instrumentDefV2ToV3.convert
          ((instrumentDefV1ToV2.upgraded true rec).take
            instrumentDefV2ToV3.source.size) =
          instrumentDefV1ToV3.convert
            (rec.take instrumentDefV1ToV3.source.size) := by
        rw [convert_take, convert_take, ← convert_instrumentDef hheader,
          convert_of_tail _ (tail_upgraded instrumentDefV1ToV2 true rec),
          ← convert_take]
        exact congrArg _ (List.take_left' hlen)
      have hts : (instrumentDefV1ToV2.upgraded true rec).drop
          instrumentDefV2ToV3.source.size = rec.drop instrumentDefV1.size :=
        tsOut_upgraded instrumentDefV1ToV2 h
      change withTsOut (instrumentDefV2ToV3.convert
        ((instrumentDefV1ToV2.upgraded true rec).take _))
        ((instrumentDefV1ToV2.upgraded true rec).drop _) = _
      rw [hconvert, hts]
      rfl

end Conversion

/-!
## Records
-/

namespace DbnFsm

open Conversion

/-- What the two steps and the direct one do with a type of record. -/
inductive Steps (rtype : UInt8) : Prop where
  /-- Definitions are converted twice. -/
  | twice
      (first : conversionFor 1 .upgradeToV2 rtype = some .instrumentDefV1ToV2)
      (second : conversionFor 2 .upgradeToV3 rtype = some .instrumentDefV2ToV3)
      (direct : conversionFor 1 .upgradeToV3 rtype = some .instrumentDefV1ToV3)
  /-- Some types are converted by the first step. -/
  | first {c : Conversion}
      (first : conversionFor 1 .upgradeToV2 rtype = some c)
      (second : conversionFor 2 .upgradeToV3 rtype = none)
      (direct : conversionFor 1 .upgradeToV3 rtype = some c)
  /-- The others are left to the second step. -/
  | second
      (first : conversionFor 1 .upgradeToV2 rtype = none)
      (second : conversionFor 2 .upgradeToV3 rtype =
        conversionFor 1 .upgradeToV3 rtype)
      (struct : structFor 2 rtype = structFor 1 rtype)

theorem steps (rtype : UInt8) : Steps rtype := by
  by_cases hdefinition : rtype = Rtype.instrumentDef
  · rw [hdefinition]
    exact Steps.twice rfl rfl rfl
  by_cases hmapping : rtype = Rtype.symbolMapping
  · rw [hmapping]
    exact Steps.first rfl rfl rfl
  by_cases herror : rtype = Rtype.error
  · rw [herror]
    exact Steps.first rfl rfl rfl
  by_cases hsystem : rtype = Rtype.system
  · rw [hsystem]
    exact Steps.first rfl rfl rfl
  apply Steps.second
  · simp [conversionFor, hdefinition, hmapping, herror, hsystem]
  · simp [conversionFor, hdefinition, hmapping, herror, hsystem]
  · simp [structFor, hdefinition, hmapping, herror, hsystem]

/-- The first step makes the structs of version 2. -/
theorem structFor_target {rtype : UInt8} {c : Conversion}
    (h : conversionFor 1 .upgradeToV2 rtype = some c) :
    structFor 2 c.target.rtype = some c.target ∧ c.target.rtype = rtype := by
  unfold conversionFor at h
  split_ifs at h with h1 h2 h3 h4 h5 h6 h7 <;> cases h
  · exact ⟨rfl, h1.2.2.symm⟩
  · exact absurd h2.2.1 (by decide)
  · exact absurd h3.2.1 (by decide)
  · exact ⟨rfl, h4.2.2.symm⟩
  · exact ⟨rfl, h5.2.2.symm⟩
  · exact ⟨rfl, h6.2.2.symm⟩
  · exact absurd h7.1 (by decide)

variable {tsOut : Bool} {rec : List UInt8}

/-- An upgraded record is a record of version 2 of the same type. -/
theorem VersionRecord.upgraded (h : VersionRecord 1 tsOut rec) :
    VersionRecord 2 tsOut (upgradedImage 1 .upgradeToV2 tsOut rec) ∧
      rtypeOf (upgradedImage 1 .upgradeToV2 tsOut rec) = rtypeOf rec := by
  unfold upgradedImage
  split
  · next hnone =>
      refine ⟨⟨h.size, h.header, ?_⟩, rfl⟩
      intro s hs
      apply h.structSize
      cases steps (rtypeOf rec) with
      | twice first =>
          rw [first] at hnone
          cases hnone
      | first first =>
          rw [first] at hnone
          cases hnone
      | second _ _ struct =>
          rw [← struct]
          exact hs
  · next c hc =>
      rcases structFor_target hc with ⟨hstruct, hrtype⟩
      refine ⟨⟨?_, ?_, ?_⟩, (c.rtypeOf_upgraded tsOut rec).trans hrtype⟩
      · rw [recordSize_upgraded, length_upgraded]
      · rw [length_upgraded]
        exact Nat.le_trans c.le_target_size (Nat.le_add_right _ _)
      · intro s hs
        rw [c.rtypeOf_upgraded, hstruct] at hs
        cases hs
        rw [length_upgraded]

/-- The two steps make the record that the direct one makes. -/
theorem upgradedImage_steps (h : VersionRecord 1 tsOut rec) :
    upgradedImage 2 .upgradeToV3 tsOut
        (upgradedImage 1 .upgradeToV2 tsOut rec) =
      upgradedImage 1 .upgradeToV3 tsOut rec := by
  have hrtype := h.upgraded.2
  unfold upgradedImage at hrtype ⊢
  rw [hrtype]
  cases steps (rtypeOf rec) with
  | twice first second direct =>
      rw [first, second, direct]
      have hstruct := structFor_of_conversionFor first
      exact upgraded_instrumentDef (h.structSize _ hstruct)
  | first first second direct => rw [first, second, direct]
  | second first second => rw [first, second]

end DbnFsm
end Dbn
