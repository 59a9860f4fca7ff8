import Dbn.Decode.WellFormedRecords
import Dbn.Metadata.SymbolIndex

/-!
# Symbols of a live stream

A point-in-time map that is updated from every record of a stream has, for each
instrument, the last symbol that was announced.  It is the same map for every
upgrade policy, as long as the symbols end inside their fields.
-/

namespace Dbn

open Lib
open Conversion (instrumentId)
open DbnFsm (VersionRecord upgradedImage conversionFor requiredSize structFor)

/-!
## Runs
-/

namespace PitSymbolMap

variable {m m' : PitSymbolMap} {es : List Error} {records : List RecordRef}

theorem get_of_tried (tried : Tried onRecord records m es m')
    (iid : UInt32) : m'.get iid =
      (HashMap.lastValue (records.flatMap (fun r =>
        (announced r.bytes).toList)) iid).or (m.get iid) := by
  have hstep : forall {r : RecordRef} {res : Result Unit}
      {m m' : PitSymbolMap}, onRecord r m = (res, m') -> ¬ res.IsPanic ->
      m'.get iid = (HashMap.lastValue (announced r.bytes).toList iid).or
        (m.get iid) := by
    intro r res m m' call hpanic
    have hfits : FitsMapping r.bytes := by
      by_contra hnot
      apply hpanic
      have hpanics := (onRecord_isPanic_iff r m).mpr hnot
      rwa [call] at hpanics
    rw [← get_onRecord hfits iid, call]
  induction tried with
  | nil => rfl
  | ok call _ ih =>
      rw [ih, hstep call (Res.ok_not_isPanic _), List.flatMap_cons,
        HashMap.lastValue_append, Option.or_assoc]
  | err call _ ih =>
      rw [ih, hstep call (Res.err_not_isPanic _), List.flatMap_cons,
        HashMap.lastValue_append, Option.or_assoc]

/-- A stream without mappings that are too short can be followed. -/
theorem exists_tried
    (h : forall r, r ∈ records -> FitsMapping r.bytes) (m : PitSymbolMap) :
    exists es m', Tried onRecord records m es m' := by
  induction records generalizing m with
  | nil => exact ⟨[], m, Tried.nil⟩
  | cons r rest ih =>
      rw [List.forall_mem_cons] at h
      have hpanic : ¬ (onRecord r m).1.IsPanic := by
        rw [onRecord_isPanic_iff]
        exact not_not.mpr h.1
      rcases ih h.2 (onRecord r m).2 with ⟨es, m', tried⟩
      exact ⟨_, m', (Tried.single (Prod.mk.eta.symm) hpanic).append tried⟩

end PitSymbolMap

/-!
## Upgrades
-/

variable {version : Nat} {policy : VersionUpgradePolicy} {tsOut : Bool}
  {rec a b : List UInt8}

/-- The symbol of a symbol mapping record ends inside its field. -/
def SymbolEnds (bytes : List UInt8) : Prop :=
  rtypeOf bytes = Rtype.symbolMapping ->
    0 ∈ (mappingStruct (recordSize bytes)).layout.get bytes .stypeOutSymbol

instance (bytes : List UInt8) : Decidable (SymbolEnds bytes) :=
  inferInstanceAs (Decidable (_ -> _))

theorem announced_congr (hrtype : rtypeOf a = rtypeOf b)
    (hid : instrumentId a = instrumentId b)
    (hsymbol : forall s, symbolOf a = Res.ok s <-> symbolOf b = Res.ok s) :
    announced a = announced b := by
  unfold announced
  rw [hrtype, hid]
  by_cases hmapping : rtypeOf b = Rtype.symbolMapping
  swap
  · rw [if_neg hmapping, if_neg hmapping]
  rw [if_pos hmapping, if_pos hmapping]
  cases ha : symbolOf a with
  | ok s => rw [(hsymbol s).mp ha]
  | err e =>
      cases hb : symbolOf b with
      | ok s => cases ha.symm.trans ((hsymbol s).mpr hb)
      | err e' => rfl
      | panic p => rfl
  | panic p =>
      cases hb : symbolOf b with
      | ok s => cases ha.symm.trans ((hsymbol s).mpr hb)
      | err e' => rfl
      | panic p' => rfl

/-- A text that ends inside its field reads the same in a longer one. -/
theorem cCharsToStr_resize_of_mem {bytes : List UInt8} {size : Nat}
    (hlen : bytes.length ≤ size) (hnul : 0 ∈ bytes) :
    Conversion.cCharsToStr (resize size bytes) =
      Conversion.cCharsToStr bytes := by
  have hresize : resize size bytes =
      bytes ++ List.replicate (size - bytes.length) 0 := by
    unfold resize
    rw [List.take_of_length_le hlen]
  rcases List.append_of_mem hnul with ⟨front, back, rfl⟩
  have htext : forall rest : List UInt8,
      (front ++ 0 :: rest).takeWhile (· ≠ 0) =
        front.takeWhile (· ≠ 0) := by
    intro rest
    rw [List.takeWhile_append]
    split
    · rw [List.takeWhile_cons_of_neg (by decide), List.append_nil]
      exact (List.takeWhile_prefix _).eq_of_length ‹_› |>.symm
    · rfl
  unfold Conversion.cCharsToStr
  rw [hresize, if_pos (List.mem_append_left _ hnul), if_pos hnul,
    List.append_assoc, List.cons_append, htext, htext]

theorem get_stypeOutSymbol_upgraded (tsOut : Bool) (rec : List UInt8) :
    RecordStruct.symbolMappingV2.layout.get
        (Conversion.symbolMappingV1ToV2.upgraded tsOut rec) .stypeOutSymbol =
      resize symbolCstrLenV3
        (RecordStruct.symbolMappingV1.layout.get rec .stypeOutSymbol) :=
  Conversion.get_of_copied
    (show Conversion.Copied .symbolMappingV1ToV2 .stypeOutSymbol
      (.chars symbolCstrLenV1) (.chars symbolCstrLenV3) by decide) rfl

/-- The converted mapping announces what the old one does. -/
theorem announced_upgraded
    (hsize : recordSize rec = rec.length)
    (hlen : rec.length = requiredSize .symbolMappingV1ToV2 tsOut)
    (hrtype : rtypeOf rec = Rtype.symbolMapping) (hends : SymbolEnds rec) :
    announced (Conversion.symbolMappingV1ToV2.upgraded tsOut rec) =
      announced rec := by
  have hkept := Conversion.keepsMeaning_upgraded .symbolMappingV1ToV2 tsOut
    hlen hrtype
  have hold : mappingStruct (recordSize rec) = .symbolMappingV1 := by
    have hts := tsOutLen_le tsOut
    apply if_neg
    rw [hsize, hlen]
    show ¬ 80 + tsOutLen tsOut ≥ 176
    omega
  have hnew : mappingStruct (recordSize
      (Conversion.symbolMappingV1ToV2.upgraded tsOut rec)) =
      .symbolMappingV2 := by
    apply if_pos
    rw [Conversion.recordSize_upgraded]
    exact Nat.le_add_right _ _
  have hnul := hends hrtype
  rw [hold] at hnul
  have hwidth : (RecordStruct.symbolMappingV1.layout.get rec
      .stypeOutSymbol).length ≤ symbolCstrLenV3 :=
    Nat.le_trans (Layout.length_get_le _ _ _) (by decide)
  have hlenNew : RecordStruct.symbolMappingV2.size ≤
      (Conversion.symbolMappingV1ToV2.upgraded tsOut rec).length := by
    rw [Conversion.length_upgraded]
    exact Nat.le_add_right _ _
  have hlenOld : RecordStruct.symbolMappingV1.size ≤ rec.length := by
    rw [hlen]
    exact Nat.le_add_right _ _
  apply announced_congr hkept.rtype hkept.instrumentId
  intro s
  unfold symbolOf
  rw [hold, hnew, RecordStruct.text_eq_ok_iff hlenNew,
    RecordStruct.text_eq_ok_iff hlenOld, get_stypeOutSymbol_upgraded,
    cCharsToStr_resize_of_mem hwidth hnul]

theorem rtypeOf_of_conversionFor {c : Conversion}
    (h : conversionFor version policy (rtypeOf rec) = some c) :
    rtypeOf rec = c.source.rtype := by
  unfold conversionFor at h
  split_ifs at h with h₁ h₁ h₁ h₁ h₁ h₁ h₁ <;> cases h
  all_goals exact h₁.2.2

theorem instrumentId_upgradedImage (hrec : VersionRecord version tsOut rec)
    (policy : VersionUpgradePolicy) :
    instrumentId (upgradedImage version policy tsOut rec) =
      instrumentId rec := by
  unfold upgradedImage
  cases hconversion : conversionFor version policy (rtypeOf rec) with
  | none => rfl
  | some c =>
      exact (Conversion.keepsMeaning_upgraded c tsOut
        ((hrec.wellFormed policy).structSize c hconversion)
        (rtypeOf_of_conversionFor hconversion)).instrumentId

/-- Only old symbol mappings are converted, the others are other records. -/
theorem announced_upgradedImage (hrec : VersionRecord version tsOut rec)
    (policy : VersionUpgradePolicy) (hends : SymbolEnds rec) :
    announced (upgradedImage version policy tsOut rec) = announced rec := by
  unfold upgradedImage
  cases hconversion : conversionFor version policy (rtypeOf rec) with
  | none => rfl
  | some c =>
      dsimp only
      have hsource := rtypeOf_of_conversionFor hconversion
      have hlen : rec.length = requiredSize c tsOut :=
        (hrec.wellFormed policy).structSize c hconversion
      by_cases hmapping : rtypeOf rec = Rtype.symbolMapping
      · have hc : c = .symbolMappingV1ToV2 := by
          rw [hmapping] at hsource
          cases c <;> first | rfl | exact absurd hsource (by decide)
        subst hc
        exact announced_upgraded hrec.size hlen hmapping hends
      · have hrtype : rtypeOf (c.upgraded tsOut rec) = rtypeOf rec :=
          (Conversion.keepsMeaning_upgraded c tsOut hlen hsource).rtype
        unfold announced
        rw [hrtype, if_neg hmapping, if_neg hmapping]

/-- A record of a version is not too short for its type. -/
theorem fitsMapping_upgradedImage (hrec : VersionRecord version tsOut rec)
    (policy : VersionUpgradePolicy) :
    FitsMapping (upgradedImage version policy tsOut rec) := by
  intro hrtype
  unfold upgradedImage at hrtype ⊢
  cases hconversion : conversionFor version policy (rtypeOf rec) with
  | none =>
      rw [hconversion] at hrtype
      dsimp only at hrtype ⊢
      have hstruct := hrec.structSize
        (if version = 1 then .symbolMappingV1 else .symbolMappingV2) (by
          rw [hrtype]
          rfl)
      rw [hrec.size, hstruct]
      split
      · exact Nat.le_add_right _ _
      · exact Nat.le_trans (by decide) (Nat.le_add_right _ _)
  | some c =>
      rw [hconversion] at hrtype
      dsimp only at hrtype ⊢
      rw [Conversion.rtypeOf_upgraded] at hrtype
      rw [Conversion.recordSize_upgraded]
      apply Nat.le_trans _ (Nat.le_add_right _ _)
      cases c <;> decide

/--
For every version, upgrade policy and `ts_out` and all records of the version
whose symbols end inside their fields, a map that follows the decoded records
has for each instrument the last symbol that the records of the stream
announce, and else the one it had.
-/
theorem PitSymbolMap.get_live (version : Nat) (policy : VersionUpgradePolicy)
    (tsOut : Bool) {records : List (List UInt8)}
    (hrecords : forall rec, rec ∈ records ->
      VersionRecord version tsOut rec ∧ SymbolEnds rec) (m : PitSymbolMap) :
    exists es m', Tried onRecord (records.map (fun rec =>
        ⟨upgradedImage version policy tsOut rec⟩)) m es m' ∧
      forall iid, m'.get iid =
        (HashMap.lastValue (records.flatMap (fun rec =>
          (announced rec).toList)) iid).or (m.get iid) := by
  have hfits : forall r, r ∈ records.map (fun rec => RecordRef.mk
      (upgradedImage version policy tsOut rec)) -> FitsMapping r.bytes := by
    intro r hr
    rcases List.mem_map.mp hr with ⟨rec, hrec, rfl⟩
    exact fitsMapping_upgradedImage (hrecords rec hrec).1 policy
  rcases exists_tried hfits m with ⟨es, m', tried⟩
  refine ⟨es, m', tried, ?_⟩
  intro iid
  rw [get_of_tried tried iid, List.flatMap_map]
  rw [List.flatMap_congr (fun rec hrec => by
    rw [announced_upgradedImage (hrecords rec hrec).1 policy
      (hrecords rec hrec).2])]

/-- A symbol mapping of version 1 and a trade of the same instrument. -/
def mappingAndTrade : List (List UInt8) :=
  [[0x14, 0x16, 1, 0, 7, 0, 0, 0] ++ List.replicate 8 0 ++
      resize 22 (asciiBytes "ES.FUT") ++ resize 22 (asciiBytes "ESH3") ++
      List.replicate 20 0,
    [0x0C, 0x00, 1, 0, 7, 0, 0, 0] ++ List.replicate 40 0]

/-- With the default policy, from an empty map. -/
theorem PitSymbolMap.get_live_mappingAndTrade :
    exists es m', Tried onRecord (mappingAndTrade.map (fun rec =>
        ⟨upgradedImage 1 .upgradeToV3 false rec⟩)) (∅ : PitSymbolMap) es m' ∧
      forall iid, m'.get iid =
        (HashMap.lastValue (mappingAndTrade.flatMap (fun rec =>
          (announced rec).toList)) iid).or ((∅ : PitSymbolMap).get iid) :=
  PitSymbolMap.get_live 1 .upgradeToV3 false (by decide +kernel) ∅

end Dbn
