import Dbn.Decode.FsmInvariant

/-!
# Calls of `process` in the record phase

A call settles the machine and then does what `next` says: it asks for more,
reports an invalid record, panics on a truncated one, or hands out a record.
-/

namespace Dbn
namespace DbnFsm

open Lib

variable {B D : Type} [Buffer B] [CalendarDate D]

/-- What comes next in the unprocessed data of the machine. -/
def nextItem (fsm : DbnFsm B) : Next :=
  next fsm.upgradePolicy fsm.tsOut fsm.inputDbnVersion fsm.data

/-- The bytes of the record that was decoded last. -/
def lastBytes (fsm : DbnFsm B) : Option (List UInt8) :=
  fsm.lastRecord.map RecordRef.asRef

theorem selectConversion_idem (version : Option Nat)
    (policy : VersionUpgradePolicy) (rec : List UInt8) :
    selectConversion (selectConversion version policy rec).2 policy rec =
      selectConversion version policy rec := by
  cases version with
  | some v => rfl
  | none =>
      simp only [selectConversion]
      cases hdetect : detectConversion (rtypeOf rec) policy
          (recordSize rec) with
      | none => simp
      | some found =>
          obtain ⟨c, v⟩ := found
          cases v with
          | none => simp
          | some v =>
              have hfor : conversionFor v policy (rtypeOf rec) = some c := by
                unfold detectConversion at hdetect
                unfold conversionFor
                split_ifs at hdetect with h1 h2 h3 h4 h5 h6 h7 <;>
                  cases hdetect <;>
                  grind [Rtype.instrumentDef, Rtype.error, Rtype.system,
                    Rtype.symbolMapping, Rtype.statistics]
              simp [hfor]

/-- Delivering a record again gives the same record. -/
theorem next_idem {policy : VersionUpgradePolicy} {tsOut : Bool}
    {version version' : Option Nat} {bytes image : List UInt8}
    (h : next policy tsOut version bytes = .record image version') :
    next policy tsOut version' bytes = .record image version' := by
  have hcomplete := complete_of_next_record h
  have hidem := selectConversion_idem version policy bytes
  rw [next_of_complete hcomplete] at h ⊢
  have hversion : (selectConversion version policy bytes).2 = version' := by
    unfold nextImage at h
    split at h
    · next v heq =>
        rw [heq]
        cases h
        rfl
    · next c v heq =>
        rw [heq]
        split_ifs at h
        cases h
        rfl
  rw [hversion] at hidem
  unfold nextImage at h ⊢
  rw [hidem]
  exact h

/-!
## Handing out a record
-/

/-- The machine is in the `record` state with a record to hand out. -/
structure Awaiting (fsm : DbnFsm B) (image : List UInt8)
    (version : Option Nat) : Prop where
  state : fsm.state = .record
  compat : Buffer.data fsm.compatBuffer = []
  supported : SupportedVersion fsm.inputDbnVersion
  item : next fsm.upgradePolicy fsm.tsOut fsm.inputDbnVersion
    (Buffer.data fsm.buffer) = .record image version

/-- The machine `fsm'` has handed out a record of `fsm`. -/
structure HandsOut (fsm : DbnFsm B) (image : List UInt8)
    (version : Option Nat) (fsm' : DbnFsm B) : Prop where
  buffer : fsm'.buffer = fsm.buffer
  upgradePolicy : fsm'.upgradePolicy = fsm.upgradePolicy
  tsOut : fsm'.tsOut = fsm.tsOut
  version : fsm'.inputDbnVersion = version
  state : fsm'.state = .consume (recordSize (Buffer.data fsm.buffer))
    (Buffer.data fsm'.compatBuffer).length 0 false
  image : Buffer.data fsm'.compatBuffer = image ∨
    Buffer.data fsm'.compatBuffer = [] ∧
      image = (Buffer.data fsm.buffer).take (recordSize (Buffer.data fsm.buffer))

/-- The machine before another round for the same record. -/
def expanded (fsm : DbnFsm B) (version : Option Nat) : DbnFsm B :=
  { fsm with inputDbnVersion := version }.doubleCompatBuffer

theorem processRound_record {fsm : DbnFsm B} (h : fsm.state = .record) :
    fsm.processRound = (fsm.processRecord : Round D B) := by
  unfold processRound
  rw [h]

namespace HandsOut

variable {fsm fsm' : DbnFsm B} {image : List UInt8} {version : Option Nat}

theorem recordPhase (h : fsm.HandsOut image version fsm') :
    fsm'.RecordPhase := by
  rw [recordPhase_iff]
  exact Or.inr ⟨_, _, _, _, h.state⟩

theorem data_eq (h : fsm.HandsOut image version fsm')
    (hstate : fsm.state = .record) :
    fsm'.data = fsm.data.drop (recordSize fsm.data) := by
  rw [data_eq_buffer hstate]
  unfold DbnFsm.data
  rw [h.state, h.buffer]

theorem inv (h : fsm.HandsOut image version fsm')
    (hcomplete : CompleteRecord (Buffer.data fsm.buffer))
    (hversion : SupportedVersion version) : fsm'.Inv := by
  unfold Inv
  rw [h.state, h.buffer, h.version]
  exact ⟨hcomplete.body, Nat.add_zero _, Nat.zero_le _, hversion⟩

/-- The record that was handed out is the last record. -/
theorem lastBytes_eq (h : fsm.HandsOut image version fsm')
    (hitem : next fsm.upgradePolicy fsm.tsOut fsm.inputDbnVersion
      (Buffer.data fsm.buffer) = .record image version) :
    fsm'.lastBytes = some image := by
  have hsize := recordSize_image hitem
  have hcomplete := complete_of_next_record hitem
  have hheader := hcomplete.header
  have hbody := hcomplete.body
  rw [headerLen_eq] at hheader
  unfold lastBytes lastRecord
  rw [h.state, h.buffer]
  rcases h.image with himage | ⟨hnil, himage⟩
  · have hpos : 0 < image.length := by
      rw [next_of_complete hcomplete] at hitem
      unfold nextImage at hitem
      split at hitem
      · cases hitem
        rw [List.length_take]
        omega
      · split_ifs at hitem
        cases hitem
        exact (Conversion.length_upgraded_le _ _ _).1
    simp [himage, hpos, RecordRef.asRef, hsize]
  · simp [hnil, himage, RecordRef.asRef]

end HandsOut

/-- A call in the record phase settles the machine first. -/
theorem process_eq_settle {fsm : DbnFsm B} (h : fsm.RecordPhase) :
    exists fuel, fsm.process (D := D) = fsm.settle.processLoop (fuel + 3) := by
  rcases recordPhase_iff.mp h with hrec | ⟨read, compat, compatFill, e, hcons⟩
  · exact ⟨1, by rw [settle_eq_self fsm hrec]; rfl⟩
  · refine ⟨0, ?_⟩
    rw [settle_eq_consume hcons]
    unfold process
    rw [processLoop]
    simp only [processRound, hcons]

theorem process_of_done {fsm : DbnFsm B} (h : fsm.RecordPhase)
    {res : ProcessResult D Unit}
    (hround : fsm.settle.processRecord = Round.done res fsm.settle) :
    fsm.process = .ret (res, fsm.settle) := by
  obtain ⟨fuel, hprocess⟩ := process_eq_settle (D := D) h
  rw [hprocess, processLoop, processRound_record (state_settle h), hround]

variable [LawfulBuffer B]

theorem Awaiting.expanded {fsm : DbnFsm B} {image : List UInt8}
    {version : Option Nat} (h : fsm.Awaiting image version) :
    (fsm.expanded version).Awaiting image version where
  state := h.state
  compat := by
    simpa [DbnFsm.expanded, doubleCompatBuffer] using h.compat
  supported := supportedVersion_next h.supported h.item
  item := next_idem h.item

/-- Growing leaves room for any record after two rounds. -/
theorem space_expanded_twice {fsm : DbnFsm B} {version : Option Nat} :
    maxRecordLen < Buffer.availableSpace
      ((fsm.expanded version).expanded version).compatBuffer := by
  have h := LawfulBuffer.layout fsm.compatBuffer
  rw [Buffer.availableSpace_eq]
  simp only [expanded, doubleCompatBuffer, LawfulBuffer.capacity_grow,
    LawfulBuffer.position_grow, LawfulBuffer.data_grow, maxRecordLen_eq]
  omega

omit [CalendarDate D] in
/-- A round for a record hands it out or grows the compatibility buffer. -/
theorem processRecord_of_awaiting {fsm : DbnFsm B} {image : List UInt8}
    {version : Option Nat} (h : fsm.Awaiting image version) :
    (exists fsm', fsm.processRecord = Round.done (D := D) (.record ()) fsm' ∧
      fsm.HandsOut image version fsm') ∨
    (Buffer.availableSpace fsm.compatBuffer ≤ maxRecordLen ∧
      fsm.processRecord = Round.again (D := D) (fsm.expanded version)) := by
  have hcomplete := complete_of_next_record h.item
  have hlen := hcomplete.length_le
  have hheader := hcomplete.header
  have hbody := hcomplete.body
  have hitem := h.item
  rw [next_of_complete hcomplete] at hitem
  unfold processRecord
  simp only [if_neg (Nat.not_lt.mpr hlen), if_neg (Nat.not_lt.mpr hheader),
    gt_iff_lt, if_neg (Nat.not_lt.mpr hbody), upgradeRecord_eq h.supported]
  unfold nextImage at hitem
  split at hitem
  · -- the record is handed out as it is
    next v heq =>
      cases hitem
      have hversion := selectConversion_version (congrArg Prod.fst heq)
      rw [heq] at hversion
      simp only [heq]
      refine Or.inl ⟨_, rfl, rfl, rfl, rfl, hversion.symm, ?_,
        Or.inr ⟨?_, rfl⟩⟩
      · simp [Buffer.data_append, h.compat]
      · simp [Buffer.data_append, h.compat]
  · next c v heq =>
      split_ifs at hitem with hsize
      cases hitem
      have hrtype := selectConversion_rtype (congrArg Prod.fst heq)
      simp only [heq, upgradeRecordTo_eq hrtype, if_neg hsize, ge_iff_le]
      by_cases hspace : Buffer.availableSpace fsm.compatBuffer ≤
          c.target.size + tsOutLen fsm.tsOut
      · have hmax := c.target_size_le
        have hts := tsOutLen_le fsm.tsOut
        rw [if_pos hspace, maxRecordLen_eq]
        exact Or.inr ⟨by omega, rfl⟩
      · rw [if_neg hspace]
        have happend : Buffer.data (Buffer.append fsm.compatBuffer
            (c.upgraded fsm.tsOut ((Buffer.data fsm.buffer).take
              (requiredSize c fsm.tsOut)))) = c.upgraded fsm.tsOut
            ((Buffer.data fsm.buffer).take (requiredSize c fsm.tsOut)) := by
          rw [Buffer.data_append (by rw [Conversion.length_upgraded]; omega),
            h.compat, List.nil_append]
        refine Or.inl ⟨_, rfl, rfl, rfl, rfl, rfl, ?_, Or.inl happend⟩
        simp only [happend]

/-- In the `record` state three rounds are enough to hand out a record. -/
theorem processLoop_of_awaiting {fsm : DbnFsm B} {image : List UInt8}
    {version : Option Nat} (h : fsm.Awaiting image version) (fuel : Nat) :
    exists fsm', fsm.processLoop (D := D) (fuel + 3) = .ret (.record (), fsm') ∧
      fsm.HandsOut image version fsm' := by
  have hagain : forall {fsm1 : DbnFsm B} (n : Nat),
      fsm1.Awaiting image version ->
      (exists fsm', fsm1.processLoop (D := D) (n + 1) =
        .ret (.record (), fsm') ∧ fsm1.HandsOut image version fsm') ∨
      (Buffer.availableSpace fsm1.compatBuffer ≤ maxRecordLen ∧
        fsm1.processLoop (D := D) (n + 1) =
          (fsm1.expanded version).processLoop n) := by
    intro fsm1 n hawait
    simp only [processLoop, processRound_record hawait.state]
    rcases processRecord_of_awaiting (D := D) hawait with
      ⟨fsm', hround, hout⟩ | ⟨hspace, hround⟩
    · exact Or.inl ⟨fsm', by rw [hround], hout⟩
    · exact Or.inr ⟨hspace, by rw [hround]⟩
  rcases hagain (fuel + 2) h with hdone | ⟨_, h1⟩
  · exact hdone
  · rw [h1]
    rcases hagain (fuel + 1) h.expanded with ⟨fsm', hret, hout⟩ | ⟨_, h2⟩
    · exact ⟨fsm', hret, ⟨hout.buffer, hout.upgradePolicy, hout.tsOut,
        hout.version, hout.state, hout.image⟩⟩
    · rw [h2]
      rcases hagain fuel h.expanded.expanded with
        ⟨fsm', hret, hout⟩ | ⟨hspace, _⟩
      · exact ⟨fsm', hret, ⟨hout.buffer, hout.upgradePolicy, hout.tsOut,
          hout.version, hout.state, hout.image⟩⟩
      · exact absurd hspace (Nat.not_le.mpr space_expanded_twice)

/-!
## One call
-/

theorem process_needMore {fsm : DbnFsm B} (h : fsm.RecordPhase) {n : Nat}
    (hitem : fsm.nextItem = .needMore n) :
    fsm.process (D := D) = .ret (.readMore n, fsm.settle) := by
  apply process_of_done h
  unfold nextItem next at hitem
  unfold processRecord
  simp only [data_buffer_settle h]
  split_ifs at hitem ⊢ with hlen hheader hbody
  · cases hitem
    rfl
  · cases hitem
    rfl
  · rcases nextImage_cases fsm.upgradePolicy fsm.tsOut fsm.inputDbnVersion
      fsm.data with himage | ⟨_, _, himage⟩
    · rw [himage] at hitem
      cases hitem
    · rw [himage] at hitem
      cases hitem

theorem process_invalid {fsm : DbnFsm B} (h : fsm.RecordPhase) {e : Error}
    (hitem : fsm.nextItem = .invalid e) :
    fsm.process (D := D) = .ret (.err e, fsm.settle) := by
  apply process_of_done h
  unfold nextItem next at hitem
  unfold processRecord
  simp only [data_buffer_settle h]
  split_ifs at hitem ⊢ with hlen hheader hbody
  · cases hitem
    rfl
  · rcases nextImage_cases fsm.upgradePolicy fsm.tsOut fsm.inputDbnVersion
      fsm.data with himage | ⟨_, _, himage⟩
    · rw [himage] at hitem
      cases hitem
    · rw [himage] at hitem
      cases hitem

/-- A record that is too short for its conversion fails an assertion. -/
theorem process_truncated {fsm : DbnFsm B} (hinv : fsm.Inv)
    (h : fsm.RecordPhase) (hitem : fsm.nextItem = .truncated) :
    fsm.process (D := D) = .panic Panic.assertion := by
  have hcomplete := complete_of_next_truncated hitem
  have hlen := hcomplete.length_le
  have hheader := hcomplete.header
  have hbody := hcomplete.body
  obtain ⟨fuel, hprocess⟩ := process_eq_settle (D := D) h
  have hround : fsm.settle.processRecord =
      Round.panicked (D := D) Panic.assertion := by
    unfold processRecord
    simp only [data_buffer_settle h, if_neg (Nat.not_lt.mpr hlen),
      if_neg (Nat.not_lt.mpr hheader), gt_iff_lt,
      if_neg (Nat.not_lt.mpr hbody), settle_inputDbnVersion,
      settle_upgradePolicy, settle_tsOut,
      upgradeRecord_eq (hinv.supportedVersion h)]
    unfold nextItem at hitem
    rw [next_of_complete hcomplete] at hitem
    unfold nextImage at hitem
    split at hitem
    · cases hitem
    · next c v heq =>
        split_ifs at hitem with hsize
        have hrtype := selectConversion_rtype (congrArg Prod.fst heq)
        simp only [heq, upgradeRecordTo_eq hrtype, if_pos hsize]
        rfl
  rw [hprocess, processLoop, processRound_record (state_settle h), hround]

theorem process_record {fsm : DbnFsm B} (hinv : fsm.Inv)
    (h : fsm.RecordPhase) {image : List UInt8} {version : Option Nat}
    (hitem : fsm.nextItem = .record image version) :
    exists fsm', fsm.process (D := D) = .ret (.record (), fsm') ∧
      fsm.settle.HandsOut image version fsm' := by
  have hawait : fsm.settle.Awaiting image version :=
    { state := state_settle h
      compat := (inv_settle hinv).compat_nil (state_settle h)
      supported := by
        rw [settle_inputDbnVersion]
        exact hinv.supportedVersion h
      item := by
        rw [data_buffer_settle h, settle_inputDbnVersion,
          settle_upgradePolicy, settle_tsOut]
        exact hitem }
  obtain ⟨fuel, hprocess⟩ := process_eq_settle (D := D) h
  rw [hprocess]
  exact processLoop_of_awaiting hawait fuel

end DbnFsm
end Dbn
