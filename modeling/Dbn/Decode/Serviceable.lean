import Dbn.Decode.Reachable
import Dbn.Decode.WellFormedRecords

/-!
# Whether `ReadMore` can be served

A reader that is asked for `n` bytes reads into `space()`, which is what lies
behind the data: the bytes that were consumed since the data was last moved to
the front are lost until it is moved again.  They are at most half of the
buffer, so a buffer of about two records is needed, and not of one.
-/

namespace Dbn
namespace DbnFsm

open Lib

variable {B D : Type} [Buffer B] [CalendarDate D]

/-!
## Runs and their streams
-/

/--
The machines that are reached by reads into `space()`, each followed by
`fill`, and by calls of `process`, with the bytes that were read.
-/
inductive ReadRun (D : Type) [CalendarDate D] (start : DbnFsm B) :
    DbnFsm B -> List UInt8 -> Prop where
  | start : ReadRun D start start []
  | read {fsm : DbnFsm B} {fed : List UInt8} (bytes : List UInt8)
      (before : ReadRun D start fsm fed) (fits : bytes.length ≤ fsm.spaceLen) :
      ReadRun D start ((fsm.writeSpace bytes).fill bytes.length) (fed ++ bytes)
  | process {fsm fsm' : DbnFsm B} {fed : List UInt8}
      {res : ProcessResult D Unit} (before : ReadRun D start fsm fed)
      (call : fsm.process = .ret (res, fsm')) : ReadRun D start fsm' fed

/-- What follows the first records, all of them complete. -/
inductive AfterRecords (bytes : List UInt8) : List UInt8 -> Prop where
  | none : AfterRecords bytes bytes
  | next {rest : List UInt8} (before : AfterRecords bytes rest)
      (complete : CompleteRecord rest) :
      AfterRecords bytes (rest.drop (recordSize rest))

/-- No record whose header is there is longer than the limit. -/
def RecordsWithin (limit : Nat) (bytes : List UInt8) : Prop :=
  forall rest, AfterRecords bytes rest -> headerLen ≤ rest.length ->
    recordSize rest ≤ limit

/-- The records of a stream come after the metadata, unless it is skipped. -/
def recordBytes (skipMetadata : Bool) (stream : List UInt8) : List UInt8 :=
  if skipMetadata then stream
  else stream.drop (metadataPreludeLen + uintAt 4 stream 4)

/-- Whenever a run asks for more bytes, there is space for them. -/
def Serviceable (D : Type) [CalendarDate D] (limit : Nat)
    (skipMetadata : Bool) (start : DbnFsm B) : Prop :=
  forall fsm fed fsm' n, ReadRun D start fsm fed ->
    RecordsWithin limit (recordBytes skipMetadata fed) ->
    fsm.process (D := D) = .ret (.readMore n, fsm') -> n ≤ fsm'.spaceLen

theorem CompleteRecord.append {bytes : List UInt8} (h : CompleteRecord bytes)
    (more : List UInt8) :
    CompleteRecord (bytes ++ more) ∧
      (bytes ++ more).drop (recordSize (bytes ++ more)) =
        bytes.drop (recordSize bytes) ++ more := by
  have hlen := h.length_le
  rw [headerLen_eq] at hlen
  have hne : bytes ≠ [] := by
    rintro rfl
    simp at hlen
  have hsize : recordSize (bytes ++ more) = recordSize bytes :=
    recordSize_append hne
  refine ⟨⟨?_, ?_⟩, ?_⟩
  · rw [hsize]
    exact h.header
  · rw [hsize, List.length_append]
    exact Nat.le_trans h.body (Nat.le_add_right _ _)
  · rw [hsize, List.drop_append_of_le_length h.body]

theorem AfterRecords.append {bytes rest : List UInt8}
    (h : AfterRecords bytes rest) (more : List UInt8) :
    AfterRecords (bytes ++ more) (rest ++ more) := by
  induction h with
  | none => exact AfterRecords.none
  | next _ complete ih =>
      obtain ⟨hcomplete, hdrop⟩ := complete.append more
      rw [← hdrop]
      exact ih.next hcomplete

/-!
## Positions
-/

theorem four_dvd_recordSize (bytes : List UInt8) : 4 ∣ recordSize bytes := by
  unfold recordSize lengthMultiplier
  exact Nat.dvd_mul_left 4 _

/--
How far the buffer has been consumed.  In the record phase it has been by
whole records, whose sizes are multiples of four.
-/
def Positioned (fsm : DbnFsm B) : Prop :=
  match fsm.state with
  | .prelude => Buffer.position fsm.buffer = 0
  | .metadata length =>
      Buffer.position fsm.buffer ≤ metadataPreludeLen ∧
        metadataPreludeLen + length ≤ Buffer.capacity fsm.buffer
  | .record =>
      4 ∣ Buffer.position fsm.buffer ∧
        Buffer.position fsm.buffer ≤ Buffer.capacity fsm.buffer / 2
  | .consume read _ _ _ => 4 ∣ Buffer.position fsm.buffer ∧ 4 ∣ read

section Positions

variable [LawfulBuffer B] {fsm fsm' : DbnFsm B}

theorem Positioned.fill (h : fsm.Positioned) (bytes : List UInt8) :
    ((fsm.writeSpace bytes).fill bytes.length).Positioned := by
  have hcap := Buffer.capacity_append fsm.buffer bytes
  have hpos : Buffer.position (Buffer.append fsm.buffer bytes) = 0 ∨
      Buffer.position (Buffer.append fsm.buffer bytes) =
        Buffer.position fsm.buffer := by
    unfold Buffer.append
    rw [LawfulBuffer.position_fill]
    dsimp only
    split
    · exact Or.inl rfl
    · exact Or.inr (LawfulBuffer.position_writeSpace _ _)
  unfold Buffer.append at hcap hpos
  unfold Positioned at h ⊢
  unfold DbnFsm.writeSpace DbnFsm.fill
  dsimp only
  rw [hcap]
  rcases hpos with hzero | hsame
  · rw [hzero]
    cases hstate : fsm.state with
    | prelude => rfl
    | metadata length =>
        rw [hstate] at h
        exact ⟨Nat.zero_le _, h.2⟩
    | record => exact ⟨Nat.dvd_zero 4, Nat.zero_le _⟩
    | consume read _ _ _ =>
        rw [hstate] at h
        exact ⟨Nat.dvd_zero 4, h.2⟩
  · rw [hsame]
    exact h

theorem Positioned.settle (h : fsm.Positioned) (hinv : fsm.Inv)
    (hphase : fsm.RecordPhase) : fsm.settle.Positioned := by
  rcases recordPhase_iff.mp hphase with hrec | ⟨read, _, _, _, hcons⟩
  · rw [settle_eq_self fsm hrec]
    exact h
  · unfold Positioned at h
    unfold Inv at hinv
    rw [hcons] at h hinv
    rw [settle_eq_consume hcons]
    unfold Positioned
    simp only [consume_fields, LawfulBuffer.capacity_consume]
    refine ⟨?_, Buffer.position_consume_le _ _⟩
    rw [LawfulBuffer.position_consume]
    dsimp only
    split
    · exact Nat.dvd_zero 4
    · rw [Nat.min_eq_left hinv.1]
      exact Nat.dvd_add h.1 h.2

end Positions

/-!
## The invariant of a run
-/

/-- All of the metadata has been read, if there is any. -/
def PastMetadata (skipMetadata : Bool) (fed : List UInt8) : Prop :=
  skipMetadata = false ->
    metadataPreludeLen + uintAt 4 fed 4 ≤ fed.length

/-- The number of bytes that are missing from the item to be decoded. -/
def Lacks (fsm : DbnFsm B) (n : Nat) : Prop :=
  let len := (Buffer.data fsm.buffer).length
  match fsm.state with
  | .prelude => n + len = metadataPreludeLen
  | .metadata length => n + len = length
  | .record =>
      n + len =
        if len < headerLen then headerLen
        else recordSize (Buffer.data fsm.buffer)
  | .consume _ _ _ _ => False

/-- A machine that a run from a builder has led to. -/
structure Serving (b : DbnFsmBuilder) (fed : List UInt8) (fsm : DbnFsm B) :
    Prop where
  inv : fsm.Inv
  positioned : fsm.Positioned
  le_capacity : b.bufferSize ≤ Buffer.capacity fsm.buffer
  phase : b.skipMetadata = false ∧ Holds b.upgradePolicy fsm fed ∨
    fsm.RecordPhase ∧ PastMetadata b.skipMetadata fed ∧
      AfterRecords (recordBytes b.skipMetadata fed) fsm.data

section Steps

variable {b : DbnFsmBuilder} {fsm fsm' : DbnFsm B} {fed : List UInt8}

/-- What is read after the metadata belongs to the records. -/
theorem recordBytes_append {skipMetadata : Bool}
    (h : PastMetadata skipMetadata fed) (bytes : List UInt8) :
    PastMetadata skipMetadata (fed ++ bytes) ∧
      recordBytes skipMetadata (fed ++ bytes) =
        recordBytes skipMetadata fed ++ bytes := by
  unfold PastMetadata recordBytes at *
  cases skipMetadata with
  | true => exact ⟨by simp, rfl⟩
  | false =>
      have hroom := h rfl
      rw [metadataPreludeLen_eq] at hroom
      have hlength : uintAt 4 (fed ++ bytes) 4 = uintAt 4 fed 4 :=
        uintAt_append (by omega) bytes
      simp only [Bool.false_eq_true, if_false, hlength]
      refine ⟨fun _ => ?_, List.drop_append_of_le_length hroom⟩
      rw [List.length_append]
      exact Nat.le_trans hroom (Nat.le_add_right _ _)

variable [LawfulBuffer B]

theorem Serving.read (h : Serving b fed fsm) {bytes : List UInt8}
    (hfits : bytes.length ≤ fsm.spaceLen) :
    Serving b (fed ++ bytes)
      ((fsm.writeSpace bytes).fill bytes.length) := by
  have happ := appends_fill h.inv hfits
  refine ⟨happ.inv, h.positioned.fill bytes, ?_, ?_⟩
  · unfold DbnFsm.writeSpace DbnFsm.fill
    simp only [LawfulBuffer.capacity_fill, LawfulBuffer.capacity_writeSpace]
    exact h.le_capacity
  · rcases h.phase with ⟨hskip, hholds⟩ | ⟨hphase, hpast, hafter⟩
    · exact Or.inl ⟨hskip, hholds.of_appends happ⟩
    · obtain ⟨hpast', hbytes⟩ := recordBytes_append hpast bytes
      rw [hbytes, happ.data]
      exact Or.inr ⟨happ.recordPhase.mpr hphase, hpast', hafter.append bytes⟩

/-- The call that completes the metadata starts the records. -/
theorem Serving.metadataDone {version length : Nat} (tsOut : Bool)
    (h : Serving b fed fsm) (hskip : b.skipMetadata = false)
    (hstate : fsm.state = .metadata length)
    (haccept : AcceptsPrelude b.upgradePolicy fed version length)
    (hdata : Buffer.data fsm.buffer = fed.drop metadataPreludeLen)
    (hroom : length ≤ (Buffer.data fsm.buffer).length) :
    Serving b fed (fsm.metadataDone length tsOut) where
  inv := by
    have hinv := h.inv
    unfold Inv at hinv
    rw [hstate] at hinv
    exact ⟨hinv.1, hinv.2.1⟩
  positioned := by
    unfold Positioned DbnFsm.metadataDone
    dsimp only
    rw [LawfulBuffer.position_shift]
    exact ⟨Nat.dvd_zero 4, Nat.zero_le _⟩
  le_capacity := by
    unfold DbnFsm.metadataDone
    simp only [LawfulBuffer.capacity_shift, LawfulBuffer.capacity_consume]
    exact h.le_capacity
  phase := by
    have hprelude := haccept.room
    rw [hdata, List.length_drop] at hroom
    refine Or.inr ⟨rfl, fun _ => ?_, ?_⟩
    · rw [← haccept.length_eq]
      omega
    · unfold recordBytes DbnFsm.metadataDone data
      rw [hskip]
      simp only [Bool.false_eq_true, if_false, LawfulBuffer.data_shift,
        LawfulBuffer.data_consume, hdata, List.drop_drop,
        ← haccept.length_eq]
      exact AfterRecords.none

/-- A round for the metadata block. -/
theorem Serving.processLoop_metadata {version length fuel : Nat}
    {res : ProcessResult D Unit} (h : Serving b fed fsm)
    (hskip : b.skipMetadata = false) (hstate : fsm.state = .metadata length)
    (hversion : fsm.inputDbnVersion = some version)
    (haccept : AcceptsPrelude b.upgradePolicy fed version length)
    (hdata : Buffer.data fsm.buffer = fed.drop metadataPreludeLen)
    (hret : fsm.processLoop (fuel + 1) = .ret (res, fsm')) :
    Serving b fed fsm' ∧ forall n, res = .readMore n -> fsm'.Lacks n := by
  by_cases hshort : (Buffer.data fsm.buffer).length < length
  · rw [processLoop_metadata_short hstate hshort] at hret
    cases hret
    refine ⟨h, ?_⟩
    rintro n ⟨⟩
    unfold Lacks
    rw [hstate]
    exact Nat.sub_add_cancel (Nat.le_of_lt hshort)
  · rw [Nat.not_lt] at hshort
    rw [DbnFsm.processLoop_metadata hstate hversion hshort] at hret
    split at hret
    · next m _ =>
        cases hret
        exact ⟨h.metadataDone m.tsOut hskip hstate haccept hdata hshort,
          by simp⟩
    · cases hret
      exact ⟨h, by simp⟩
    · cases hret

/-- An accepted prelude makes room for the block. -/
theorem Serving.preludeDone {version length : Nat} (h : Serving b fed fsm)
    (hskip : b.skipMetadata = false) (hstate : fsm.state = .prelude)
    (hholds : Holds b.upgradePolicy fsm' fed)
    (hdone : fsm.PreludeDone version length fsm') : Serving b fed fsm' where
  inv := hholds.inv
  positioned := by
    have hpos := h.positioned
    unfold Positioned at hpos ⊢
    rw [hstate] at hpos
    rw [hdone.state, hdone.buffer]
    simp only [LawfulBuffer.position_grow, LawfulBuffer.capacity_grow,
      LawfulBuffer.position_consumeNoshift]
    omega
  le_capacity := by
    rw [hdone.buffer, LawfulBuffer.capacity_grow,
      LawfulBuffer.capacity_consumeNoshift]
    exact Nat.le_trans h.le_capacity (Nat.le_max_left _ _)
  phase := Or.inl ⟨hskip, hholds⟩

/-- A call before the record phase. -/
theorem Serving.process_metadata {res : ProcessResult D Unit}
    (h : Serving b fed fsm) (hskip : b.skipMetadata = false)
    (hholds : Holds b.upgradePolicy fsm fed)
    (hret : fsm.process = .ret (res, fsm')) :
    Serving b fed fsm' ∧ forall n, res = .readMore n -> fsm'.Lacks n := by
  rcases hholds.phase with
    ⟨hstate, hfed⟩ | ⟨v, len, hstate, hversion, haccept, hfed⟩
  swap
  · exact h.processLoop_metadata hskip hstate hversion haccept hfed hret
  by_cases hshort : (Buffer.data fsm.buffer).length < metadataPreludeLen
  · rw [process_prelude_short hstate hshort] at hret
    cases hret
    refine ⟨h, ?_⟩
    rintro n ⟨⟩
    unfold Lacks
    rw [hstate]
    exact Nat.sub_add_cancel (Nat.le_of_lt hshort)
  by_cases haccept : exists version length, AcceptsPrelude fsm.upgradePolicy
      (Buffer.data fsm.buffer) version length
  · obtain ⟨version, length, haccept⟩ := haccept
    obtain ⟨fsm1, hdone, hprocess⟩ :=
      process_prelude_accepts (D := D) hstate haccept
    have hholds1 := hdone.holds h.inv hstate haccept
    have hdata := hdone.data_eq
    rw [hholds.upgradePolicy, hfed] at hholds1 haccept
    rw [hfed] at hdata
    rw [hprocess] at hret
    exact (h.preludeDone hskip hstate hholds1 hdone).processLoop_metadata
      hskip hdone.state hdone.inputDbnVersion haccept hdata hret
  · obtain ⟨e, version, hprocess⟩ := process_prelude_rejects (D := D) hstate
      (Nat.not_lt.mp hshort) (fun v l hv => haccept ⟨v, l, hv⟩)
    have hphase : ¬ fsm'.RecordPhase := by
      rw [hprocess] at hret
      cases hret
      exact hholds.not_recordPhase
    have hholds' := hholds.process hret hphase
    rw [hprocess] at hret
    cases hret
    exact ⟨⟨hholds'.inv, h.positioned, h.le_capacity,
      Or.inl ⟨hskip, hholds'⟩⟩, by simp⟩

/-- A call in the record phase. -/
theorem Serving.process_records {res : ProcessResult D Unit}
    (h : Serving b fed fsm) (hphase : fsm.RecordPhase)
    (hpast : PastMetadata b.skipMetadata fed)
    (hafter : AfterRecords (recordBytes b.skipMetadata fed) fsm.data)
    (hret : fsm.process = .ret (res, fsm')) :
    Serving b fed fsm' ∧ forall n, res = .readMore n -> fsm'.Lacks n := by
  have hposition := h.positioned.settle h.inv hphase
  have hsettle : Serving b fed fsm.settle :=
    { inv := inv_settle h.inv
      positioned := hposition
      le_capacity := by
        rw [capacity_settle]
        exact h.le_capacity
      phase := by
        rw [data_settle]
        exact Or.inr ⟨(appends_settle h.inv).recordPhase.mpr hphase, hpast,
          hafter⟩ }
  cases hitem : fsm.nextItem with
  | needMore n =>
      rw [process_needMore hphase hitem] at hret
      cases hret
      refine ⟨hsettle, ?_⟩
      rintro m ⟨⟩
      unfold Lacks
      simp only [state_settle hphase, data_buffer_settle hphase]
      exact length_of_next_needMore hitem
  | invalid e =>
      rw [process_invalid hphase hitem] at hret
      cases hret
      exact ⟨hsettle, by simp⟩
  | truncated =>
      rw [process_truncated h.inv hphase hitem] at hret
      cases hret
  | record image version =>
      have hinv' := inv_process h.inv hret
      have hcomplete := complete_of_next_record hitem
      obtain ⟨fsm1, hprocess, hout⟩ :=
        process_record (D := D) h.inv hphase hitem
      rw [hprocess] at hret
      cases hret
      refine ⟨⟨hinv', ?_, ?_, Or.inr ⟨hout.recordPhase, hpast, ?_⟩⟩, by simp⟩
      · unfold Positioned at hposition ⊢
        rw [state_settle hphase] at hposition
        rw [hout.state, hout.buffer]
        exact ⟨hposition.1, four_dvd_recordSize _⟩
      · rw [hout.buffer]
        exact hsettle.le_capacity
      · rw [hout.data_eq (state_settle hphase), data_settle]
        exact hafter.next hcomplete

theorem Serving.process {res : ProcessResult D Unit} (h : Serving b fed fsm)
    (hret : fsm.process = .ret (res, fsm')) :
    Serving b fed fsm' ∧ forall n, res = .readMore n -> fsm'.Lacks n := by
  rcases h.phase with ⟨hskip, hholds⟩ | ⟨hphase, hpast, hafter⟩
  · exact h.process_metadata hskip hholds hret
  · exact h.process_records hphase hpast hafter hret

theorem serving_build {start : DbnFsm B} (h : b.build = Res.ok start) :
    Serving b [] start := by
  have hinv := inv_build h
  have hstart := DbnFsmBuilder.build_eq_ok h
  cases hskip : b.skipMetadata with
  | true =>
      rw [hskip] at hstart
      refine ⟨hinv, ?_, ?_, ?_⟩
      · rw [hstart]
        simp [Positioned]
      · rw [hstart]
        simp
      · rw [hskip, hstart]
        refine Or.inr ⟨rfl, by simp [PastMetadata], ?_⟩
        simpa [recordBytes, data] using AfterRecords.none
  | false =>
      rw [hskip] at hstart
      refine ⟨hinv, ?_, ?_, Or.inl ⟨hskip, hinv, ?_, ?_⟩⟩
      · rw [hstart]
        simp [Positioned]
      · rw [hstart]
        simp
      · rw [hstart]
      · rw [hstart]
        simp

/-- Every machine of a run has the invariant. -/
theorem ReadRun.serving {start : DbnFsm B} (hbuild : b.build = Res.ok start)
    (h : ReadRun D start fsm fed) : Serving b fed fsm := by
  induction h with
  | start => exact serving_build hbuild
  | read bytes _ fits ih => exact ih.read fits
  | process _ call ih => exact (ih.process call).1

end Steps

/-!
## Buffers that are large enough
-/

section Enough

variable [LawfulBuffer B] {b : DbnFsmBuilder} {fsm : DbnFsm B}
  {fed : List UInt8} {limit n : Nat}

theorem Serving.le_spaceLen (h : Serving b fed fsm) (hlacks : fsm.Lacks n)
    (hmin : maxRecordLen ≤ b.bufferSize) (hlimit : 4 ∣ limit)
    (hsize : 2 * limit - 4 ≤ b.bufferSize)
    (hwithin : RecordsWithin limit (recordBytes b.skipMetadata fed)) :
    n ≤ fsm.spaceLen := by
  have hlayout := LawfulBuffer.layout fsm.buffer
  have hspace : fsm.spaceLen = Buffer.availableSpace fsm.buffer := rfl
  have hcap := h.le_capacity
  have hposition := h.positioned
  rw [maxRecordLen_eq] at hmin
  unfold Lacks at hlacks
  unfold Positioned at hposition
  cases hstate : fsm.state with
  | prelude =>
      simp only [hstate, metadataPreludeLen_eq] at hlacks hposition
      omega
  | metadata length =>
      simp only [hstate, metadataPreludeLen_eq] at hlacks hposition
      omega
  | consume read compat compatFill expandCompat =>
      rw [hstate] at hlacks
      exact absurd hlacks id
  | record =>
      simp only [hstate] at hlacks hposition
      obtain ⟨hdvd, hhalf⟩ := hposition
      split at hlacks
      · rw [headerLen_eq] at hlacks
        omega
      · -- both the position and the size are multiples of four
        next hheader =>
          have hphase := recordPhase_iff.mpr (Or.inl hstate)
          have hafter : AfterRecords (recordBytes b.skipMetadata fed)
              (Buffer.data fsm.buffer) := by
            rcases h.phase with ⟨_, hholds⟩ | ⟨_, _, hafter⟩
            · exact absurd hphase hholds.not_recordPhase
            · rwa [data_eq_buffer hstate] at hafter
          have hle := hwithin _ hafter (Nat.not_lt.mp hheader)
          have hsize4 := four_dvd_recordSize (Buffer.data fsm.buffer)
          omega

end Enough

/-!
## Buffers that are too small

A record that fills almost half of the buffer is consumed without moving what
follows to the front, and then there is no space for a record of the greatest
length.
-/

/-- The first bytes of a record of a size, all zero but for the size. -/
def zeroRecord (size len : Nat) : List UInt8 :=
  UInt8.ofNat (size / lengthMultiplier) :: List.replicate (len - 1) 0

/--
A record of the greatest size in the first half of a buffer, and the header of
a record of the greatest length.
-/
def starvingRecords (bufferSize limit : Nat) : List UInt8 :=
  zeroRecord (4 * (bufferSize / 8)) (4 * (bufferSize / 8)) ++
    zeroRecord limit headerLen

/-- A version 1 prelude and a block without symbols. -/
def emptyMetadataV1 : List UInt8 :=
  dbnPrefix ++ [1] ++ leBytes 4 120 ++ List.replicate 120 0

section Starving

variable {size len limit bufferSize : Nat}

theorem length_zeroRecord (h : 0 < len) :
    (zeroRecord size len).length = len := by
  rw [zeroRecord, List.length_cons, List.length_replicate]
  exact Nat.sub_add_cancel h

theorem recordSize_zeroRecord (hdvd : 4 ∣ size) (hlt : size < 1024)
    (len : Nat) (rest : List UInt8) :
    recordSize (zeroRecord size len ++ rest) = size := by
  have hbyte : (UInt8.ofNat (size / 4)).toNat = size / 4 := by
    rw [UInt8.toNat_ofNat']
    omega
  unfold recordSize zeroRecord lengthMultiplier
  rw [List.cons_append, List.headD_cons, hbyte]
  exact Nat.div_mul_cancel hdvd

theorem rtypeOf_zeroRecord (h : 2 ≤ len) (rest : List UInt8) :
    rtypeOf (zeroRecord size len ++ rest) = 0 := by
  have hlen : (zeroRecord size len).length = len :=
    length_zeroRecord (by omega)
  rw [rtypeOf_append (by omega)]
  have hpos : 0 < len - 1 := by omega
  simp [rtypeOf, zeroRecord, hpos]

/-- Records of type zero are not upgraded. -/
theorem next_zeroRecord (policy : VersionUpgradePolicy) (tsOut : Bool)
    (version : Option Nat) (hdvd : 4 ∣ size) (hheader : headerLen ≤ size)
    (hlt : size < 1024) (rest : List UInt8) :
    exists image, next policy tsOut version (zeroRecord size size ++ rest) =
      .record image version := by
  have hsize := recordSize_zeroRecord hdvd hlt size rest
  have hlen : (zeroRecord size size).length = size := by
    rw [headerLen_eq] at hheader
    exact length_zeroRecord (by omega)
  have hcomplete : CompleteRecord (zeroRecord size size ++ rest) := by
    refine ⟨by rwa [hsize], ?_⟩
    rw [hsize, List.length_append, hlen]
    exact Nat.le_add_right _ _
  have hselect : (selectConversion version policy
      (zeroRecord size size ++ rest)).1 = none := by
    cases hconv : (selectConversion version policy
        (zeroRecord size size ++ rest)).1 with
    | none => rfl
    | some c =>
        have hrtype := selectConversion_rtype hconv
        rw [rtypeOf_zeroRecord (by rw [headerLen_eq] at hheader; omega)]
          at hrtype
        cases c <;> exact absurd hrtype (by decide)
  have hversion := selectConversion_version hselect
  rw [next_of_complete hcomplete]
  unfold nextImage
  split
  · next v heq =>
      rw [heq] at hversion
      rw [← hversion]
      exact ⟨_, rfl⟩
  · next c v heq =>
      rw [heq] at hselect
      cases hselect

/-- The half of the buffer and the limit, for a buffer that is too small. -/
structure TooSmall (bufferSize limit : Nat) : Prop where
  min : maxRecordLen ≤ bufferSize
  dvd : 4 ∣ limit
  max : limit ≤ maxRecordLen
  lt : bufferSize < 2 * limit - 4

theorem recordsWithin_starvingRecords (h : TooSmall bufferSize limit) :
    RecordsWithin limit (starvingRecords bufferSize limit) := by
  obtain ⟨hmin, hdvd, hmax, hlt⟩ := h
  rw [maxRecordLen_eq] at hmin hmax
  have hfirst : recordSize (starvingRecords bufferSize limit) =
      4 * (bufferSize / 8) :=
    recordSize_zeroRecord (Nat.dvd_mul_right 4 _) (by omega) _ _
  have hsecond : recordSize (zeroRecord limit headerLen) = limit := by
    rw [← List.append_nil (zeroRecord limit headerLen)]
    exact recordSize_zeroRecord hdvd (by omega) _ _
  have hlen : (zeroRecord (4 * (bufferSize / 8))
      (4 * (bufferSize / 8))).length = 4 * (bufferSize / 8) :=
    length_zeroRecord (by omega)
  have hcases : forall rest,
      AfterRecords (starvingRecords bufferSize limit) rest ->
      rest = starvingRecords bufferSize limit ∨
        rest = zeroRecord limit headerLen := by
    intro rest hafter
    induction hafter with
    | none => exact Or.inl rfl
    | next _ complete ih =>
        rcases ih with rfl | rfl
        · rw [hfirst]
          exact Or.inr (List.drop_left' hlen)
        · -- the second record is not complete
          have hbody := complete.body
          rw [hsecond, length_zeroRecord (by decide), headerLen_eq] at hbody
          omega
  intro rest hafter _
  rcases hcases rest hafter with rfl | rfl
  · rw [hfirst]
    omega
  · rw [hsecond]

variable [LawfulBuffer B] {start fsm : DbnFsm B} {fed : List UInt8}

/-- A run that has just begun to read records. -/
structure AtRecords (D : Type) [CalendarDate D] (b : DbnFsmBuilder)
    (start fsm : DbnFsm B) (fed : List UInt8) : Prop where
  run : ReadRun D start fsm fed
  inv : fsm.Inv
  state : fsm.state = .record
  data : Buffer.data fsm.buffer = []
  position : Buffer.position fsm.buffer = 0
  capacity : Buffer.capacity fsm.buffer = b.bufferSize
  past : PastMetadata b.skipMetadata fed
  records : recordBytes b.skipMetadata fed = []

omit [LawfulBuffer B] in
theorem accepts_emptyMetadataV1 (policy : VersionUpgradePolicy) :
    AcceptsPrelude policy emptyMetadataV1 1 120 where
  room := by decide +kernel
  magic := by decide
  version_eq := by decide
  version_le := by decide
  compatible := by simp [VersionUpgradePolicy.Compatible]
  length_eq := by decide
  length_ge := by decide

set_option maxRecDepth 8000 in
omit [LawfulBuffer B] in
theorem decodeMetadataImpl_emptyMetadataV1 :
    exists m, decodeMetadataImpl (D := D) 1
      (emptyMetadataV1.drop metadataPreludeLen) = Res.ok m :=
  ⟨_, rfl⟩

/-- The call that returns the empty metadata. -/
theorem process_emptyMetadataV1 (hstate : fsm.state = .prelude)
    (hdata : Buffer.data fsm.buffer = emptyMetadataV1) :
    exists m fsm', fsm.process (D := D) = .ret (.metadata m, fsm') ∧
      fsm'.state = .record ∧ Buffer.data fsm'.buffer = [] ∧
      Buffer.position fsm'.buffer = 0 ∧
      Buffer.capacity fsm'.buffer = max (Buffer.capacity fsm.buffer) 128 := by
  have haccept := accepts_emptyMetadataV1 fsm.upgradePolicy
  rw [← hdata] at haccept
  obtain ⟨fsm1, hdone, hprocess⟩ :=
    process_prelude_accepts (D := D) hstate haccept
  obtain ⟨m, hdecode⟩ := decodeMetadataImpl_emptyMetadataV1 (D := D)
  have hblock := hdone.data_eq
  rw [hdata] at hblock
  have hlen : (Buffer.data fsm1.buffer).length = 120 := by
    rw [hblock]
    decide +kernel
  rw [← hblock] at hdecode
  refine ⟨m.upgrade fsm1.upgradePolicy, fsm1.metadataDone 120 m.tsOut, ?_,
    rfl, ?_, ?_, ?_⟩
  · rw [hprocess, processLoop_metadata hdone.state hdone.inputDbnVersion
      (Nat.le_of_eq hlen.symm), hdecode]
  · unfold metadataDone
    dsimp only
    rw [LawfulBuffer.data_shift, LawfulBuffer.data_consume]
    exact List.drop_of_length_le (Nat.le_of_eq hlen)
  · exact LawfulBuffer.position_shift _
  · unfold metadataDone
    dsimp only
    rw [LawfulBuffer.capacity_shift, LawfulBuffer.capacity_consume,
      hdone.buffer, LawfulBuffer.capacity_grow,
      LawfulBuffer.capacity_consumeNoshift, metadataPreludeLen_eq]

theorem atRecords_build {b : DbnFsmBuilder} (hbuild : b.build = Res.ok start)
    (hskip : b.skipMetadata = true) : AtRecords D b start start [] := by
  have hstart := DbnFsmBuilder.build_eq_ok hbuild
  refine ⟨ReadRun.start, inv_build hbuild, ?_, ?_, ?_, ?_, ?_, ?_⟩
  · simp [hstart, hskip]
  · simp [hstart]
  · simp [hstart]
  · simp [hstart]
  · simp [PastMetadata, hskip]
  · simp [recordBytes, hskip]

/-- Every builder has a run to the start of the records. -/
theorem exists_atRecords {b : DbnFsmBuilder} (hbuild : b.build = Res.ok start)
    (hmin : maxRecordLen ≤ b.bufferSize) :
    exists fsm fed, AtRecords D b start fsm fed := by
  cases hskip : b.skipMetadata with
  | true => exact ⟨start, [], atRecords_build hbuild hskip⟩
  | false =>
      have hserving := serving_build hbuild
      have hstart := DbnFsmBuilder.build_eq_ok hbuild
      have hdata : Buffer.data start.buffer = [] := by simp [hstart]
      have hcapacity : Buffer.capacity start.buffer = b.bufferSize := by
        simp [hstart]
      rw [maxRecordLen_eq] at hmin
      have hlen : emptyMetadataV1.length = 128 := by decide +kernel
      have hfits : emptyMetadataV1.length ≤ start.spaceLen := by
        have hlayout := LawfulBuffer.layout start.buffer
        have hspace : start.spaceLen =
            Buffer.availableSpace start.buffer := rfl
        have hposition : Buffer.position start.buffer = 0 := by simp [hstart]
        rw [hdata, List.length_nil] at hlayout
        omega
      have hrun := ReadRun.read (D := D) emptyMetadataV1 ReadRun.start hfits
      have hread := hserving.read hfits
      have happ := appends_fill hserving.inv hfits
      have hphase : ¬ start.RecordPhase := by
        rw [recordPhase_iff]
        simp [hstart, hskip]
      have hbytes : Buffer.data (Buffer.append start.buffer emptyMetadataV1) =
          emptyMetadataV1 := by
        rw [Buffer.data_append hfits, hdata, List.nil_append]
      have hprelude : ((start.writeSpace emptyMetadataV1).fill
          emptyMetadataV1.length).state = .prelude := by
        rw [happ.state hphase]
        simp [hstart, hskip]
      obtain ⟨m, fsm, hret, hstate, hnil, hfront, hcap⟩ :=
        process_emptyMetadataV1 (D := D) hprelude hbytes
      refine ⟨fsm, emptyMetadataV1, hrun.process hret,
        inv_process happ.inv hret, hstate, hnil, hfront, ?_,
        fun _ => by decide +kernel, ?_⟩
      · rw [hcap]
        have hsame := Buffer.capacity_append start.buffer emptyMetadataV1
        unfold Buffer.append at hsame
        unfold writeSpace fill
        dsimp only
        omega
      · rw [hskip]
        decide +kernel

/--
Two calls for the starving records.  The first record is consumed without
moving the header of the second to the front.
-/
theorem process_starvingRecords (hsmall : TooSmall bufferSize limit)
    (hinv : fsm.Inv) (hstate : fsm.state = .record)
    (hdata : Buffer.data fsm.buffer = starvingRecords bufferSize limit)
    (hposition : Buffer.position fsm.buffer = 0)
    (hcapacity : Buffer.capacity fsm.buffer = bufferSize) :
    exists fsm1 fsm2, fsm.process (D := D) = .ret (.record (), fsm1) ∧
      fsm1.process (D := D) = .ret (.readMore (limit - 16), fsm2) ∧
      fsm2.spaceLen = bufferSize - 4 * (bufferSize / 8) - 16 := by
  obtain ⟨hmin, hdvd, hmax, hlt⟩ := hsmall
  rw [maxRecordLen_eq] at hmin hmax
  unfold starvingRecords at hdata
  generalize hhalf : 4 * (bufferSize / 8) = half at hdata
  have hhalfDvd : 4 ∣ half := by omega
  have hhalfLen : (zeroRecord half half).length = half :=
    length_zeroRecord (by omega)
  have hheaderLen : (zeroRecord limit headerLen).length = 16 :=
    length_zeroRecord (by decide)
  have hsize : recordSize (Buffer.data fsm.buffer) = half := by
    rw [hdata]
    exact recordSize_zeroRecord hhalfDvd (by omega) _ _
  have hlimit : recordSize (zeroRecord limit headerLen) = limit := by
    rw [← List.append_nil (zeroRecord limit headerLen)]
    exact recordSize_zeroRecord hdvd (by omega) _ _
  have hphase := recordPhase_iff.mpr (Or.inl hstate)
  -- the first record is handed out
  obtain ⟨image, hnext⟩ := next_zeroRecord fsm.upgradePolicy fsm.tsOut
    fsm.inputDbnVersion hhalfDvd (by rw [headerLen_eq]; omega) (by omega)
    (zeroRecord limit headerLen)
  have hitem : fsm.nextItem = .record image fsm.inputDbnVersion := by
    rw [nextItem, data_eq_buffer hstate, hdata, hnext]
  obtain ⟨fsm1, hret, hout⟩ := process_record (D := D) hinv hphase hitem
  rw [settle_eq_self fsm hstate] at hout
  have hrest : fsm1.data = zeroRecord limit headerLen := by
    rw [hout.data_eq hstate, data_eq_buffer hstate, hsize, hdata,
      List.drop_left' hhalfLen]
  -- the second record is waited for
  have hneed : fsm1.nextItem = .needMore (limit - 16) := by
    rw [nextItem, next, hrest, hheaderLen, hlimit, headerLen_eq,
      if_neg (by omega), if_neg (by omega), if_pos (by omega)]
  refine ⟨fsm1, fsm1.settle, hret,
    process_needMore hout.recordPhase hneed, ?_⟩
  have hfront : Buffer.position fsm1.settle.buffer = half := by
    rw [settle_eq_consume hout.state, (consume_fields _ _ _ _ _).1,
      hout.buffer, LawfulBuffer.position_consume, hsize, hdata,
      List.length_append, hhalfLen, hposition, hcapacity]
    dsimp only
    rw [if_neg (by omega)]
    omega
  have hlayout := LawfulBuffer.layout fsm1.settle.buffer
  have hspace : fsm1.settle.spaceLen =
      Buffer.availableSpace fsm1.settle.buffer := rfl
  rw [data_buffer_settle hout.recordPhase, hrest, hheaderLen, hfront,
    capacity_settle, hout.buffer, hcapacity] at hlayout
  omega

/-- After the starving records the space is too small. -/
theorem AtRecords.starves {b : DbnFsmBuilder}
    (h : AtRecords D b start fsm fed)
    (hsmall : TooSmall b.bufferSize limit) :
    exists fsm1 fsm2,
      ReadRun D start fsm1 (fed ++ starvingRecords b.bufferSize limit) ∧
      fsm1.process (D := D) = .ret (.readMore (limit - 16), fsm2) ∧
      fsm2.spaceLen = b.bufferSize - 4 * (b.bufferSize / 8) - 16 := by
  have hfits : (starvingRecords b.bufferSize limit).length ≤
      fsm.spaceLen := by
    have hmin := hsmall.min
    have hlayout := LawfulBuffer.layout fsm.buffer
    have hspace : fsm.spaceLen = Buffer.availableSpace fsm.buffer := rfl
    rw [maxRecordLen_eq] at hmin
    rw [h.data, h.position, h.capacity, List.length_nil] at hlayout
    rw [starvingRecords, List.length_append, length_zeroRecord (by omega),
      length_zeroRecord (by decide), headerLen_eq]
    omega
  have happ := appends_fill h.inv hfits
  have hfront : Buffer.position (Buffer.append fsm.buffer
      (starvingRecords b.bufferSize limit)) = 0 := by
    have hle := Buffer.position_append_le fsm.buffer
      (starvingRecords b.bufferSize limit)
    rw [h.position] at hle
    exact Nat.le_zero.mp hle
  obtain ⟨fsm1, fsm2, hrecord, hmore, hspace⟩ :=
    process_starvingRecords (D := D) hsmall happ.inv h.state
      (by
        show Buffer.data (Buffer.append _ _) = _
        rw [Buffer.data_append hfits, h.data, List.nil_append])
      hfront ((Buffer.capacity_append _ _).trans h.capacity)
  exact ⟨fsm1, fsm2, (h.run.read _ hfits).process hrecord, hmore, hspace⟩

end Starving

/--
In every run from a builder, over streams whose records have at most `limit`
bytes, there is space for the bytes that are asked for if and only if the
buffer is large enough for two such records less a word.
-/
theorem readRun_serviceable_iff [LawfulBuffer B] {b : DbnFsmBuilder}
    {start : DbnFsm B} {limit : Nat} (hbuild : b.build = Res.ok start)
    (hmin : maxRecordLen ≤ b.bufferSize) (hdvd : 4 ∣ limit)
    (hmax : limit ≤ maxRecordLen) :
    Serviceable D limit b.skipMetadata start <->
      2 * limit - 4 ≤ b.bufferSize := by
  constructor
  · intro hserves
    by_contra hlt
    have hsmall : TooSmall b.bufferSize limit :=
      ⟨hmin, hdvd, hmax, Nat.not_le.mp hlt⟩
    obtain ⟨fsm, fed, hat⟩ := exists_atRecords (D := D) hbuild hmin
    obtain ⟨fsm1, fsm2, hrun, hret, hspace⟩ := hat.starves hsmall
    have hrecords := (recordBytes_append hat.past
      (starvingRecords b.bufferSize limit)).2
    rw [hat.records, List.nil_append] at hrecords
    have hwithin := recordsWithin_starvingRecords hsmall
    rw [← hrecords] at hwithin
    have hle := hserves fsm1 _ fsm2 _ hrun hwithin hret
    rw [maxRecordLen_eq] at hmin hmax
    omega
  · intro hsize fsm fed fsm' n hrun hwithin hret
    obtain ⟨hserving, hlacks⟩ := (hrun.serving hbuild).process hret
    exact hserving.le_spaceLen (hlacks n rfl) hmin hdvd hsize hwithin

theorem readRun_serviceable_iff_default :
    exists start : DbnFsm VecBuffer,
      (default : DbnFsmBuilder).build = Res.ok start ∧
      Serviceable GregorianDate maxRecordLen false start :=
  ⟨_, rfl, (readRun_serviceable_iff (b := (default : DbnFsmBuilder)) rfl
    (by decide) (by decide) (Nat.le_refl _)).mpr (by decide)⟩

/-- A builder for streams without metadata, with the smallest buffer. -/
def smallestBuilder : DbnFsmBuilder :=
  { fragmentBuilder none .asIs with bufferSize := maxRecordLen }

/-- A buffer of one record lacks space for the second of two records. -/
theorem process_lacks_space_smallestBuilder :
    exists start fsm fsm' : DbnFsm VecBuffer,
      smallestBuilder.build = Res.ok start ∧
      ReadRun GregorianDate start fsm (starvingRecords 528 528) ∧
      RecordsWithin maxRecordLen
        (recordBytes smallestBuilder.skipMetadata (starvingRecords 528 528)) ∧
      fsm.process (D := GregorianDate) = .ret (.readMore 512, fsm') ∧
      fsm'.spaceLen = 248 := by
  have hsmall : TooSmall 528 528 :=
    ⟨by decide, by decide, by decide, by decide⟩
  have hat := atRecords_build (B := VecBuffer) (D := GregorianDate)
    (b := smallestBuilder) rfl rfl
  obtain ⟨fsm, fsm', hrun, hret, hspace⟩ := hat.starves hsmall
  exact ⟨_, fsm, fsm', rfl, hrun, recordsWithin_starvingRecords hsmall, hret,
    hspace⟩

end DbnFsm
end Dbn
