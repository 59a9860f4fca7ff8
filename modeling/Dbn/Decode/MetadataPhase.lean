import Dbn.Decode.FsmInvariant
import Dbn.Decode.MetadataBlock

/-!
# Calls of `process` before the record phase

The prelude is accepted or rejected as a whole; an accepted prelude fixes the
version and the declared length, and the block is decoded once as many bytes
are buffered.
-/

namespace Dbn
namespace DbnFsm

open Lib

variable {B D : Type} [Buffer B] [CalendarDate D]

/-!
## The prelude
-/

/-- The prelude of a stream declares a version and a length that are accepted. -/
structure AcceptsPrelude (policy : VersionUpgradePolicy) (stream : List UInt8)
    (version length : Nat) : Prop where
  room : metadataPreludeLen ≤ stream.length
  magic : stream.take dbnPrefix.length = dbnPrefix
  version_eq : version = uintAt 1 stream dbnPrefix.length
  version_le : version ≤ dbnVersion
  compatible : policy.Compatible version
  length_eq : length = uintAt 4 stream 4
  length_ge : metadataFixedLen ≤ length

/-- The machine after it has accepted a prelude. -/
structure PreludeDone (fsm : DbnFsm B) (version length : Nat)
    (fsm' : DbnFsm B) : Prop where
  inputDbnVersion : fsm'.inputDbnVersion = some version
  upgradePolicy : fsm'.upgradePolicy = fsm.upgradePolicy
  tsOut : fsm'.tsOut = fsm.tsOut
  state : fsm'.state = .metadata length
  buffer : fsm'.buffer = Buffer.grow
    (Buffer.consumeNoshift fsm.buffer metadataPreludeLen)
    (length + metadataPreludeLen)
  compat : fsm'.compatBuffer = fsm.compatBuffer ∨
    fsm'.compatBuffer = fsm.doubleCompatBuffer.compatBuffer

section Prelude

variable {fsm : DbnFsm B} {version length : Nat} {stream : List UInt8}
  {policy : VersionUpgradePolicy}

theorem AcceptsPrelude.length_lt
    (h : AcceptsPrelude policy stream version length) : length < 2 ^ 32 := by
  rw [h.length_eq]
  exact leNat_take_lt 4 _

/-- The prelude is decided by the first eight bytes. -/
theorem acceptsPrelude_append {rest : List UInt8}
    (hroom : metadataPreludeLen ≤ stream.length) :
    AcceptsPrelude policy (stream ++ rest) version length <->
      AcceptsPrelude policy stream version length := by
  rw [metadataPreludeLen_eq] at hroom
  have htake : (stream ++ rest).take dbnPrefix.length =
      stream.take dbnPrefix.length := by
    rw [List.take_append_of_le_length]
    have : dbnPrefix.length = 3 := rfl
    omega
  have hversion : uintAt 1 (stream ++ rest) dbnPrefix.length =
      uintAt 1 stream dbnPrefix.length :=
    uintAt_append (Nat.le_trans (by decide) hroom) rest
  have hlength : uintAt 4 (stream ++ rest) 4 = uintAt 4 stream 4 :=
    uintAt_append hroom rest
  constructor
  · rintro ⟨_, h2, h3, h4, h5, h6, h7⟩
    exact ⟨hroom, htake ▸ h2, hversion ▸ h3, h4, h5, hlength ▸ h6, h7⟩
  · rintro ⟨h1, h2, h3, h4, h5, h6, h7⟩
    refine ⟨?_, htake.symm ▸ h2, hversion.symm ▸ h3, h4, h5,
      hlength.symm ▸ h6, h7⟩
    rw [List.length_append]
    omega

theorem preludeVersion_eq (h : metadataPreludeLen ≤ stream.length) :
    preludeVersion stream =
      if stream.take dbnPrefix.length ≠ dbnPrefix then
        Res.err (Error.decode "invalid DBN header")
      else Res.ok (uintAt 1 stream dbnPrefix.length) := by
  rw [metadataPreludeLen_eq] at h
  have hlen : dbnPrefix.length = 3 := rfl
  have hslice : slice (ε := Error) stream 0 dbnPrefix.length =
      Res.ok (stream.take dbnPrefix.length) := if_pos (by omega)
  unfold preludeVersion
  rw [hslice, Res.ok_bind, fromLeSlice_eq (by omega)]
  rfl

theorem decodePrelude_of_accepts
    (h : AcceptsPrelude fsm.upgradePolicy (Buffer.data fsm.buffer) version
      length) :
    exists fsm', fsm.decodePrelude = (Res.ok (), fsm') ∧
      fsm.PreludeDone version length fsm' := by
  have hroom := h.room
  rw [metadataPreludeLen_eq] at hroom
  have hversion : preludeVersion (Buffer.data fsm.buffer) =
      Res.ok version := by
    rw [preludeVersion_eq h.room, if_neg (not_not.mpr h.magic), h.version_eq]
  have hlength : preludeLength fsm.upgradePolicy version
      (Buffer.data fsm.buffer) = Res.ok length := by
    unfold preludeLength
    rw [if_neg (Nat.not_lt.mpr h.version_le),
      VersionUpgradePolicy.validateCompatibility_of_compatible h.compatible,
      Res.ok_bind, fromLeSlice_eq (by omega), Res.ok_bind]
    have heq : leNat (((Buffer.data fsm.buffer).drop 4).take 4) = length :=
      h.length_eq.symm
    rw [heq, if_neg (Nat.not_lt.mpr h.length_ge)]
  unfold decodePrelude
  simp only [hversion, hlength]
  split
  · exact ⟨_, rfl, rfl, rfl, rfl, rfl, rfl, Or.inr rfl⟩
  · exact ⟨_, rfl, rfl, rfl, rfl, rfl, rfl, Or.inl rfl⟩

/-- A rejected prelude leaves the machine as it was, but for the version. -/
theorem decodePrelude_of_rejects
    (hroom : metadataPreludeLen ≤ (Buffer.data fsm.buffer).length)
    (h : forall version length, ¬ AcceptsPrelude fsm.upgradePolicy
      (Buffer.data fsm.buffer) version length) :
    exists e version, fsm.decodePrelude =
      (Res.err e, { fsm with inputDbnVersion := version }) := by
  unfold decodePrelude
  simp only [preludeVersion_eq hroom]
  by_cases hmagic : (Buffer.data fsm.buffer).take dbnPrefix.length = dbnPrefix
  swap
  · rw [if_pos hmagic]
    exact ⟨_, fsm.inputDbnVersion, rfl⟩
  rw [if_neg (not_not.mpr hmagic)]
  dsimp only
  have hlength : exists e, preludeLength fsm.upgradePolicy
      (uintAt 1 (Buffer.data fsm.buffer) dbnPrefix.length)
      (Buffer.data fsm.buffer) = Res.err e := by
    unfold preludeLength
    by_cases hversion : uintAt 1 (Buffer.data fsm.buffer) dbnPrefix.length >
        dbnVersion
    · exact ⟨_, if_pos hversion⟩
    rw [if_neg hversion]
    by_cases hcompat : fsm.upgradePolicy.Compatible
        (uintAt 1 (Buffer.data fsm.buffer) dbnPrefix.length)
    swap
    · obtain ⟨e, he⟩ :=
        VersionUpgradePolicy.validateCompatibility_of_not_compatible hcompat
      rw [he]
      exact ⟨e, rfl⟩
    rw [metadataPreludeLen_eq] at hroom
    rw [VersionUpgradePolicy.validateCompatibility_of_compatible hcompat,
      Res.ok_bind, fromLeSlice_eq (by omega), Res.ok_bind]
    refine ⟨_, if_pos ?_⟩
    by_contra hlong
    exact h _ _ ⟨hroom, hmagic, rfl, Nat.not_lt.mp hversion, hcompat, rfl,
      Nat.not_lt.mp hlong⟩
  obtain ⟨e, he⟩ := hlength
  rw [he]
  exact ⟨e, _, rfl⟩

end Prelude

/-!
## One call
-/

section Process

variable {fsm : DbnFsm B} {version length : Nat}

theorem process_prelude_short (hstate : fsm.state = .prelude)
    (hshort : (Buffer.data fsm.buffer).length < metadataPreludeLen) :
    fsm.process (D := D) =
      .ret (.readMore (metadataPreludeLen -
        (Buffer.data fsm.buffer).length), fsm) := by
  have havail : Buffer.availableData fsm.buffer < metadataPreludeLen := hshort
  unfold process
  rw [processLoop]
  simp only [processRound, hstate, if_pos havail]
  rfl

theorem process_prelude_rejects (hstate : fsm.state = .prelude)
    (hroom : metadataPreludeLen ≤ (Buffer.data fsm.buffer).length)
    (h : forall version length, ¬ AcceptsPrelude fsm.upgradePolicy
      (Buffer.data fsm.buffer) version length) :
    exists e version, fsm.process (D := D) =
      .ret (.err e, { fsm with inputDbnVersion := version }) := by
  obtain ⟨e, version, hdecode⟩ := decodePrelude_of_rejects hroom h
  refine ⟨e, version, ?_⟩
  unfold process
  rw [processLoop]
  simp only [processRound, hstate, Buffer.availableData,
    if_neg (Nat.not_lt.mpr hroom), hdecode]

theorem process_prelude_accepts (hstate : fsm.state = .prelude)
    (h : AcceptsPrelude fsm.upgradePolicy (Buffer.data fsm.buffer) version
      length) :
    exists fsm', fsm.PreludeDone version length fsm' ∧
      fsm.process (D := D) = fsm'.processLoop 3 := by
  obtain ⟨fsm', hdecode, hdone⟩ := decodePrelude_of_accepts h
  refine ⟨fsm', hdone, ?_⟩
  unfold process
  rw [processLoop]
  simp only [processRound, hstate, Buffer.availableData,
    if_neg (Nat.not_lt.mpr h.room), hdecode]

theorem processLoop_metadata_short (hstate : fsm.state = .metadata length)
    (hshort : (Buffer.data fsm.buffer).length < length) (fuel : Nat) :
    fsm.processLoop (D := D) (fuel + 1) =
      .ret (.readMore (length - (Buffer.data fsm.buffer).length), fsm) := by
  have havail : Buffer.availableData fsm.buffer < length := hshort
  rw [processLoop]
  simp only [processRound, hstate, if_pos havail]
  rfl

/-- The machine after it has decoded the metadata. -/
def metadataDone (fsm : DbnFsm B) (length : Nat) (tsOut : Bool) : DbnFsm B :=
  { fsm with
    tsOut := tsOut
    buffer := Buffer.shift (Buffer.consume fsm.buffer length)
    state := State.record }

theorem decodeMetadata_fst (hversion : fsm.inputDbnVersion = some version) :
    (fsm.decodeMetadata length).1 =
      (decodeMetadataImpl version (Buffer.data fsm.buffer) >>= fun m =>
        Res.ok (Metadata.upgrade (D := D) m fsm.upgradePolicy)) := by
  unfold decodeMetadata
  simp only [hversion]
  cases decodeMetadataImpl (D := D) version (Buffer.data fsm.buffer) <;> rfl

/-- With the whole block buffered the outcome is that of the decoder. -/
theorem processLoop_metadata (hstate : fsm.state = .metadata length)
    (hversion : fsm.inputDbnVersion = some version)
    (hroom : length ≤ (Buffer.data fsm.buffer).length) (fuel : Nat) :
    fsm.processLoop (D := D) (fuel + 1) =
      match decodeMetadataImpl version (Buffer.data fsm.buffer) with
      | Res.ok m =>
          .ret (.metadata (m.upgrade fsm.upgradePolicy),
            fsm.metadataDone length m.tsOut)
      | Res.err e => .ret (.err e, fsm)
      | Res.panic p => .panic p := by
  rw [processLoop]
  simp only [processRound, hstate, Buffer.availableData,
    if_neg (Nat.not_lt.mpr hroom), decodeMetadata, hversion]
  cases decodeMetadataImpl (D := D) version (Buffer.data fsm.buffer) with
  | ok m =>
      simp only [Metadata.upgrade_tsOut, metadataDone, hversion]
  | err e => rfl
  | panic p => rfl

end Process

/-!
## Confinement to the declared block

The decoder is given all that is buffered and not only the declared block.
Cutting the buffer at the end of the block makes a difference exactly when the
fixed fields are valid and either `schema_definition_length` is cut or the
lists go on after the end of the block.
-/

section Confinement

variable {version len : Nat} {buffer : List UInt8}

theorem decodeMetadataImpl_agree_take_iff (hlen : metadataFixedLen ≤ len)
    (hle : len ≤ buffer.length) (hmax : buffer.length ≤ isizeMax) :
    Res.Agree (decodeMetadataImpl (D := D) version buffer)
        (decodeMetadataImpl version (buffer.take len)) <->
      ¬ ValidFixedFields version buffer ∨
        (listsOffset ≤ len ∧
          forall stop, WellFormedBlock D version buffer stop ->
            stop ≤ len) := by
  have htake : (buffer.take len).length = len := by
    rw [List.length_take, Nat.min_eq_left hle]
  have hcutFixed : metadataFixedLen ≤ (buffer.take len).length := by omega
  by_cases hvalid : ValidFixedFields version buffer
  swap
  · have hcutValid : ¬ ValidFixedFields version (buffer.take len) := by
      rwa [validFixedFields_take hlen]
    exact ⟨fun _ => Or.inl hvalid, fun _ => Or.inr
      ⟨decodeMetadataImpl_isErr_of_invalid (by omega) hvalid,
        decodeMetadataImpl_isErr_of_invalid hcutFixed hcutValid⟩⟩
  have hcutValid : ValidFixedFields version (buffer.take len) := by
    rwa [validFixedFields_take hlen]
  by_cases hshort : len < listsOffset
  · -- the cut decoder panics, so it agrees with nothing
    have hp := decodeMetadataImpl_of_short (D := D) hcutFixed hcutValid
      (by omega)
    constructor
    · rintro (⟨m, _, hcut⟩ | ⟨_, e, hcut⟩)
      · rw [hp] at hcut
        cases hcut
      · rw [hp] at hcut
        cases hcut
    · rintro (hnot | ⟨hroom, _⟩)
      · exact absurd hvalid hnot
      · omega
  rw [Nat.not_lt] at hshort
  have hfull : ¬ (decodeMetadataImpl (D := D) version buffer).IsPanic := by
    rw [decodeMetadataImpl_isPanic_iff (by omega) hmax]
    omega
  have hcut : ¬ (decodeMetadataImpl (D := D) version
      (buffer.take len)).IsPanic := by
    rw [decodeMetadataImpl_isPanic_iff hcutFixed (by omega)]
    omega
  constructor
  · intro hagree
    refine Or.inr ⟨hshort, fun stop hblock => ?_⟩
    obtain ⟨m, hok⟩ := (decodeMetadataImpl_ok_iff_wellFormedBlock
      (by omega) hmax).mpr ⟨stop, hblock⟩
    rcases hagree with ⟨m', _, hcutOk⟩ | ⟨⟨e, he⟩, _⟩
    · obtain ⟨stop', hcutBlock⟩ := (decodeMetadataImpl_ok_iff_wellFormedBlock
        (by omega) (by omega)).mp ⟨m', hcutOk⟩
      obtain ⟨hblock', hle'⟩ := (wellFormedBlock_take hshort hle).mp hcutBlock
      rw [hblock.stop_unique hmax hblock']
      exact hle'
    · rw [he] at hok
      cases hok
  · rintro (hnot | ⟨_, hstop⟩)
    · exact absurd hvalid hnot
    rcases Res.cases_outcome (decodeMetadataImpl (D := D) version buffer) with
      ⟨m, hok⟩ | herr | hpanic
    · -- the block of the full buffer is inside the cut buffer
      obtain ⟨stop, hblock⟩ := (decodeMetadataImpl_ok_iff_wellFormedBlock
        (by omega) hmax).mp ⟨m, hok⟩
      obtain ⟨m', hcutOk⟩ := (decodeMetadataImpl_ok_iff_wellFormedBlock
        (by omega) (by omega)).mpr
        ⟨stop, (wellFormedBlock_take hshort hle).mpr
          ⟨hblock, hstop stop hblock⟩⟩
      have hsame := decodeMetadataImpl_of_take hshort hle hmax hcutOk
      rw [hok] at hsame
      cases hsame
      exact Or.inl ⟨m, hok, hcutOk⟩
    · refine Or.inr ⟨herr, ?_⟩
      obtain ⟨e, he⟩ := herr
      rcases Res.cases_outcome (decodeMetadataImpl (D := D) version
        (buffer.take len)) with ⟨m, hcutOk⟩ | hcutErr | hpanic
      · rw [decodeMetadataImpl_of_take hshort hle hmax hcutOk] at he
        cases he
      · exact hcutErr
      · exact absurd hpanic hcut
    · exact absurd hpanic hfull

/-- What the cut decoder returns, the full one returns too. -/
theorem decodeMetadataImpl_of_cut (hlen : metadataFixedLen ≤ len)
    (hle : len ≤ buffer.length) (hmax : buffer.length ≤ isizeMax)
    {m : Metadata D}
    (hok : decodeMetadataImpl version (buffer.take len) = Res.ok m) :
    decodeMetadataImpl version buffer = Res.ok m := by
  have htake : (buffer.take len).length = len := by
    rw [List.length_take, Nat.min_eq_left hle]
  by_cases hvalid : ValidFixedFields version (buffer.take len)
  swap
  · obtain ⟨e, he⟩ :=
      decodeMetadataImpl_isErr_of_invalid (D := D) (by omega) hvalid
    rw [he] at hok
    cases hok
  by_cases hshort : len < listsOffset
  · have hp :=
      decodeMetadataImpl_of_short (D := D) (by omega) hvalid (by omega)
    rw [hp] at hok
    cases hok
  · exact decodeMetadataImpl_of_take (by omega) hle hmax hok

end Confinement

/--
Two machines of the same version and policy, one of which has buffered only
the declared block, get the same metadata or both an error, if and only if the
fixed fields are invalid or a block that starts in the buffer ends in the
declared block.
-/
theorem decodeMetadata_agree_cut_iff (fsm cut : DbnFsm B) (version len : Nat)
    (hversion : fsm.inputDbnVersion = some version)
    (hcutVersion : cut.inputDbnVersion = some version)
    (hpolicy : cut.upgradePolicy = fsm.upgradePolicy)
    (hcut : Buffer.data cut.buffer = (Buffer.data fsm.buffer).take len)
    (hlen : metadataFixedLen ≤ len)
    (hle : len ≤ (Buffer.data fsm.buffer).length)
    (hmax : (Buffer.data fsm.buffer).length ≤ isizeMax) :
    Res.Agree (fsm.decodeMetadata (D := D) len).1
        (cut.decodeMetadata len).1 <->
      ¬ ValidFixedFields version (Buffer.data fsm.buffer) ∨
        (listsOffset ≤ len ∧
          forall stop, WellFormedBlock D version (Buffer.data fsm.buffer) stop ->
            stop ≤ len) := by
  rw [← decodeMetadataImpl_agree_take_iff hlen hle hmax,
    decodeMetadata_fst hversion, decodeMetadata_fst hcutVersion, hpolicy, hcut]
  constructor
  · rintro (⟨m, hfull, hcutOk⟩ | ⟨⟨e, hfull⟩, e', hcutErr⟩)
    · obtain ⟨m1, hm1, _⟩ := Res.bind_eq_ok.mp hfull
      obtain ⟨m2, hm2, _⟩ := Res.bind_eq_ok.mp hcutOk
      have hsame := decodeMetadataImpl_of_cut hlen hle hmax hm2
      rw [hm1] at hsame
      cases hsame
      exact Or.inl ⟨m1, hm1, hm2⟩
    · exact Or.inr ⟨Res.isErr_of_bind_ok hfull, Res.isErr_of_bind_ok hcutErr⟩
  · rintro (⟨m, hfull, hcutOk⟩ | ⟨⟨e, hfull⟩, e', hcutErr⟩)
    · rw [hfull, hcutOk]
      exact Or.inl ⟨_, rfl, rfl⟩
    · rw [hfull, hcutErr]
      exact Or.inr ⟨Res.err_isErr e, Res.err_isErr e'⟩

/-- A machine that has accepted a prelude and then buffered some bytes. -/
def awaitingBlock (version len : Nat) (bytes : List UInt8) : DbnFsm B where
  inputDbnVersion := some version
  upgradePolicy := .asIs
  tsOut := false
  state := .metadata len
  buffer := Buffer.append (Buffer.withCapacity bytes.length) bytes
  compatBuffer := Buffer.withCapacity 0

/-- A block of 120 bytes, with the start of a record after it. -/
def blockAndRecord : DbnFsm VecBuffer :=
  awaitingBlock 3 120 (List.replicate 120 0 ++ List.replicate 16 4)

theorem decodeMetadata_agree_cut_iff_blockAndRecord :
    Res.Agree (blockAndRecord.decodeMetadata (D := GregorianDate) 120).1
        ((awaitingBlock 3 120 (List.replicate 120 0) :
          DbnFsm VecBuffer).decodeMetadata 120).1 <->
      ¬ ValidFixedFields 3 (Buffer.data blockAndRecord.buffer) ∨
        (listsOffset ≤ 120 ∧ forall stop,
          WellFormedBlock GregorianDate 3 (Buffer.data blockAndRecord.buffer)
            stop -> stop ≤ 120) :=
  decodeMetadata_agree_cut_iff blockAndRecord
    (awaitingBlock 3 120 (List.replicate 120 0)) 3 120 rfl rfl rfl
    (by decide +kernel) (by decide) (by decide +kernel) (by decide +kernel)

/-- A block of 104 bytes and the counts of its lists after it. -/
theorem decodeMetadata_reads_past_block :
    ¬ Res.Agree
      ((awaitingBlock 3 104 (List.replicate 120 0) :
        DbnFsm VecBuffer).decodeMetadata (D := GregorianDate) 104).1
      ((awaitingBlock 3 104 ((List.replicate 120 0).take 104) :
        DbnFsm VecBuffer).decodeMetadata 104).1 := by
  decide +kernel

end DbnFsm
end Dbn
