import Dbn.Decode.MetadataPhase

/-!
# Runs before the record phase

A fresh machine is given a stream in chunks, with calls of `process` at any
time.  A run does not depend on the chunks: the machine has either buffered all
that was written or all but an accepted prelude.
-/

namespace Dbn
namespace DbnFsm

open Lib

variable {B D : Type} [Buffer B] [CalendarDate D]

/--
The machines that can be reached from `start` before the record phase, with
what has been written to them.
-/
inductive MetadataRun (D : Type) [CalendarDate D] (start : DbnFsm B) :
    DbnFsm B -> List UInt8 -> Prop where
  | start : MetadataRun D start start []
  | write {fsm : DbnFsm B} {fed : List UInt8} (chunk : List UInt8)
      (before : MetadataRun D start fsm fed) :
      MetadataRun D start (fsm.writeAll chunk) (fed ++ chunk)
  | process {fsm fsm' : DbnFsm B} {fed : List UInt8}
      {res : ProcessResult D Unit} (before : MetadataRun D start fsm fed)
      (call : fsm.process = .ret (res, fsm')) (phase : ¬ fsm'.RecordPhase) :
      MetadataRun D start fsm' fed

/-- A call returns `ReadMore`, `Metadata` or `Err`. -/
def ReturnsNoRecord (D : Type) [CalendarDate D] (fsm : DbnFsm B) : Prop :=
  exists res fsm', fsm.process (D := D) = .ret (res, fsm') ∧
    res ≠ .record ()

/-- What the machine holds after a stream was written to it. -/
structure Holds (policy : VersionUpgradePolicy) (fsm : DbnFsm B)
    (fed : List UInt8) : Prop where
  inv : fsm.Inv
  upgradePolicy : fsm.upgradePolicy = policy
  phase : fsm.state = .prelude ∧ Buffer.data fsm.buffer = fed ∨
    exists version length, fsm.state = .metadata length ∧
      fsm.inputDbnVersion = some version ∧
      AcceptsPrelude policy fed version length ∧
      Buffer.data fsm.buffer = fed.drop metadataPreludeLen

section Steps

variable {policy : VersionUpgradePolicy} {fsm : DbnFsm B}
  {fed chunk : List UInt8}

theorem Holds.not_recordPhase (h : Holds policy fsm fed) :
    ¬ fsm.RecordPhase := by
  rw [recordPhase_iff]
  rcases h.phase with ⟨hstate, _⟩ | ⟨_, _, hstate, _⟩ <;> simp [hstate]

theorem data_of_not_recordPhase (h : ¬ fsm.RecordPhase) :
    fsm.data = Buffer.data fsm.buffer := by
  unfold data
  split
  · next hstate =>
      exact absurd (recordPhase_iff.mpr (Or.inr ⟨_, _, _, _, hstate⟩)) h
  · rfl

theorem Holds.of_appends {fsm' : DbnFsm B} (h : Holds policy fsm fed)
    (happ : fsm.Appends chunk fsm') : Holds policy fsm' (fed ++ chunk) := by
  have hphase := h.not_recordPhase
  have hphase' : ¬ fsm'.RecordPhase := by rwa [happ.recordPhase]
  have hdata : Buffer.data fsm'.buffer = Buffer.data fsm.buffer ++ chunk := by
    rw [← data_of_not_recordPhase hphase, ← data_of_not_recordPhase hphase',
      happ.data]
  refine ⟨happ.inv, happ.upgradePolicy.trans h.upgradePolicy, ?_⟩
  rw [happ.state hphase, happ.inputDbnVersion, hdata]
  rcases h.phase with ⟨hstate, hfed⟩ | ⟨v, len, hstate, hversion, haccept, hfed⟩
  · exact Or.inl ⟨hstate, by rw [hfed]⟩
  · refine Or.inr ⟨v, len, hstate, hversion,
      (acceptsPrelude_append haccept.room).mpr haccept, ?_⟩
    rw [hfed, List.drop_append_of_le_length haccept.room]

/-- The metadata phase is left by a call, or the machine stays as it is. -/
theorem eq_of_processLoop_metadata {version length fuel : Nat}
    {res : ProcessResult D Unit} {fsm' : DbnFsm B}
    (hstate : fsm.state = .metadata length)
    (hversion : fsm.inputDbnVersion = some version)
    (hret : fsm.processLoop (fuel + 1) = .ret (res, fsm'))
    (hphase : ¬ fsm'.RecordPhase) : fsm' = fsm := by
  by_cases hshort : (Buffer.data fsm.buffer).length < length
  · rw [processLoop_metadata_short hstate hshort] at hret
    cases hret
    rfl
  · rw [processLoop_metadata hstate hversion (Nat.not_lt.mp hshort)] at hret
    split at hret
    · cases hret
      exact absurd rfl hphase
    · cases hret
      rfl
    · cases hret

variable [LawfulBuffer B]

theorem Holds.writeAll (h : Holds policy fsm fed) (chunk : List UInt8) :
    Holds policy (fsm.writeAll chunk) (fed ++ chunk) :=
  h.of_appends (appends_writeAll h.inv chunk)

theorem PreludeDone.data_eq {fsm' : DbnFsm B} {version length : Nat}
    (h : fsm.PreludeDone version length fsm') :
    Buffer.data fsm'.buffer =
      (Buffer.data fsm.buffer).drop metadataPreludeLen := by
  rw [h.buffer, LawfulBuffer.data_grow, LawfulBuffer.data_consumeNoshift]

theorem PreludeDone.holds {fsm' : DbnFsm B} {version length : Nat}
    (h : fsm.PreludeDone version length fsm') (hinv : fsm.Inv)
    (hstate : fsm.state = .prelude)
    (haccept : AcceptsPrelude fsm.upgradePolicy (Buffer.data fsm.buffer)
      version length) :
    Holds fsm.upgradePolicy fsm' (Buffer.data fsm.buffer) where
  inv := by
    unfold Inv at hinv ⊢
    rw [hstate] at hinv
    rw [h.state, h.inputDbnVersion]
    refine ⟨?_, ?_, by simp⟩
    · rcases h.compat with hcompat | hcompat
      · rw [hcompat]
        exact hinv
      · rw [hcompat]
        simpa [doubleCompatBuffer] using hinv
    · intro v hv
      cases hv
      exact haccept.version_le
  upgradePolicy := h.upgradePolicy
  phase := Or.inr ⟨version, length, h.state, h.inputDbnVersion, haccept,
    h.data_eq⟩

theorem Holds.process {res : ProcessResult D Unit} {fsm' : DbnFsm B}
    (h : Holds policy fsm fed) (hret : fsm.process = .ret (res, fsm'))
    (hphase : ¬ fsm'.RecordPhase) : Holds policy fsm' fed := by
  rcases h.phase with ⟨hstate, hfed⟩ | ⟨v, len, hstate, hversion, haccept, hfed⟩
  swap
  · have hsame := eq_of_processLoop_metadata hstate hversion hret hphase
    rw [hsame]
    exact h
  by_cases hshort : (Buffer.data fsm.buffer).length < metadataPreludeLen
  · rw [process_prelude_short hstate hshort] at hret
    cases hret
    exact h
  rw [Nat.not_lt] at hshort
  by_cases haccept : exists version length, AcceptsPrelude fsm.upgradePolicy
      (Buffer.data fsm.buffer) version length
  · obtain ⟨version, length, haccept⟩ := haccept
    obtain ⟨fsm1, hdone, hprocess⟩ :=
      process_prelude_accepts (D := D) hstate haccept
    have hholds := hdone.holds h.inv hstate haccept
    rw [hprocess] at hret
    have hsame := eq_of_processLoop_metadata hdone.state
      hdone.inputDbnVersion hret hphase
    rw [hsame]
    rw [h.upgradePolicy, hfed] at hholds
    exact hholds
  · obtain ⟨e, version, hprocess⟩ := process_prelude_rejects (D := D) hstate
      hshort (fun v l hv => haccept ⟨v, l, hv⟩)
    rw [hprocess] at hret
    cases hret
    refine ⟨?_, h.upgradePolicy, Or.inl ⟨hstate, hfed⟩⟩
    have hinv := h.inv
    unfold Inv at hinv ⊢
    rw [hstate] at hinv
    simpa [hstate] using hinv

omit [CalendarDate D] [LawfulBuffer B] in
/-- Before the prelude is decoded everything is in the buffer. -/
theorem Holds.data_eq (h : Holds policy fsm fed) (hstate : fsm.state = .prelude) :
    Buffer.data fsm.buffer = fed := by
  rcases h.phase with ⟨_, hfed⟩ | ⟨_, _, hmeta, _⟩
  · exact hfed
  · rw [hstate] at hmeta
    cases hmeta

/-- A machine that holds an accepted prelude goes to the block. -/
theorem Holds.process_accepted {version length : Nat}
    (h : Holds policy fsm fed)
    (haccept : AcceptsPrelude policy fed version length) :
    exists fsm' fuel, Holds policy fsm' fed ∧
      fsm'.state = .metadata length ∧
      fsm'.inputDbnVersion = some version ∧
      Buffer.data fsm'.buffer = fed.drop metadataPreludeLen ∧
      Buffer.capacity fsm.buffer ≤ Buffer.capacity fsm'.buffer ∧
      fsm.process (D := D) = fsm'.processLoop (fuel + 1) := by
  rcases h.phase with ⟨hstate, hfed⟩ | ⟨v, l, hstate, hversion, haccept', hfed⟩
  · have haccept' := haccept
    rw [← h.upgradePolicy, ← hfed] at haccept'
    obtain ⟨fsm', hdone, hprocess⟩ :=
      process_prelude_accepts (D := D) hstate haccept'
    have hholds := hdone.holds h.inv hstate haccept'
    have hdata := hdone.data_eq
    rw [h.upgradePolicy, hfed] at hholds
    rw [hfed] at hdata
    refine ⟨fsm', 2, hholds, hdone.state, hdone.inputDbnVersion, hdata, ?_,
      hprocess⟩
    rw [hdone.buffer]
    simp
  · rw [haccept.version_eq, ← haccept'.version_eq, haccept.length_eq,
      ← haccept'.length_eq]
    exact ⟨fsm, 3, h, hstate, hversion, hfed, Nat.le_refl _, rfl⟩

/-- A machine that holds a block which decodes returns the metadata. -/
theorem Holds.process_block {version length : Nat} {m : Metadata D}
    (h : Holds policy fsm fed)
    (haccept : AcceptsPrelude policy fed version length)
    (hlen : length ≤ (fed.drop metadataPreludeLen).length)
    (hdecode : decodeMetadataImpl version (fed.drop metadataPreludeLen) =
      Res.ok m) :
    exists fsm', Holds policy fsm' fed ∧ fsm'.state = .metadata length ∧
      fsm'.inputDbnVersion = some version ∧
      Buffer.data fsm'.buffer = fed.drop metadataPreludeLen ∧
      fsm.process = .ret (.metadata (m.upgrade policy),
        fsm'.metadataDone length m.tsOut) := by
  obtain ⟨fsm', fuel, hholds, hstate, hversion, hdata, _, hprocess⟩ :=
    h.process_accepted (D := D) haccept
  refine ⟨fsm', hholds, hstate, hversion, hdata, ?_⟩
  rw [hprocess, processLoop_metadata hstate hversion (by rwa [hdata]), hdata,
    hdecode, hholds.upgradePolicy]

end Steps

/-- Every run leaves the machine with all that was written. -/
theorem MetadataRun.holds [LawfulBuffer B] {start fsm : DbnFsm B}
    {fed : List UInt8} (hinv : start.Inv) (hstate : start.state = .prelude)
    (hdata : Buffer.data start.buffer = [])
    (h : MetadataRun D start fsm fed) : Holds start.upgradePolicy fsm fed := by
  induction h with
  | start => exact ⟨hinv, rfl, Or.inl ⟨hstate, hdata⟩⟩
  | write chunk _ ih => exact ih.writeAll chunk
  | process _ call phase ih => exact ih.process call phase

/-!
## No panic

A call panics exactly on a block that has valid fixed fields and is declared
to end before `schema_definition_length`, in the moment when the block is
buffered and that field is not.
-/

/-- The stream declares a block that ends before `schema_definition_length`. -/
structure TruncatedBlock (policy : VersionUpgradePolicy)
    (stream : List UInt8) (version length : Nat) : Prop where
  accepts : AcceptsPrelude policy stream version length
  room : metadataPreludeLen + length ≤ stream.length
  short : length < listsOffset
  fixed : ValidFixedFields version (stream.drop metadataPreludeLen)

section Safety

variable {policy : VersionUpgradePolicy} {fsm : DbnFsm B}
  {fed stream : List UInt8}

/-- The prefix of a stream that holds the block decides about it. -/
theorem truncatedBlock_append {rest : List UInt8} {version length : Nat}
    (hroom : metadataPreludeLen + length ≤ stream.length) :
    TruncatedBlock policy (stream ++ rest) version length <->
      TruncatedBlock policy stream version length := by
  have hprelude : metadataPreludeLen ≤ stream.length := by omega
  have hdrop : (stream ++ rest).drop metadataPreludeLen =
      stream.drop metadataPreludeLen ++ rest :=
    List.drop_append_of_le_length hprelude
  have hfixed : metadataFixedLen ≤ length ->
      (ValidFixedFields version (stream.drop metadataPreludeLen ++ rest) <->
        ValidFixedFields version (stream.drop metadataPreludeLen)) := by
    intro hlen
    rw [← validFixedFields_take hlen,
      List.take_append_of_le_length (by rw [List.length_drop]; omega),
      validFixedFields_take hlen]
  constructor
  · rintro ⟨haccept, _, hshort, hvalid⟩
    rw [hdrop, hfixed haccept.length_ge] at hvalid
    exact ⟨(acceptsPrelude_append hprelude).mp haccept, hroom, hshort, hvalid⟩
  · rintro ⟨haccept, _, hshort, hvalid⟩
    rw [← hfixed haccept.length_ge, ← hdrop] at hvalid
    refine ⟨(acceptsPrelude_append hprelude).mpr haccept, ?_, hshort, hvalid⟩
    rw [List.length_append]
    omega

theorem returnsNoRecord_of_processLoop_metadata {version length fuel : Nat}
    (hstate : fsm.state = .metadata length)
    (hversion : fsm.inputDbnVersion = some version)
    (hfixed : metadataFixedLen ≤ length)
    (hmax : (Buffer.data fsm.buffer).length ≤ isizeMax)
    (hsafe : length ≤ (Buffer.data fsm.buffer).length ->
      (Buffer.data fsm.buffer).length < listsOffset ->
      ¬ ValidFixedFields version (Buffer.data fsm.buffer)) :
    exists res fsm', fsm.processLoop (D := D) (fuel + 1) = .ret (res, fsm') ∧
      res ≠ .record () := by
  by_cases hshort : (Buffer.data fsm.buffer).length < length
  · exact ⟨_, _, processLoop_metadata_short hstate hshort fuel, by simp⟩
  rw [Nat.not_lt] at hshort
  rw [processLoop_metadata hstate hversion hshort]
  have hpanic : ¬ (decodeMetadataImpl (D := D) version
      (Buffer.data fsm.buffer)).IsPanic := by
    rw [decodeMetadataImpl_isPanic_iff (by omega) hmax]
    rintro ⟨hvalid, hend⟩
    exact hsafe hshort hend hvalid
  rcases Res.cases_outcome (decodeMetadataImpl (D := D) version
    (Buffer.data fsm.buffer)) with ⟨m, hm⟩ | ⟨e, he⟩ | hp
  · rw [hm]
    exact ⟨_, _, rfl, by simp⟩
  · rw [he]
    exact ⟨_, _, rfl, by simp⟩
  · exact absurd hp hpanic

theorem Holds.returnsNoRecord [LawfulBuffer B] (h : Holds policy fsm fed)
    (hmax : fed.length ≤ isizeMax)
    (hsafe : forall version length,
      ¬ TruncatedBlock policy fed version length) :
    fsm.ReturnsNoRecord D := by
  have hblock : forall {fsm : DbnFsm B} {version length : Nat},
      AcceptsPrelude policy fed version length ->
      Buffer.data fsm.buffer = fed.drop metadataPreludeLen ->
      length ≤ (Buffer.data fsm.buffer).length ->
      (Buffer.data fsm.buffer).length < listsOffset ->
      ¬ ValidFixedFields version (Buffer.data fsm.buffer) := by
    intro fsm version length haccept hdata hroom hend hvalid
    have hprelude := haccept.room
    rw [hdata] at hvalid
    rw [hdata, List.length_drop] at hroom hend
    exact hsafe version length ⟨haccept, by omega, by omega, hvalid⟩
  rcases h.phase with ⟨hstate, hfed⟩ | ⟨v, len, hstate, hversion, haccept, hfed⟩
  swap
  · exact returnsNoRecord_of_processLoop_metadata hstate hversion
      haccept.length_ge (by rw [hfed, List.length_drop]; omega)
      (hblock haccept hfed)
  by_cases hshort : (Buffer.data fsm.buffer).length < metadataPreludeLen
  · exact ⟨_, _, process_prelude_short hstate hshort, by simp⟩
  by_cases haccept : exists version length, AcceptsPrelude fsm.upgradePolicy
      (Buffer.data fsm.buffer) version length
  · obtain ⟨version, length, haccept⟩ := haccept
    obtain ⟨fsm', hdone, hprocess⟩ :=
      process_prelude_accepts (D := D) hstate haccept
    have hdata := hdone.data_eq
    rw [h.upgradePolicy, hfed] at haccept
    rw [hfed] at hdata
    unfold ReturnsNoRecord
    rw [hprocess]
    exact returnsNoRecord_of_processLoop_metadata hdone.state
      hdone.inputDbnVersion haccept.length_ge
      (by rw [hdata, List.length_drop]; omega) (hblock haccept hdata)
  · obtain ⟨e, version, hprocess⟩ := process_prelude_rejects (D := D) hstate
      (Nat.not_lt.mp hshort) (fun v l hv => haccept ⟨v, l, hv⟩)
    exact ⟨_, _, hprocess, by simp⟩

/-- A machine that holds just the truncated block panics. -/
theorem Holds.process_panics [LawfulBuffer B] {version length : Nat}
    (h : Holds policy fsm fed) (hstate : fsm.state = .prelude)
    (htrunc : TruncatedBlock policy fed version length)
    (hlen : fed.length = metadataPreludeLen + length)
    (hmax : fed.length ≤ isizeMax) : ¬ fsm.ReturnsNoRecord D := by
  have hfed := h.data_eq hstate
  have haccept := htrunc.accepts
  have hge := haccept.length_ge
  have hshort := htrunc.short
  rw [← hfed, ← h.upgradePolicy] at haccept
  obtain ⟨fsm', hdone, hprocess⟩ :=
    process_prelude_accepts (D := D) hstate haccept
  have hdata := hdone.data_eq
  rw [hfed] at hdata
  have hlength : (Buffer.data fsm'.buffer).length = length := by
    rw [hdata, List.length_drop]
    omega
  have hpanic : (decodeMetadataImpl (D := D) version
      (Buffer.data fsm'.buffer)).IsPanic := by
    rw [decodeMetadataImpl_isPanic_iff (by omega) (by omega), hdata]
    refine ⟨htrunc.fixed, ?_⟩
    rw [← hdata]
    omega
  obtain ⟨p, hp⟩ := hpanic
  rintro ⟨res, fsm'', hret, _⟩
  rw [hprocess, processLoop_metadata hdone.state hdone.inputDbnVersion
    (by omega), hp] at hret
  cases hret

end Safety

/--
A machine that is built to expect metadata answers every call of `process`
before the record phase with `ReadMore`, `Metadata` or `Err`, for every way of
feeding it the stream, if and only if the stream has no truncated block.
-/
theorem metadataRun_returns_iff [LawfulBuffer B] {b : DbnFsmBuilder}
    {start : DbnFsm B} (hbuild : b.build = Res.ok start)
    (hskip : b.skipMetadata = false) {stream : List UInt8}
    (hmax : stream.length ≤ isizeMax) :
    (forall fsm fed, MetadataRun D start fsm fed -> fed <+: stream ->
        fsm.ReturnsNoRecord D) <->
      forall version length,
        ¬ TruncatedBlock b.upgradePolicy stream version length := by
  have hinv := inv_build hbuild
  have hstart := DbnFsmBuilder.build_eq_ok hbuild
  have hstate : start.state = .prelude := by
    rw [hstart]
    simp [hskip]
  have hdata : Buffer.data start.buffer = [] := by
    rw [hstart]
    simp
  have hpolicy : start.upgradePolicy = b.upgradePolicy := by rw [hstart]
  constructor
  · intro hall version length htrunc
    have hroom := htrunc.room
    -- the run that has just buffered the block
    have hcut : stream.take (metadataPreludeLen + length) ++
        stream.drop (metadataPreludeLen + length) = stream :=
      List.take_append_drop _ _
    have hlen : (stream.take (metadataPreludeLen + length)).length =
        metadataPreludeLen + length := by
      rw [List.length_take, Nat.min_eq_left hroom]
    have htrunc' : TruncatedBlock b.upgradePolicy
        (stream.take (metadataPreludeLen + length)) version length := by
      rw [← hcut] at htrunc
      exact (truncatedBlock_append (Nat.le_of_eq hlen.symm)).mp htrunc
    have hrun : MetadataRun D start
        (start.writeAll (stream.take (metadataPreludeLen + length)))
        (stream.take (metadataPreludeLen + length)) :=
      MetadataRun.write _ MetadataRun.start
    have hholds := hrun.holds hinv hstate hdata
    rw [hpolicy] at hholds
    have hprelude : (start.writeAll
        (stream.take (metadataPreludeLen + length))).state = .prelude := by
      rw [(appends_writeAll hinv _).state, hstate]
      simp [recordPhase_iff, hstate]
    exact hholds.process_panics hprelude htrunc' hlen (by omega)
      (hall _ _ hrun (List.take_prefix _ _))
  · rintro hsafe fsm fed hrun ⟨rest, rfl⟩
    have hholds := hrun.holds hinv hstate hdata
    rw [hpolicy] at hholds
    rw [List.length_append] at hmax
    refine hholds.returnsNoRecord (by omega) (fun version length htrunc => ?_)
    exact hsafe version length
      ((truncatedBlock_append htrunc.room).mpr htrunc)

/-- A stream with a prelude of the current version and a zeroed block. -/
def zeroBlockStream (length : Nat) : List UInt8 :=
  dbnPrefix ++ [3] ++ leBytes 4 length ++ List.replicate length 0

theorem metadataRun_returns_iff_zeroBlock :
    (forall fsm fed,
        MetadataRun GregorianDate
          (DbnFsm.new defaultBufSize 0 : DbnFsm VecBuffer) fsm fed ->
        fed <+: zeroBlockStream 120 -> fsm.ReturnsNoRecord GregorianDate) <->
      forall version length,
        ¬ TruncatedBlock .upgradeToV3 (zeroBlockStream 120) version length :=
  metadataRun_returns_iff (b := (default : DbnFsmBuilder)) rfl rfl
    (by decide +kernel)

/-- A block of the fixed length, without `schema_definition_length`. -/
theorem process_panics_zeroBlock :
    ¬ ((DbnFsm.new defaultBufSize 0 : DbnFsm VecBuffer).writeAll
      (zeroBlockStream 100)).ReturnsNoRecord GregorianDate := by
  have hpanic : ((DbnFsm.new defaultBufSize 0 : DbnFsm VecBuffer).writeAll
      (zeroBlockStream 100)).process (D := GregorianDate) =
      .panic Panic.outOfBounds := by rfl
  rintro ⟨res, fsm, hret, _⟩
  rw [hpanic] at hret
  cases hret

end DbnFsm
end Dbn
