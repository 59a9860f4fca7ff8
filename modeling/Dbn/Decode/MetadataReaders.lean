import Dbn.Decode.Async
import Dbn.Decode.MetadataRuns
import Dbn.Lib.Filling

/-!
# Reading metadata in short reads

The metadata decoders over a reader that may return fewer bytes than it has
space for.  The space never runs out before the bytes that the machine has
asked for are there.
-/

namespace Dbn
namespace DbnFsm

open Lib

variable {B D : Type} [Buffer B] [CalendarDate D]

/-- A machine that has been fed a part of the stream of a reader. -/
structure Reading (policy : VersionUpgradePolicy) (stream : List UInt8)
    (r : ShortReader) (fsm : DbnFsm B) (fed : List UInt8) : Prop where
  holds : Holds policy fsm fed
  stream_eq : fed ++ r.rest = stream
  le_capacity : defaultBufSize ≤ Buffer.capacity fsm.buffer
  capacity_le : Buffer.capacity fsm.buffer ≤ 2 ^ 33
  prelude : fsm.state = .prelude ->
    Buffer.capacity fsm.buffer = defaultBufSize ∧
      Buffer.position fsm.buffer = 0
  metadata : forall length, fsm.state = .metadata length ->
    Buffer.position fsm.buffer + length ≤ Buffer.capacity fsm.buffer

theorem readSpace_shortReader (r : ShortReader) (fsm : DbnFsm B) :
    readSpace r fsm =
      (Except.ok (r.amount fsm.spaceLen), r.advance (r.amount fsm.spaceLen),
        fsm.writeSpace (r.rest.take (r.amount fsm.spaceLen))) := by
  unfold readSpace
  rw [ShortReader.read_eq]
  dsimp only
  rw [ShortReader.length_take_amount]

/-- The machine after a read. -/
def afterRead (r : ShortReader) (fsm : DbnFsm B) : DbnFsm B :=
  (fsm.writeSpace (r.rest.take (r.amount fsm.spaceLen))).fill
    (r.amount fsm.spaceLen)

theorem afterRead_eq (r : ShortReader) (fsm : DbnFsm B) :
    afterRead r fsm =
      { fsm with
        buffer := Buffer.append fsm.buffer
          (r.rest.take (r.amount fsm.spaceLen)) } := by
  unfold afterRead writeSpace fill Buffer.append
  rw [ShortReader.length_take_amount]

variable [LawfulBuffer B] {policy : VersionUpgradePolicy}
  {stream fed : List UInt8} {r : ShortReader} {fsm : DbnFsm B}

theorem appends_afterRead (hinv : fsm.Inv) :
    fsm.Appends (r.rest.take (r.amount fsm.spaceLen)) (afterRead r fsm) := by
  have hfits : (r.rest.take (r.amount fsm.spaceLen)).length ≤
      fsm.spaceLen := by
    rw [ShortReader.length_take_amount]
    exact r.amount_le_space _
  have h := appends_fill hinv hfits
  rwa [ShortReader.length_take_amount] at h

/-- A read keeps the positions, but for moving the data to the front. -/
theorem position_afterRead_le (r : ShortReader) (fsm : DbnFsm B) :
    Buffer.position (afterRead r fsm).buffer ≤
      Buffer.position fsm.buffer := by
  rw [afterRead_eq]
  exact Buffer.position_append_le _ _

theorem capacity_afterRead (r : ShortReader) (fsm : DbnFsm B) :
    Buffer.capacity (afterRead r fsm).buffer =
      Buffer.capacity fsm.buffer := by
  rw [afterRead_eq]
  exact Buffer.capacity_append _ _

theorem length_data_afterRead (r : ShortReader) (fsm : DbnFsm B) :
    (Buffer.data (afterRead r fsm).buffer).length =
      (Buffer.data fsm.buffer).length + r.amount fsm.spaceLen := by
  have hfits : (r.rest.take (r.amount fsm.spaceLen)).length ≤
      Buffer.availableSpace fsm.buffer := by
    rw [ShortReader.length_take_amount]
    exact r.amount_le_space _
  rw [afterRead_eq]
  dsimp only
  rw [Buffer.data_append hfits, List.length_append,
    ShortReader.length_take_amount]

/-- A read leaves all of the space that it did not fill. -/
theorem le_spaceLen_afterRead (r : ShortReader) (fsm : DbnFsm B) :
    fsm.spaceLen - r.amount fsm.spaceLen ≤ (afterRead r fsm).spaceLen := by
  have hpos := position_afterRead_le r fsm
  have hcap := capacity_afterRead r fsm
  have hlen := length_data_afterRead r fsm
  have hlayout := LawfulBuffer.layout fsm.buffer
  have hlayout' := LawfulBuffer.layout (afterRead r fsm).buffer
  have hspace : fsm.spaceLen = Buffer.availableSpace fsm.buffer := rfl
  have hspace' : (afterRead r fsm).spaceLen =
      Buffer.availableSpace (afterRead r fsm).buffer := rfl
  omega

theorem spaceLen_afterRead_of_front (r : ShortReader)
    (hfront : Buffer.position fsm.buffer = 0) :
    (afterRead r fsm).spaceLen =
      fsm.spaceLen - r.amount fsm.spaceLen := by
  have hpos := position_afterRead_le r fsm
  have hcap := capacity_afterRead r fsm
  have hlen := length_data_afterRead r fsm
  have hlayout := LawfulBuffer.layout fsm.buffer
  have hlayout' := LawfulBuffer.layout (afterRead r fsm).buffer
  have hspace : fsm.spaceLen = Buffer.availableSpace fsm.buffer := rfl
  have hspace' : (afterRead r fsm).spaceLen =
      Buffer.availableSpace (afterRead r fsm).buffer := rfl
  have hle := r.amount_le_space fsm.spaceLen
  omega

theorem Reading.read (h : Reading policy stream r fsm fed) :
    Reading policy stream (r.advance (r.amount fsm.spaceLen))
      (afterRead r fsm) (fed ++ r.rest.take (r.amount fsm.spaceLen)) where
  holds := h.holds.of_appends (appends_afterRead h.holds.inv)
  stream_eq := by
    rw [ShortReader.rest_advance, List.append_assoc, List.take_append_drop]
    exact h.stream_eq
  le_capacity := by
    rw [capacity_afterRead]
    exact h.le_capacity
  capacity_le := by
    rw [capacity_afterRead]
    exact h.capacity_le
  prelude := by
    intro hstate
    have hsame := (appends_afterRead (r := r) h.holds.inv).state
      h.holds.not_recordPhase
    rw [hsame] at hstate
    have hpos := position_afterRead_le r fsm
    rw [capacity_afterRead, (h.prelude hstate).1]
    rw [(h.prelude hstate).2] at hpos
    exact ⟨rfl, Nat.le_zero.mp hpos⟩
  metadata := by
    intro length hstate
    have hsame := (appends_afterRead (r := r) h.holds.inv).state
      h.holds.not_recordPhase
    rw [hsame] at hstate
    have hpos := position_afterRead_le r fsm
    have hroom := h.metadata length hstate
    rw [capacity_afterRead]
    omega

theorem Reading.state_afterRead (h : Reading policy stream r fsm fed) :
    (afterRead r fsm).state = fsm.state :=
  (appends_afterRead h.holds.inv).state h.holds.not_recordPhase

theorem Reading.inputDbnVersion_afterRead
    (h : Reading policy stream r fsm fed) :
    (afterRead r fsm).inputDbnVersion = fsm.inputDbnVersion :=
  (appends_afterRead h.holds.inv).inputDbnVersion

omit [CalendarDate D] [LawfulBuffer B] in
theorem readInto_eq (r : ShortReader) (fsm : DbnFsm B) :
    r.readInto fsm.buffer = (afterRead r fsm).buffer := by
  rw [afterRead_eq]
  rfl

/-!
## The loop that reads
-/

/-- The loop reads as many bytes as it was asked for. -/
structure ReadEnough (policy : VersionUpgradePolicy) (stream : List UInt8)
    (n total : Nat) (r : ShortReader) (fsm : DbnFsm B) (fed : List UInt8)
    (r' : ShortReader) (fsm' : DbnFsm B) (more : List UInt8) : Prop where
  reading : Reading policy stream r' fsm' (fed ++ more)
  state : fsm'.state = fsm.state
  inputDbnVersion : fsm'.inputDbnVersion = fsm.inputDbnVersion
  enough : n ≤ total + more.length
  filled : Fills ((Buffer.data fsm.buffer).length + (n - total)) fsm.buffer r
    fsm'.buffer r'
  /-- In the prelude the reads do not depend on how the buffer shifts. -/
  crossing : fsm.state = .prelude -> exists i,
    total + r.totalAfter fsm.spaceLen i < n ∧
      more.length = r.totalAfter fsm.spaceLen (i + 1)

theorem readLoop_spec {n total fuel : Nat}
    (h : Reading policy stream r fsm fed) (htotal : total < n)
    (hroom : n - total ≤ fsm.spaceLen) (hfuel : n - total < fuel) :
    (exists r' fsm' more,
      MetadataDecoder.readLoop n fuel total r fsm =
        .ret (Except.ok (), r', fsm') ∧
      ReadEnough policy stream n total r fsm fed r' fsm' more) ∨
    (exists r' fsm',
      MetadataDecoder.readLoop n fuel total r fsm =
        .ret (Except.error (MetadataDecoder.ioErr .unexpectedEof), r', fsm') ∧
      total + r.rest.length < n) := by
  induction fuel generalizing total r fsm fed with
  | zero => omega
  | succ fuel ih =>
      have hread := h.read
      have hle := le_spaceLen_afterRead r fsm
      rw [MetadataDecoder.readLoop, readSpace_shortReader]
      dsimp only
      by_cases hzero : r.amount fsm.spaceLen = 0
      · rw [if_pos hzero]
        refine Or.inr ⟨_, _, rfl, ?_⟩
        rcases ShortReader.amount_eq_zero.mp hzero with hspace | hrest
        · omega
        · rw [hrest]
          simpa using htotal
      rw [if_neg hzero]
      by_cases henough : total + r.amount fsm.spaceLen ≥ n
      · rw [if_pos henough]
        refine Or.inl ⟨_, _, _, rfl, hread, h.state_afterRead,
          h.inputDbnVersion_afterRead, ?_, ?_, ?_⟩
        · rw [ShortReader.length_take_amount]
          exact henough
        · refine Fills.read (by omega) hzero ?_
          rw [readInto_eq]
          refine Fills.done ?_
          rw [length_data_afterRead]
          omega
        · intro _
          refine ⟨0, htotal, ?_⟩
          rw [ShortReader.length_take_amount]
          rfl
      rw [if_neg henough]
      have hrest := r.amount_le_rest fsm.spaceLen
      have htotal' : total + r.amount fsm.spaceLen < n := by omega
      rcases ih hread htotal' (by omega) (by omega) with
        ⟨r', fsm', more, hloop, hdone⟩ | ⟨r', fsm', hloop, hshort⟩
      · refine Or.inl ⟨r', fsm', r.rest.take (r.amount fsm.spaceLen) ++ more,
          hloop, ?_, hdone.state.trans h.state_afterRead,
          hdone.inputDbnVersion.trans h.inputDbnVersion_afterRead, ?_, ?_, ?_⟩
        · rw [← List.append_assoc]
          exact hdone.reading
        · have henough' := hdone.enough
          rw [List.length_append, ShortReader.length_take_amount]
          omega
        · refine Fills.read (by omega) hzero ?_
          have hfilled := hdone.filled
          have htarget : (Buffer.data fsm.buffer).length +
              r.amount fsm.spaceLen + (n - (total + r.amount fsm.spaceLen)) =
              (Buffer.data fsm.buffer).length + (n - total) := by omega
          rw [length_data_afterRead, htarget] at hfilled
          rw [readInto_eq]
          exact hfilled
        · intro hstate
          obtain ⟨i, hi, hlen⟩ := hdone.crossing
            (h.state_afterRead.trans hstate)
          rw [spaceLen_afterRead_of_front r (h.prelude hstate).2] at hi hlen
          refine ⟨i + 1, ?_, ?_⟩
          · rw [ShortReader.totalAfter]
            omega
          · rw [List.length_append, ShortReader.length_take_amount,
              ShortReader.totalAfter, hlen]
      · refine Or.inr ⟨r', fsm', hloop, ?_⟩
        rw [ShortReader.rest_advance, List.length_drop] at hshort
        omega

omit [CalendarDate D] in
/-- What was read for the block is not longer than the largest buffer. -/
theorem Reading.length_drop_le (h : Reading policy stream r fsm fed) :
    (fed.drop metadataPreludeLen).length ≤ 2 ^ 33 := by
  have hdata := Buffer.length_data_le fsm.buffer
  have hcapacity := h.capacity_le
  rcases h.holds.phase with ⟨_, hfed⟩ | ⟨_, _, _, _, _, hfed⟩
  · rw [hfed] at hdata
    rw [List.length_drop]
    omega
  · rw [← hfed]
    exact Nat.le_trans hdata hcapacity

/-!
## One call on what was read
-/

/-- The prelude or the block that it declares is not complete. -/
def Incomplete (policy : VersionUpgradePolicy) (fed : List UInt8) : Prop :=
  fed.length < metadataPreludeLen ∨
    exists version length, AcceptsPrelude policy fed version length ∧
      fed.length < metadataPreludeLen + length

/-- A call that does not ask for more. -/
def IsFinal (o : Outcome (ProcessResult D Unit × DbnFsm B)) : Prop :=
  (exists e fsm, o = .ret (.err e, fsm)) ∨
    (exists m fsm, o = .ret (.metadata m, fsm)) ∨ o = .panic Panic.outOfBounds

/-- A call that asks for `n` more bytes, for which there is space. -/
structure Asks (policy : VersionUpgradePolicy) (stream : List UInt8)
    (r : ShortReader) (fed : List UInt8) (n : Nat) (fsm' : DbnFsm B) :
    Prop where
  reading : Reading policy stream r fsm' fed
  pos : 0 < n
  room : n ≤ fsm'.spaceLen
  target : (fsm'.state = .prelude ∧ fed.length + n = metadataPreludeLen) ∨
    exists version length, fsm'.state = .metadata length ∧
      AcceptsPrelude policy fed version length ∧
      fed.length + n = metadataPreludeLen + length

theorem AcceptsPrelude.unique {version version' length length' : Nat}
    (h : AcceptsPrelude policy fed version length)
    (h' : AcceptsPrelude policy fed version' length') :
    version = version' ∧ length = length' :=
  ⟨h.version_eq.trans h'.version_eq.symm, h.length_eq.trans h'.length_eq.symm⟩

/-- A block that has been read in full is complete. -/
theorem AcceptsPrelude.not_incomplete {version length : Nat}
    (haccept : AcceptsPrelude policy fed version length)
    (hle : metadataPreludeLen + length ≤ fed.length) :
    ¬ Incomplete policy fed := by
  rintro (hshort | ⟨v, l, haccept', hlt⟩)
  · omega
  · have hsame := (haccept.unique haccept').2
    omega

/-- A call in the metadata phase. -/
theorem Reading.processLoop_metadata {version length : Nat}
    (h : Reading policy stream r fsm fed) (hstate : fsm.state = .metadata length)
    (hversion : fsm.inputDbnVersion = some version)
    (haccept : AcceptsPrelude policy fed version length)
    (hdata : Buffer.data fsm.buffer = fed.drop metadataPreludeLen)
    (fuel : Nat) :
    (fed.length < metadataPreludeLen + length ∧ exists n,
      fsm.processLoop (D := D) (fuel + 1) = .ret (.readMore n, fsm) ∧
      Asks policy stream r fed n fsm) ∨
    (metadataPreludeLen + length ≤ fed.length ∧
      IsFinal (fsm.processLoop (D := D) (fuel + 1))) := by
  have hprelude := haccept.room
  have hlen : (Buffer.data fsm.buffer).length =
      fed.length - metadataPreludeLen := by
    rw [hdata, List.length_drop]
  by_cases hshort : (Buffer.data fsm.buffer).length < length
  · refine Or.inl ⟨by omega, _,
      processLoop_metadata_short hstate hshort fuel, h, by omega, ?_, Or.inr
      ⟨version, length, hstate, haccept, by omega⟩⟩
    have hlayout := LawfulBuffer.layout fsm.buffer
    have hroom := h.metadata length hstate
    have hspace : fsm.spaceLen = Buffer.availableSpace fsm.buffer := rfl
    omega
  · rw [Nat.not_lt] at hshort
    refine Or.inr ⟨by omega, ?_⟩
    have hge := haccept.length_ge
    have hcap := Buffer.length_data_le fsm.buffer
    have hcapacity := h.capacity_le
    have hmax : (Buffer.data fsm.buffer).length ≤ isizeMax := by
      unfold isizeMax
      omega
    rw [DbnFsm.processLoop_metadata hstate hversion hshort]
    rcases Res.cases_outcome (decodeMetadataImpl (D := D) version
      (Buffer.data fsm.buffer)) with ⟨m, hm⟩ | ⟨e, he⟩ | hpanic
    · rw [hm]
      exact Or.inr (Or.inl ⟨_, _, rfl⟩)
    · rw [he]
      exact Or.inl ⟨_, _, rfl⟩
    · have hpanic' := (decodeMetadataImpl_isPanic_iff (by omega) hmax).mp hpanic
      rw [decodeMetadataImpl_of_short (by omega) hpanic'.1 hpanic'.2]
      exact Or.inr (Or.inr rfl)

/-- The machine has read as much after it has decoded the prelude. -/
theorem Reading.preludeDone {version length : Nat}
    (h : Reading policy stream r fsm fed) (hstate : fsm.state = .prelude)
    (hdone : PreludeDone fsm version length fsm')
    (haccept : AcceptsPrelude fsm.upgradePolicy (Buffer.data fsm.buffer)
      version length) : Reading policy stream r fsm' fed := by
  have hcap := h.prelude hstate
  have hlt := haccept.length_lt
  have hholds := hdone.holds h.holds.inv hstate haccept
  rw [h.holds.upgradePolicy, h.holds.data_eq hstate] at hholds
  exact
    { holds := hholds
      stream_eq := h.stream_eq
      le_capacity := by
        rw [hdone.buffer]
        simp [hcap.1]
      capacity_le := by
        rw [hdone.buffer]
        simp only [LawfulBuffer.capacity_grow,
          LawfulBuffer.capacity_consumeNoshift, hcap.1, defaultBufSize,
          metadataPreludeLen_eq]
        omega
      prelude := by
        intro hprelude
        rw [hdone.state] at hprelude
        cases hprelude
      metadata := by
        intro length' hlength
        rw [hdone.state] at hlength
        cases hlength
        rw [hdone.buffer]
        simp only [LawfulBuffer.capacity_grow, LawfulBuffer.position_grow,
          LawfulBuffer.capacity_consumeNoshift,
          LawfulBuffer.position_consumeNoshift, hcap.1, hcap.2,
          metadataPreludeLen_eq]
        omega }

/-- A call asks for more exactly when something is not complete. -/
theorem Reading.process_cases (h : Reading policy stream r fsm fed) :
    (Incomplete policy fed ∧ exists n fsm',
      fsm.process (D := D) = .ret (.readMore n, fsm') ∧
      Asks policy stream r fed n fsm') ∨
    (¬ Incomplete policy fed ∧ IsFinal (fsm.process (D := D)) ∧
      ((forall version length, ¬ AcceptsPrelude policy fed version length) ->
        exists e fsm', fsm.process (D := D) = .ret (.err e, fsm'))) := by
  rcases h.holds.phase with
    ⟨hstate, hfed⟩ | ⟨version, length, hstate, hversion, haccept, hfed⟩
  swap
  · rcases h.processLoop_metadata (D := D) hstate hversion haccept hfed 3 with
      ⟨hlt, n, hret, hasks⟩ | ⟨hle, hfinal⟩
    · exact Or.inl ⟨Or.inr ⟨version, length, haccept, hlt⟩, n, fsm, hret,
        hasks⟩
    · exact Or.inr ⟨haccept.not_incomplete hle, hfinal,
        fun hno => absurd haccept (hno version length)⟩
  by_cases hshort : (Buffer.data fsm.buffer).length < metadataPreludeLen
  · have hret := process_prelude_short (D := D) hstate hshort
    rw [hfed] at hshort hret
    have hcap := h.prelude hstate
    have hlayout := LawfulBuffer.layout fsm.buffer
    have hspace : fsm.spaceLen = Buffer.availableSpace fsm.buffer := rfl
    rw [hfed, hcap.1, hcap.2] at hlayout
    unfold defaultBufSize at hlayout
    rw [metadataPreludeLen_eq] at hshort hret
    refine Or.inl ⟨Or.inl hshort, _, fsm, hret, h, by omega, by omega,
      Or.inl ⟨hstate, ?_⟩⟩
    rw [metadataPreludeLen_eq]
    omega
  rw [Nat.not_lt] at hshort
  by_cases haccept : exists version length, AcceptsPrelude fsm.upgradePolicy
      (Buffer.data fsm.buffer) version length
  swap
  · obtain ⟨e, version, hret⟩ := process_prelude_rejects (D := D) hstate
      hshort (fun v l hv => haccept ⟨v, l, hv⟩)
    rw [h.holds.upgradePolicy, hfed] at haccept
    rw [hfed] at hshort
    refine Or.inr ⟨?_, Or.inl ⟨e, _, hret⟩, fun _ => ⟨e, _, hret⟩⟩
    rintro (hlt | ⟨v, l, hv, _⟩)
    · omega
    · exact haccept ⟨v, l, hv⟩
  obtain ⟨version, length, haccept⟩ := haccept
  obtain ⟨fsm', hdone, hprocess⟩ :=
    process_prelude_accepts (D := D) hstate haccept
  have hreading := h.preludeDone hstate hdone haccept
  have hdata := hdone.data_eq
  rw [hfed] at hdata
  rw [h.holds.upgradePolicy, hfed] at haccept
  rw [hprocess]
  rcases hreading.processLoop_metadata (D := D) hdone.state
    hdone.inputDbnVersion haccept hdata 2 with
    ⟨hlt, n, hret, hasks⟩ | ⟨hle, hfinal⟩
  · exact Or.inl ⟨Or.inr ⟨version, length, haccept, hlt⟩, n, fsm', hret, hasks⟩
  · exact Or.inr ⟨haccept.not_incomplete hle, hfinal,
      fun hno => absurd haccept (hno version length)⟩

end DbnFsm
end Dbn
