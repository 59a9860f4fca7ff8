import Dbn.Decode.Runs
import Dbn.Decode.WellFormedRecords

/-!
# The record that was decoded last

`last_record` tells from the deferred `consume` whether the last decoding call
was a `process` that returned a record.  A bulk call is told apart by the bytes
that it wrote to the compatibility buffer, so one that wrote none of them looks
like a `process`.
-/

namespace Dbn
namespace DbnFsm

open Lib

variable {B D : Type} [Buffer B] [CalendarDate D]

/-- The call decodes. -/
def Action.decodes : Action D -> Bool
  | .process _ => true
  | .processMultiple _ _ => true
  | _ => false

/-- The most recent decoding call, with the machine that it was made on. -/
def lastDecoding (history : List (DbnFsm B × Action D)) :
    Option (DbnFsm B × Action D) :=
  history.find? (fun p => p.2.decodes)

/--
The last record is the one that the most recent decoding call, a `process`, has
returned, and it is all there.
-/
def LastRecordSound (history : List (DbnFsm B × Action D)) (fsm : DbnFsm B) :
    Prop :=
  forall r, fsm.lastRecord = some r -> CompleteRecord r.bytes ∧
    exists before version,
      lastDecoding history = some (before, .process (.record ())) ∧
        before.nextItem = .record r.asRef version

/-- Complete records at the front that are handed out as they are. -/
inductive PlainRecords (policy : VersionUpgradePolicy) (version : Option Nat)
    (start : List UInt8) : Nat -> List UInt8 -> Prop where
  | nil : PlainRecords policy version start 0 start
  | snoc {k : Nat} {bytes : List UInt8}
      (before : PlainRecords policy version start k bytes)
      (complete : CompleteRecord bytes)
      (plain : (selectConversion version policy bytes).1 = none) :
      PlainRecords policy version start (k + 1)
        (bytes.drop (recordSize bytes))

/-- A record that is upgraded, and whose new form fits the space. -/
def UpgradesInto (policy : VersionUpgradePolicy) (tsOut : Bool)
    (version : Option Nat) (space : Nat) (bytes : List UInt8) : Prop :=
  CompleteRecord bytes ∧ exists c,
    (selectConversion version policy bytes).1 = some c ∧
    c.target.size + tsOutLen tsOut < space

/--
After records that are handed out as they are, and before the limit, there is a
record that is upgraded into the compatibility buffer or one with an impossible
length.
-/
def BulkWrites (fsm : DbnFsm B) (buf : RecRefBuf) : Prop :=
  exists k rest,
    PlainRecords fsm.upgradePolicy fsm.inputDbnVersion fsm.data k rest ∧
    buf.hasCapacity k ∧
    (UpgradesInto fsm.upgradePolicy fsm.tsOut fsm.inputDbnVersion
        fsm.compatSpace rest ∨
      rest ≠ [] ∧ recordSize rest < headerLen)

/-- A bulk call over records writes some of them. -/
def Action.Writes (fsm : DbnFsm B) : Action D -> Prop
  | .processMultiple buf _ => fsm.RecordPhase -> fsm.BulkWrites buf
  | _ => True

/-!
## Calls that do not decode
-/

/-- The last record of `fsm'` is that of `fsm`, if there is one. -/
def KeepsLast (fsm fsm' : DbnFsm B) : Prop :=
  forall r', fsm'.lastRecord = some r' ->
    exists r more, fsm.lastRecord = some r ∧ r' = ⟨r.bytes ++ more⟩

section Keeps

variable {fsm fsm' : DbnFsm B}

theorem KeepsLast.of_none (h : fsm'.lastRecord = none) :
    fsm.KeepsLast fsm' := by
  intro r' hr'
  rw [h] at hr'
  cases hr'

theorem KeepsLast.of_eq (h : fsm'.lastRecord = fsm.lastRecord) :
    fsm.KeepsLast fsm' := by
  intro r' hr'
  rw [h] at hr'
  refine ⟨r', [], hr', ?_⟩
  rw [List.append_nil]

theorem KeepsLast.trans {fsm'' : DbnFsm B} (h : fsm.KeepsLast fsm')
    (h' : fsm'.KeepsLast fsm'') : fsm.KeepsLast fsm'' := by
  intro r'' hr''
  rcases h' r'' hr'' with ⟨r', more', hr', rfl⟩
  rcases h r' hr' with ⟨r, more, hr, rfl⟩
  refine ⟨r, more ++ more', hr, ?_⟩
  rw [List.append_assoc]

theorem keepsLast_with_buffer {buffer : B} (more : List UInt8)
    (hdata : Buffer.data buffer = Buffer.data fsm.buffer ++ more) :
    fsm.KeepsLast { fsm with buffer := buffer } := by
  intro r' hr'
  unfold lastRecord at hr' ⊢
  dsimp only at hr'
  split at hr'
  · cases hr'
  · cases hr'
  · cases hr'
  · split_ifs at hr' ⊢ with hfill hcompat
    · cases hr'
      refine ⟨_, [], rfl, ?_⟩
      rw [List.append_nil]
    · cases hr'
      refine ⟨_, more, rfl, ?_⟩
      rw [hdata]

theorem lastRecord_eq_none_of_state
    (h : forall read compat compatFill expandCompat,
      fsm.state ≠ .consume read compat compatFill expandCompat) :
    fsm.lastRecord = none := by
  unfold lastRecord
  split
  · rfl
  · rfl
  · rfl
  · next hstate => exact absurd hstate (h _ _ _ _)

theorem state_settle_ne (fsm : DbnFsm B) (read compat compatFill : Nat)
    (expandCompat : Bool) :
    fsm.settle.state ≠ .consume read compat compatFill expandCompat := by
  intro hcons
  unfold settle at hcons
  split at hcons
  · simp at hcons
  · next hstate => exact hstate _ _ _ _ hcons

theorem lastRecord_settle (fsm : DbnFsm B) : fsm.settle.lastRecord = none :=
  lastRecord_eq_none_of_state (state_settle_ne fsm)

theorem keepsLast_skip (nbytes : Nat) : fsm.KeepsLast (fsm.skip nbytes) :=
  KeepsLast.of_none (lastRecord_eq_none_of_state (state_settle_ne fsm))

/-- Bytes after a complete record are not part of it. -/
theorem asRef_append {bytes : List UInt8} (h : CompleteRecord bytes)
    (more : List UInt8) :
    RecordRef.asRef ⟨bytes ++ more⟩ = RecordRef.asRef ⟨bytes⟩ := by
  unfold RecordRef.asRef
  rw [recordSize_append h.ne_nil, List.take_append_of_le_length h.body]

theorem completeRecord_append {bytes : List UInt8} (h : CompleteRecord bytes)
    (more : List UInt8) : CompleteRecord (bytes ++ more) := by
  have hbody := h.body
  constructor
  · rw [recordSize_append h.ne_nil]
    exact h.header
  · rw [recordSize_append h.ne_nil, List.length_append]
    omega

omit [CalendarDate D] in
/-- A call that does not decode leaves the last record or drops it. -/
theorem KeepsLast.sound {history : List (DbnFsm B × Action D)} {e : Action D}
    (h : fsm.KeepsLast fsm') (hsound : LastRecordSound history fsm)
    (he : e.decodes = false) :
    LastRecordSound ((fsm, e) :: history) fsm' := by
  intro r' hr'
  rcases h r' hr' with ⟨r, more, hr, rfl⟩
  rcases hsound r hr with ⟨hcomplete, before, version, hlast, hitem⟩
  refine ⟨completeRecord_append hcomplete more, before, version, ?_, ?_⟩
  · unfold lastDecoding
    rw [List.find?_cons_of_neg (by simp [he])]
    exact hlast
  · rw [asRef_append hcomplete more]
    exact hitem

variable [LawfulBuffer B]

theorem keepsLast_writeSpace (bytes : List UInt8) :
    fsm.KeepsLast (fsm.writeSpace bytes) := by
  apply keepsLast_with_buffer []
  rw [LawfulBuffer.data_writeSpace, List.append_nil]

theorem keepsLast_fill (nbytes : Nat) :
    fsm.KeepsLast (fsm.fill nbytes) :=
  keepsLast_with_buffer _ (LawfulBuffer.data_fill _ _)

theorem keepsLast_reserve (len : Nat) : fsm.KeepsLast (fsm.reserve len) := by
  unfold reserve
  dsimp only
  split_ifs
  · apply KeepsLast.trans (KeepsLast.of_none (lastRecord_settle fsm))
    apply keepsLast_with_buffer []
    rw [LawfulBuffer.data_grow, List.append_nil]
  · exact KeepsLast.of_none (lastRecord_settle fsm)
  · exact KeepsLast.of_eq rfl

theorem keepsLast_writeAll (bytes : List UInt8) :
    fsm.KeepsLast (fsm.writeAll bytes) :=
  ((keepsLast_reserve bytes.length).trans (keepsLast_writeSpace bytes)).trans
    (keepsLast_fill bytes.length)

theorem keepsLast_growCompat (size : Nat) :
    fsm.KeepsLast (fsm.growCompat size) := by
  apply KeepsLast.of_eq
  unfold growCompat lastRecord
  rw [LawfulBuffer.data_grow]

end Keeps

/-!
## Single calls
-/

section Process

variable {fsm fsm' : DbnFsm B}

/-- The image of a record has a header. -/
theorem complete_image {policy : VersionUpgradePolicy} {tsOut : Bool}
    {version version' : Option Nat} {bytes image : List UInt8}
    (h : next policy tsOut version bytes = .record image version') :
    CompleteRecord image := by
  have hsize := recordSize_image h
  have hcomplete := complete_of_next_record h
  constructor
  · rw [hsize]
    rw [next_of_complete hcomplete] at h
    unfold nextImage at h
    split at h
    · cases h
      rw [List.length_take, Nat.min_eq_left hcomplete.body]
      exact hcomplete.header
    · next c v _ =>
        split_ifs at h
        cases h
        rw [Conversion.length_upgraded]
        exact Nat.le_trans c.le_target_size (Nat.le_add_right _ _)
  · rw [hsize]

/-- The record that was handed out can be read. -/
theorem HandsOut.exists_lastRecord {image : List UInt8}
    {version : Option Nat} (h : fsm.HandsOut image version fsm')
    (hitem : next fsm.upgradePolicy fsm.tsOut fsm.inputDbnVersion
      (Buffer.data fsm.buffer) = .record image version) :
    exists r, fsm'.lastRecord = some r ∧ r.asRef = image ∧
      CompleteRecord r.bytes := by
  have hlast := h.lastBytes_eq hitem
  rcases Option.map_eq_some_iff.mp hlast with ⟨r, hr, hasRef⟩
  refine ⟨r, hr, hasRef, ?_⟩
  have hcomplete := complete_of_next_record hitem
  unfold lastRecord at hr
  rw [h.state, h.buffer] at hr
  dsimp only at hr
  rw [if_neg (Nat.lt_irrefl 0)] at hr
  split_ifs at hr with hcompat
  · cases hr
    rcases h.image with himage | ⟨hnil, _⟩
    · rw [himage]
      exact complete_image hitem
    · rw [hnil] at hcompat
      exact absurd hcompat (Nat.lt_irrefl 0)
  · cases hr
    exact hcomplete

/-- Calls outside of the record phase do not return records. -/
theorem processLoop_metadata_lastRecord {length fuel : Nat}
    {res : ProcessResult D Unit} (hinv : fsm.Inv)
    (hstate : fsm.state = .metadata length)
    (call : fsm.processLoop (fuel + 1) = .ret (res, fsm')) :
    res ≠ .record () ∧ fsm'.lastRecord = none := by
  have hnone : fsm.lastRecord = none := by
    apply lastRecord_eq_none_of_state
    rw [hstate]
    exact fun _ _ _ _ => nofun
  unfold Inv at hinv
  rw [hstate] at hinv
  rcases Option.ne_none_iff_exists'.mp hinv.2.2 with ⟨version, hversion⟩
  by_cases hshort : (Buffer.data fsm.buffer).length < length
  · rw [processLoop_metadata_short hstate hshort] at call
    cases call
    exact ⟨nofun, hnone⟩
  · rw [processLoop_metadata hstate hversion (Nat.not_lt.mp hshort)] at call
    split at call
    · cases call
      exact ⟨nofun, lastRecord_eq_none_of_state fun _ _ _ _ => nofun⟩
    · cases call
      exact ⟨nofun, hnone⟩
    · cases call

variable [LawfulBuffer B]

theorem process_prelude_lastRecord {res : ProcessResult D Unit}
    (hinv : fsm.Inv) (hstate : fsm.state = .prelude)
    (call : fsm.process = .ret (res, fsm')) :
    res ≠ .record () ∧ fsm'.lastRecord = none := by
  have hprelude : forall version,
      { fsm with inputDbnVersion := version }.lastRecord = none := by
    intro version
    apply lastRecord_eq_none_of_state
    dsimp only
    rw [hstate]
    exact fun _ _ _ _ => nofun
  by_cases hshort : (Buffer.data fsm.buffer).length < metadataPreludeLen
  · rw [process_prelude_short hstate hshort] at call
    cases call
    exact ⟨nofun, hprelude fsm.inputDbnVersion⟩
  by_cases haccept : exists version length, AcceptsPrelude
      fsm.upgradePolicy (Buffer.data fsm.buffer) version length
  · rcases haccept with ⟨version, length, haccept⟩
    rcases process_prelude_accepts (D := D) hstate haccept with
      ⟨fsm1, hdone, hprocess⟩
    rw [hprocess] at call
    exact processLoop_metadata_lastRecord
      (hdone.holds hinv hstate haccept).inv hdone.state call
  · rcases process_prelude_rejects (D := D) hstate (Nat.not_lt.mp hshort)
      (fun v l hv => haccept ⟨v, l, hv⟩) with ⟨e, version, hprocess⟩
    rw [hprocess] at call
    cases call
    exact ⟨nofun, hprelude version⟩

/-- What a call says about the last record. -/
theorem process_lastRecord {res : ProcessResult D Unit} (hinv : fsm.Inv)
    (call : fsm.process = .ret (res, fsm')) :
    (res ≠ .record () ∧ fsm'.lastRecord = none) ∨
    (res = .record () ∧ fsm.RecordPhase ∧ exists r version,
      fsm'.lastRecord = some r ∧ fsm.nextItem = .record r.asRef version ∧
        CompleteRecord r.bytes) := by
  by_cases hphase : fsm.RecordPhase
  · cases hitem : fsm.nextItem with
    | needMore n =>
        rw [process_needMore hphase hitem] at call
        cases call
        exact Or.inl ⟨nofun, lastRecord_settle fsm⟩
    | invalid e =>
        rw [process_invalid hphase hitem] at call
        cases call
        exact Or.inl ⟨nofun, lastRecord_settle fsm⟩
    | truncated =>
        rw [process_truncated hinv hphase hitem] at call
        cases call
    | record image version =>
        rcases process_record (D := D) hinv hphase hitem with
          ⟨fsm1, hret, hout⟩
        rw [hret] at call
        cases call
        have hsettled : next fsm.settle.upgradePolicy fsm.settle.tsOut
            fsm.settle.inputDbnVersion (Buffer.data fsm.settle.buffer) =
            .record image version := by
          rw [data_buffer_settle hphase, settle_upgradePolicy, settle_tsOut,
            settle_inputDbnVersion]
          exact hitem
        rcases hout.exists_lastRecord hsettled with ⟨r, hr, rfl, hcomplete⟩
        exact Or.inr ⟨rfl, hphase, r, version, hr, rfl, hcomplete⟩
  · left
    cases hstate : fsm.state with
    | prelude => exact process_prelude_lastRecord hinv hstate call
    | metadata length => exact processLoop_metadata_lastRecord hinv hstate call
    | record => exact absurd (recordPhase_iff.mpr (Or.inl hstate)) hphase
    | consume read compat compatFill expandCompat =>
        exact absurd (recordPhase_iff.mpr (Or.inr ⟨_, _, _, _, hstate⟩)) hphase

end Process

/-!
## Bulk calls
-/

section Bulk

variable {policy : VersionUpgradePolicy} {tsOut : Bool} {buf : RecRefBuf}
  {space : Nat} {start s s' : BulkState}

theorem BulkReaches.trans (h : BulkReaches policy tsOut buf space start s)
    (h' : BulkReaches policy tsOut buf space s s') :
    BulkReaches policy tsOut buf space start s' := by
  induction h' with
  | start => exact h
  | step _ hnext ih => exact ih.step hnext

theorem BulkReaches.le_written
    (h : BulkReaches policy tsOut buf space start s) :
    start.written ≤ s.written := by
  induction h with
  | start => exact Nat.le_refl _
  | step _ hnext ih =>
      rcases bulkNext_record hnext with ⟨_, _, _, _, _, hcase⟩
      rcases hcase with ⟨_, _, hwritten⟩ | ⟨c, _, _, _, _, hwritten⟩
      · rw [hwritten]
        exact ih
      · omega

theorem RecRefBuf.hasCapacity_of_le {j k : Nat}
    (h : buf.hasCapacity k = true) (hle : j ≤ k) :
    buf.hasCapacity j = true := by
  unfold RecRefBuf.hasCapacity at h ⊢
  split at h
  · rfl
  · rw [decide_eq_true_iff] at h ⊢
    omega
  · rw [decide_eq_true_iff] at h ⊢
    omega

/-- Where nothing has been written, the records were plain. -/
theorem BulkReaches.plainRecords
    (h : BulkReaches policy tsOut buf space start s)
    (himages : start.images = []) (hwritten : s.written = 0) :
    PlainRecords policy start.version start.rest s.images.length s.rest ∧
      s.version = start.version := by
  induction h with
  | start =>
      rw [himages]
      exact ⟨PlainRecords.nil, rfl⟩
  | step before hnext ih =>
      rcases bulkNext_record hnext with
        ⟨_, hcomplete, hrest, image, hsnoc, hcase⟩
      rcases hcase with ⟨hselect, _, hsame⟩ | ⟨c, _, _, _, _, hmore⟩
      · rcases ih (hsame.symm.trans hwritten) with ⟨hplain, hversion⟩
        rw [hversion] at hselect
        have hlen : forall {xs : List (List UInt8)},
            (xs ++ [image]).length = xs.length + 1 := by simp
        rw [hrest, hsnoc, hlen]
        constructor
        · exact hplain.snoc hcomplete (congrArg Prod.fst hselect)
        · have hlearned := selectConversion_version (congrArg Prod.fst hselect)
          rw [hselect] at hlearned
          exact hlearned
      · have hpos := c.le_target_size
        unfold RecordStruct.headerLen at hpos
        omega

/-- Plain records are visited up to the limit. -/
theorem PlainRecords.reaches {k : Nat} {rest : List UInt8}
    (h : PlainRecords policy start.version start.rest k rest)
    (hstart : start.images = []) (hcap : buf.hasCapacity k = true) :
    exists s, BulkReaches policy tsOut buf space start s ∧ s.rest = rest ∧
      s.version = start.version ∧ s.written = start.written ∧
      s.images.length = k := by
  induction h with
  | nil =>
      refine ⟨start, BulkReaches.start, rfl, rfl, rfl, ?_⟩
      rw [hstart, List.length_nil]
  | @snoc k bytes _ complete plain ih =>
      rcases ih (RecRefBuf.hasCapacity_of_le hcap (Nat.le_succ k)) with
        ⟨s, hreaches, rfl, hversion, hwritten, hlen⟩
      have hcap' : buf.hasCapacity s.images.length = true := by
        rw [hlen]
        exact RecRefBuf.hasCapacity_of_le hcap (Nat.le_succ k)
      have hsame := selectConversion_version plain
      rcases hpair : selectConversion start.version policy s.rest with ⟨c, v⟩
      rw [hpair] at plain hsame
      dsimp only at plain hsame
      have hnext : bulkNext policy tsOut buf space s = _ :=
        bulkNext_complete hcap' complete
      rw [hversion, hpair, plain] at hnext
      refine ⟨_, hreaches.step hnext, rfl, hsame, hwritten, ?_⟩
      simp [hlen]

end Bulk

/-!
## The bulk call
-/

section BulkCall

variable {fsm fsm' : DbnFsm B} {buf : RecRefBuf} {s : BulkState}

/-- Before the first bytes are written, the records were plain. -/
theorem BulkVisits.bulkWrites (h : fsm.BulkVisits buf s)
    (hpos : 0 < s.written) : fsm.BulkWrites buf := by
  unfold BulkVisits at h
  induction h with
  | start => exact absurd hpos (Nat.lt_irrefl 0)
  | @step s s' before hnext ih =>
      by_cases hzero : s.written = 0
      · rcases before.plainRecords rfl hzero with ⟨hplain, hversion⟩
        rcases bulkNext_record hnext with ⟨hcap, hcomplete, _, _, _, hcase⟩
        refine ⟨s.images.length, s.rest, hplain, hcap, Or.inl ⟨hcomplete, ?_⟩⟩
        rcases hcase with ⟨_, _, hsame⟩ | ⟨c, hselect, _, hspace, _⟩
        · rw [hsame, hzero] at hpos
          exact absurd hpos (Nat.lt_irrefl 0)
        · rw [hzero, Nat.sub_zero] at hspace
          rw [hversion] at hselect
          exact ⟨c, congrArg Prod.fst hselect, hspace⟩
      · exact ih (Nat.pos_of_ne_zero hzero)

theorem BulkVisits.bulkWrites_of_invalid {e : Error}
    (h : fsm.BulkVisits buf s) (hitem : fsm.bulkItem buf s = .invalid e) :
    fsm.BulkWrites buf := by
  rcases bulkItem_invalid_iff.mp hitem with ⟨hcap, hne, hsize, _⟩
  by_cases hzero : s.written = 0
  · rcases BulkReaches.plainRecords h rfl hzero with ⟨hplain, _⟩
    exact ⟨s.images.length, s.rest, hplain, hcap, Or.inr ⟨hne, hsize⟩⟩
  · exact h.bulkWrites (Nat.pos_of_ne_zero hzero)

/-- The loop goes on to an end, and what is written stays written. -/
theorem BulkVisits.exists_end (h : fsm.BulkVisits buf s) :
    exists t, fsm.BulkVisits buf t ∧
      (forall t', fsm.bulkItem buf t ≠ .record t') ∧
      s.written ≤ t.written := by
  have hend : exists t, BulkReaches fsm.upgradePolicy fsm.tsOut buf
      fsm.compatSpace s t ∧ forall t', fsm.bulkItem buf t ≠ .record t' :=
    exists_reaches_end s BulkReaches.start
  rcases hend with ⟨t, hreach, hend⟩
  exact ⟨t, BulkReaches.trans h hreach, hend, hreach.le_written⟩

/-- A call that writes gets to a state that shows it, unless it panics. -/
theorem BulkWrites.exists_end (h : fsm.BulkWrites buf) :
    exists s, fsm.BulkVisits buf s ∧
      (forall s', fsm.bulkItem buf s ≠ .record s') ∧
      (0 < s.written ∨ (exists e, fsm.bulkItem buf s = .invalid e) ∨
        fsm.bulkItem buf s = .truncated) := by
  rcases h with ⟨k, rest, hplain, hcap, hcase⟩
  have hreach : exists s, BulkReaches fsm.upgradePolicy fsm.tsOut buf
      fsm.compatSpace fsm.bulkStart s ∧ s.rest = rest ∧
      s.version = fsm.inputDbnVersion ∧ s.written = 0 ∧ s.images.length = k :=
    PlainRecords.reaches hplain rfl hcap
  rcases hreach with ⟨s, hvisit, rfl, hversion, hwritten, hlen⟩
  rw [← hlen] at hcap
  rcases hcase with ⟨hcomplete, c, hselect, hspace⟩ | ⟨hne, hsize⟩
  · rcases hpair : selectConversion fsm.inputDbnVersion fsm.upgradePolicy
      s.rest with ⟨found, v⟩
    rw [hpair] at hselect
    cases hselect
    have hitem : fsm.bulkItem buf s = _ := bulkNext_complete hcap hcomplete
    rw [hversion, hpair] at hitem
    dsimp only at hitem
    by_cases hshort : recordSize s.rest < requiredSize c fsm.tsOut
    · rw [if_pos hshort] at hitem
      refine ⟨s, hvisit, ?_, Or.inr (Or.inr hitem)⟩
      rw [hitem]
      exact fun _ => nofun
    · rw [if_neg hshort, hwritten, Nat.sub_zero,
        if_neg (Nat.not_le.mpr hspace)] at hitem
      -- the record is written, and the loop goes on from there
      have hpos := (Conversion.length_upgraded_le c fsm.tsOut
        (s.rest.take (requiredSize c fsm.tsOut))).1
      have hnext : fsm.BulkVisits buf _ := BulkReaches.step hvisit hitem
      rcases hnext.exists_end with ⟨t, hvisit', hend, hle⟩
      refine ⟨t, hvisit', hend, Or.inl ?_⟩
      dsimp only at hle
      omega
  · have hitem : fsm.bulkItem buf s =
        .invalid (invalidLength (recordSize s.rest)) :=
      bulkItem_invalid_iff.mpr ⟨hcap, hne, hsize, rfl⟩
    refine ⟨s, hvisit, ?_, Or.inr (Or.inl ⟨_, hitem⟩)⟩
    rw [hitem]
    exact fun _ => nofun

variable [LawfulBuffer B]

/-- What the end of the loop of a bulk call says about the last record. -/
theorem lastRecord_of_end {res : ProcessResult D Nat} {recs : List RecordRef}
    (hinv : fsm.Inv) (hphase : fsm.RecordPhase)
    (hvisit : fsm.BulkVisits buf s)
    (hend : forall s', fsm.bulkItem buf s ≠ .record s')
    (call : fsm.processMultiple buf = .ret (res, recs, fsm')) :
    fsm.bulkItem buf s ≠ .truncated ∧
      (fsm'.lastRecord = none <->
        0 < s.written ∨ exists e, fsm.bulkItem buf s = .invalid e) := by
  have hstate := state_settle hphase
  rcases exists_bulkLoop_end (inv_settle hinv) hstate
    (bulkVisits_settle.mpr hvisit) with ⟨acc, fuel, hacc, hloop⟩
  have hround := bulkRound_answers buf hacc
  have hitem : bulkNext fsm.settle.upgradePolicy fsm.settle.tsOut buf
      (Buffer.availableSpace fsm.settle.compatBuffer) s =
      fsm.bulkItem buf s := by
    rw [← compatSpace_eq hstate]
    exact bulkItem_settle
  rw [hitem] at hround
  rw [processMultiple_eq_settle hphase] at call
  unfold processMultipleRecords at call
  dsimp only at call
  rw [hloop, bulkLoop] at call
  -- a call that stops leaves the number of bytes it wrote in the state
  have hstopped : forall {m : DbnFsm B} {read : Nat} {expandCompat : Bool},
      m.state = .consume read acc.written.length acc.written.length
        expandCompat -> (m.lastRecord = none <-> 0 < s.written) := by
    intro m read expandCompat hm
    unfold lastRecord
    rw [hm, hacc.written]
    dsimp only
    by_cases hpos : 0 < s.written
    · rw [if_pos hpos]
      exact iff_of_true rfl hpos
    · rw [if_neg hpos, if_neg hpos]
      exact iff_of_false (Option.some_ne_none _) hpos
  cases hcase : fsm.bulkItem buf s with
  | record s' => exact absurd hcase (hend s')
  | stop =>
      rw [hcase] at hround
      have hdone : fsm.settle.bulkRound buf acc = _ := hround
      rw [hdone] at call
      cases call
      refine ⟨by simp, ?_⟩
      rw [hstopped rfl]
      simp
  | invalid e =>
      rw [hcase] at hround
      have hdone : fsm.settle.bulkRound buf acc = _ := hround
      rw [hdone] at call
      cases call
      refine ⟨by simp, iff_of_true ?_ (Or.inr ⟨e, rfl⟩)⟩
      exact lastRecord_eq_none_of_state (state_settle_ne fsm)
  | truncated =>
      rw [hcase] at hround
      have hdone : fsm.settle.bulkRound buf acc = _ := hround
      rw [hdone] at call
      cases call
  | noSpace v =>
      rw [hcase] at hround
      have hdone : fsm.settle.bulkRound buf acc = _ := hround
      rw [hdone] at call
      cases call
      refine ⟨by simp, ?_⟩
      rw [hstopped rfl]
      simp

/-- A bulk call over records leaves no last record exactly if it writes. -/
theorem lastRecord_bulk_iff {res : ProcessResult D Nat}
    {recs : List RecordRef} (hinv : fsm.Inv) (hphase : fsm.RecordPhase)
    (call : fsm.processMultiple buf = .ret (res, recs, fsm')) :
    fsm'.lastRecord = none <-> fsm.BulkWrites buf := by
  constructor
  · intro hnone
    rcases exists_bulkVisits_end fsm buf with ⟨s, hvisit, hend⟩
    have hlast := lastRecord_of_end hinv hphase hvisit hend call
    rcases hlast.2.mp hnone with hpos | ⟨e, hitem⟩
    · exact hvisit.bulkWrites hpos
    · exact hvisit.bulkWrites_of_invalid hitem
  · intro hwrites
    rcases hwrites.exists_end with ⟨s, hvisit, hend, hcase⟩
    have hlast := lastRecord_of_end hinv hphase hvisit hend call
    rcases hcase with hpos | hinvalid | htruncated
    · exact hlast.2.mpr (Or.inl hpos)
    · exact hlast.2.mpr (Or.inr hinvalid)
    · exact absurd htruncated hlast.1

end BulkCall

/-!
## Runs
-/

section Runs

variable {fsm fsm' : DbnFsm B} {history : List (DbnFsm B × Action D)}

omit [CalendarDate D] in
/-- After a bulk call there must not be a last record. -/
theorem lastRecordSound_bulk {buf : RecRefBuf} {res : ProcessResult D Nat} :
    LastRecordSound ((fsm, .processMultiple buf res) :: history) fsm' <->
      fsm'.lastRecord = none := by
  constructor
  · intro hsound
    rw [Option.eq_none_iff_forall_ne_some]
    intro r hr
    rcases hsound r hr with ⟨_, before, version, hlast, _⟩
    unfold lastDecoding at hlast
    rw [List.find?_cons_of_pos rfl] at hlast
    cases hlast
  · intro hnone r hr
    rw [hnone] at hr
    cases hr

theorem Fresh.lastRecord (h : fsm.Fresh) : fsm.lastRecord = none := by
  rcases h.exists_build with ⟨b, hb⟩
  cases DbnFsmBuilder.build_eq_ok hb
  apply lastRecord_eq_none_of_state
  intro read compat compatFill expandCompat hcons
  dsimp only at hcons
  split_ifs at hcons

variable [LawfulBuffer B]

/--
A call keeps the last record sound exactly if it is not a bulk call that hands
out its records as they are.
-/
theorem Step.lastRecordSound_iff {e : Action D} (hinv : fsm.Inv)
    (hsound : LastRecordSound history fsm) (h : Step fsm e fsm') :
    LastRecordSound ((fsm, e) :: history) fsm' <-> e.Writes fsm := by
  cases h with
  | setInputDbnVersion call =>
      apply iff_of_true _ trivial
      apply KeepsLast.sound _ hsound rfl
      rcases setInputDbnVersionCall_cases call with ⟨_, _, _, rfl⟩ | ⟨_, rfl⟩
      · exact KeepsLast.of_eq rfl
      · exact KeepsLast.of_eq rfl
  | setUpgradePolicy call =>
      apply iff_of_true _ trivial
      apply KeepsLast.sound _ hsound rfl
      rcases setUpgradePolicyCall_cases call with ⟨_, _, rfl⟩ | ⟨_, rfl, _⟩
      · exact KeepsLast.of_eq rfl
      · exact KeepsLast.of_eq rfl
  | setTsOut tsOut =>
      exact iff_of_true ((KeepsLast.of_eq rfl).sound hsound rfl) trivial
  | writeSpace bytes =>
      exact iff_of_true ((keepsLast_writeSpace bytes).sound hsound rfl) trivial
  | fill nbytes =>
      exact iff_of_true ((keepsLast_fill nbytes).sound hsound rfl) trivial
  | writeAll bytes =>
      exact iff_of_true ((keepsLast_writeAll bytes).sound hsound rfl) trivial
  | growCompat size =>
      exact iff_of_true ((keepsLast_growCompat size).sound hsound rfl) trivial
  | skip nbytes =>
      exact iff_of_true ((keepsLast_skip nbytes).sound hsound rfl) trivial
  | reset =>
      exact iff_of_true ((KeepsLast.of_none rfl).sound hsound rfl) trivial
  | process call =>
      apply iff_of_true _ trivial
      intro r hr
      rcases process_lastRecord hinv call with
        ⟨_, hnone⟩ | ⟨rfl, _, r', version, hr', hitem, hcomplete⟩
      · rw [hnone] at hr
        cases hr
      · rw [hr'] at hr
        cases hr
        exact ⟨hcomplete, fsm, version, List.find?_cons_of_pos rfl, hitem⟩
  | processMultiple call =>
      rw [lastRecordSound_bulk]
      by_cases hphase : fsm.RecordPhase
      · rw [lastRecord_bulk_iff hinv hphase call]
        exact ⟨fun hwrites _ => hwrites, fun hwrites => hwrites hphase⟩
      · rcases process_of_processMultiple hphase call with ⟨res, hprocess⟩
        apply iff_of_true _ (fun h => absurd h hphase)
        rcases process_lastRecord hinv hprocess with
          ⟨_, hnone⟩ | ⟨_, hrecord, _⟩
        · exact hnone
        · exact absurd hrecord hphase

/--
In a run the last record is always the record that was just decoded exactly if
each bulk call over records writes to the compatibility buffer or fails.
-/
theorem runs_lastRecordSound_iff (run : Runs history fsm) :
    Run.Always LastRecordSound history fsm <->
      forall p, p ∈ history -> p.2.Writes p.1 := by
  apply Run.always_iff (C := fun m e => e.Writes m) _ _ run
  · intro m hm r hr
    rw [hm.lastRecord] at hr
    cases hr
  · intro before m e m' hrun hsound hstep
    exact hstep.lastRecordSound_iff (Runs.reachable hrun).inv hsound

end Runs

/-- A machine for version 1 records with room for upgraded records. -/
def upgrading : DbnFsm VecBuffer where
  inputDbnVersion := some 1
  upgradePolicy := .upgradeToV3
  tsOut := false
  state := .record
  buffer := Buffer.withCapacity defaultBufSize
  compatBuffer := Buffer.withCapacity 1024

theorem fresh_upgrading : upgrading.Fresh :=
  Or.inl ⟨{ fragmentBuilder (some ⟨1, by decide⟩) .upgradeToV3 with
    compatSize := some 1024 }, rfl⟩

set_option maxRecDepth 4000 in
theorem processMultiple_upgrading :
    exists recs fsm',
      (upgrading.writeAll heartbeatV1).processMultiple (D := GregorianDate)
        (.all none) = .ret (.record 1, recs, fsm') :=
  ⟨_, _, rfl⟩

/-- A bulk call that upgrades its record. -/
theorem runs_lastRecordSound_iff_heartbeat :
    exists fsm : DbnFsm VecBuffer, Run.Always (E := Action GregorianDate)
      LastRecordSound
      [(upgrading.writeAll heartbeatV1, .processMultiple (.all none) (.record 1)),
        (upgrading, .writeAll heartbeatV1)] fsm := by
  rcases processMultiple_upgrading with ⟨recs, fsm, call⟩
  have run := Run.step (Run.step (Run.start fresh_upgrading)
    (Step.writeAll upgrading heartbeatV1)) (Step.processMultiple call)
  refine ⟨fsm, (runs_lastRecordSound_iff run).mpr ?_⟩
  intro p hp
  rcases List.mem_pair.mp hp with rfl | rfl
  · intro _
    refine ⟨0, _, PlainRecords.nil, rfl, Or.inl ⟨?_, ?_⟩⟩
    · decide
    · exact ⟨.systemV1ToV2, rfl, by decide⟩
  · trivial

/-- A bulk call on an empty buffer leaves an empty last record. -/
theorem not_lastRecordSound_empty :
    exists fsm : DbnFsm VecBuffer,
      Runs (D := GregorianDate)
        [(upgrading, .processMultiple (.all none) (.record 0))] fsm ∧
      fsm.lastRecord = some ⟨[]⟩ ∧
      ¬ LastRecordSound (D := GregorianDate)
        [(upgrading, .processMultiple (.all none) (.record 0))] fsm := by
  have call : exists fsm', upgrading.processMultiple (D := GregorianDate)
      (.all none) = .ret (.record 0, [], fsm') ∧
      fsm'.lastRecord = some ⟨[]⟩ := ⟨_, rfl, rfl⟩
  rcases call with ⟨fsm, call, hlast⟩
  refine ⟨fsm, Run.step (Run.start fresh_upgrading)
    (Step.processMultiple call), hlast, ?_⟩
  intro hsound
  have hheader := (hsound _ hlast).1.length_le
  rw [headerLen_eq, List.length_nil] at hheader
  omega

end DbnFsm
end Dbn
