import Dbn.Python.TranscoderRuns

/-!
# Transcoding to DBN

With a writer that accepts everything, nothing fails: the output is the
upgraded metadata and the images of the complete records.  Without an upgrade
the output and what the machine still has are the bytes that were written.
-/

namespace Dbn

open Lib
open MetadataEncoder (Accepts AcceptsCstr AcceptsMapping Encodable
  encodedBytes)

variable {D : Type} [CalendarDate D] {policy : VersionUpgradePolicy}

/-!
## Upgraded items
-/

namespace MetadataEncoder

theorem AcceptsCstr.mono {len len' : Nat} {str : Str}
    (h : AcceptsCstr len str) (hle : len ≤ len') : AcceptsCstr len' str :=
  ⟨h.1, Nat.lt_of_lt_of_le h.2 hle⟩

omit [CalendarDate D] in
/-- Metadata of another version with at least as long symbols. -/
theorem Accepts.withLen {m : Metadata D} (h : Accepts m) {version len : Nat}
    (hversion : version ≤ dbnVersion) (hle : m.symbolCstrLen ≤ len) :
    Accepts { m with version := version, symbolCstrLen := len } where
  version_le := hversion
  dataset := h.dataset
  symbols str hstr := AcceptsCstr.mono (h.symbols str hstr) hle
  partialSymbols str hstr := AcceptsCstr.mono (h.partialSymbols str hstr) hle
  notFound str hstr := AcceptsCstr.mono (h.notFound str hstr) hle
  mappings mapping hmapping := by
    have haccepts := h.mappings mapping hmapping
    refine ⟨AcceptsCstr.mono haccepts.1 hle, ?_⟩
    intro interval hinterval
    exact AcceptsCstr.mono (haccepts.2 interval hinterval) hle

/-- Upgraded metadata can be encoded. -/
theorem Encodable.accepts_upgrade {m : Metadata D} (h : Encodable m)
    (policy : VersionUpgradePolicy) : Accepts (m.upgrade policy) := by
  unfold Metadata.upgrade
  split
  · next hversion =>
      have hpos := h.fixed.version_pos
      have hone : m.version = 1 := by omega
      have hlen := h.fixed.cstrLenV1 hone
      cases policy with
      | asIs => exact h.accepts.withLen h.fixed.version_le (by rw [hlen])
      | upgradeToV2 =>
          exact h.accepts.withLen (by decide) (by rw [hlen]; decide)
      | upgradeToV3 =>
          exact h.accepts.withLen (by decide) (by rw [hlen]; decide)
  split
  · exact h.accepts.withLen (by decide) (Nat.le_refl _)
  · exact h.accepts

end MetadataEncoder

namespace ValidStream

theorem recordSize_image (s : ValidStream D policy) {rec : List UInt8}
    (hrec : rec ∈ s.records) :
    recordSize (s.image rec) = (s.image rec).length := by
  unfold image DbnFsm.upgradedImage
  split
  · exact (s.wellFormed rec hrec).size
  · rw [Conversion.recordSize_upgraded, Conversion.length_upgraded]

theorem recordSize_item (s : ValidStream D policy) {bytes : List UInt8}
    (h : .record bytes ∈ s.items) : recordSize bytes = bytes.length := by
  rcases List.mem_append.mp h with hmetadata | hrecord
  · rcases List.mem_map.mp hmetadata with ⟨m, _, heq⟩
    cases heq
  · rcases List.mem_map.mp hrecord with ⟨rec, hrec, heq⟩
    cases heq
    exact s.recordSize_image hrec

theorem accepts_item (s : ValidStream D policy) {m : Metadata D}
    (h : .metadata m ∈ s.items) : Accepts m := by
  rcases List.mem_append.mp h with hmetadata | hrecord
  · rcases List.mem_map.mp hmetadata with ⟨m', hm', heq⟩
    cases heq
    exact (s.encodable m' (Option.mem_toList.mp hm')).1.accepts_upgrade policy
  · rcases List.mem_map.mp hrecord with ⟨rec, _, heq⟩
    cases heq

/-- Without an upgrade the items are the bytes of the stream. -/
theorem flatMap_items_asIs (s : ValidStream D policy)
    (hasIs : policy = .asIs) (j : Nat) (dbn : Item D -> List UInt8)
    (hmetadata : forall m, dbn (.metadata m) = encodedBytes m)
    (hrecord : forall bytes, dbn (.record bytes) = bytes) :
    (s.items.take (s.lead + j)).flatMap dbn = s.bytes.take (s.offset j) := by
  subst hasIs
  have himage : forall rec, s.image rec = rec :=
    DbnFsm.upgradedImage_asIs s.version s.tsOut
  have hhead : (s.metadata.toList.map (fun m =>
      Item.metadata (m.upgrade .asIs))).flatMap dbn = s.head := by
    unfold head
    cases hm : s.metadata with
    | none => rfl
    | some m =>
        have hencodable := (s.encodable m hm).1
        show dbn (.metadata (m.upgrade .asIs)) ++ [] = _
        rw [List.append_nil, hmetadata, DbnFsm.upgrade_asIs
          hencodable.fixed.cstrLenV1 hencodable.fixed.version_pos]
  have hlead : (s.metadata.toList.map (fun m =>
      Item.metadata (m.upgrade .asIs))).length = s.lead := by
    rw [List.length_map]
    rfl
  unfold items bytes offset
  rw [List.take_append, hlead, Nat.add_sub_cancel_left,
    List.take_of_length_le (by rw [hlead]; exact Nat.le_add_right _ _),
    List.flatMap_append, hhead, List.take_length_add_append, ← List.map_take,
    List.flatMap_map]
  congr 1
  simp only [hrecord, himage]
  rw [List.flatMap_id']
  have hsplit : s.records.flatten =
      (s.records.take j).flatten ++ (s.records.drop j).flatten := by
    rw [← List.flatten_append, List.take_append_drop]
  rw [hsplit, List.take_left]

/-- Behind the metadata the machine has the bytes that are not taken. -/
theorem Holding.data_of_lead_le {B : Type} [Buffer B]
    {s : ValidStream D policy} {n k : Nat} {fsm : DbnFsm B}
    (h : s.Holding n k fsm) (hk : s.lead ≤ k) : exists j,
    k = s.lead + j ∧ j ≤ s.records.length ∧ s.offset j ≤ n ∧
      fsm.data = (s.bytes.take n).drop (s.offset j) := by
  cases h with
  | metadata hm le holds =>
      rw [(s.head_of_some hm).2] at hk
      cases hk
  | @records j _ _ hj start le inRecords =>
      exact ⟨j, rfl, hj, start, inRecords.data⟩

end ValidStream

/-!
## The output
-/

namespace Transcoder

open Cli (Encoding)
open Lib.WriteM (mapErr)

variable {B C : Type} [DropCsvWriter (List UInt8) C] [DebugRecord]
  [TimeFormat] [JsonWriter] [LinearOrder D] [DayCalendar D]

def itemDbn : Item D -> List UInt8
  | .metadata m => encodedBytes m
  | .record bytes => bytes

/-- What the action of an item does with the target. -/
def wroteDbn (target : Target (List UInt8) D) :
    Option (Item D) -> Target (List UInt8) D
  | none => target
  | some item =>
      { target with
        output := target.output ++ itemDbn item
        schema :=
          match item with
          | .metadata m => target.schema.or m.schema
          | .record _ => target.schema }

theorem act_dbn {s : ValidStream D policy} {item : Option (Item D)}
    (hitem : forall i, item = some i -> i ∈ s.items)
    (target : Target (List UInt8) D) :
    act C .dbn s item target = (Res.ok (), wroteDbn target item) := by
  cases item with
  | none => rfl
  | some item =>
      have hmem := hitem item rfl
      cases item with
      | metadata m =>
          have hwrites := MetadataEncoder.writes_encode (s.accepts_item hmem)
          show (Target.encodeMetadata C .dbn s.tsOut policy (some s.version) m
            target) = _
          have hschema : Target.setSchema m.schema target =
              (Res.ok (), { target with
                schema := target.schema.or m.schema }) := rfl
          have hencode : (Target.onOutput (mapErr .dbn
              (MetadataEncoder.encode m)) :
                WriteM (Target (List UInt8) D) PyErr Unit)
              { target with schema := target.schema.or m.schema } =
              (Res.ok (), wroteDbn target (some (.metadata m))) := by
            unfold Target.onOutput WriteM.focus mapErr
            rw [hwrites target.output]
            rfl
          unfold Target.encodeMetadata
          refine (WriteM.bind_of_ok hschema).trans ?_
          exact (WriteM.bind_of_ok hencode).trans rfl
      | record bytes =>
          have hwhole : (⟨bytes⟩ : RecordRef).asRef = bytes := by
            unfold RecordRef.asRef
            rw [s.recordSize_item hmem, List.take_length]
          show mapErr PyErr.dbn (Target.encodeDbn ⟨bytes⟩) target = _
          unfold mapErr Target.encodeDbn Target.onOutput WriteM.focus
            RecordEncoder.encodeRecordRef WriteM.writeAll
          rw [hwhole]
          rfl

omit [DebugRecord] [TimeFormat] [JsonWriter] [DayCalendar D] in
theorem output_foldl_wroteDbn (trace : List (Option (Item D)))
    (target : Target (List UInt8) D) :
    (trace.foldl wroteDbn target).output =
      target.output ++ trace.reduceOption.flatMap itemDbn := by
  induction trace generalizing target with
  | nil => exact (List.append_nil _).symm
  | cons item rest ih =>
      rw [List.foldl_cons, ih]
      cases item with
      | none => rw [List.reduceOption_cons_of_none]; rfl
      | some item =>
          rw [List.reduceOption_cons_of_some, List.flatMap_cons,
            ← List.append_assoc]
          rfl

variable [Buffer B] [LawfulBuffer B] [LawfulCalendarDate D]

/--
A stream that is transcoded to DBN and written in any pieces, with flushes
anywhere: every call succeeds, and the output grows by the upgraded metadata
and the images of the complete records.  When the policy keeps the version,
the output and what is left in the machine are all that was written, as soon as
the metadata is complete.
-/
theorem dbn_output (hdebug : ShowsRecord) (output : List UInt8)
    {settings : Inner.Settings D} {self : Inner B (List UInt8) D}
    (hnew : Inner.new C .dbn output settings = Res.ok self)
    {s : ValidStream D settings.upgradePolicy}
    (hdescribes : Describes settings s) (hmax : s.bytes.length ≤ isizeMax)
    (calls : List Call) (hcalls : calls.flatMap Call.bytes <+: s.bytes) :
    exists self', Call.runAll C .dbn calls self =
        .ret (calls.map (fun _ => Res.ok ()), self') ∧
      self'.target.output = output ++ (s.items.take (s.complete
        (calls.flatMap Call.bytes).length)).flatMap itemDbn ∧
      (settings.upgradePolicy = .asIs ->
        s.head.length ≤ (calls.flatMap Call.bytes).length ->
        self'.target.output ++ self'.buffer =
          output ++ calls.flatMap Call.bytes) := by
  have hoks : forall res, Arises C .dbn s res -> res = Res.ok () := by
    intro res harises
    rcases harises with hok | ⟨item, target, hitem, hres⟩
    · exact hok
    · rw [← hres, act_dbn hitem]
  rcases runAll_new hdebug hnew hdescribes hmax calls hcalls with
    ⟨results, self', hrun, hresults, hall⟩
  have hok : forall res, res ∈ results -> res = Res.ok () :=
    fun res hres => hoks res (hresults res hres)
  rcases hall (fun res hres hpanic => by
    rw [hok res hres] at hpanic
    exact Res.ok_not_isPanic () hpanic) with ⟨hcount, k, hencoded, hlast⟩
  have hresult : results = calls.map (fun _ => Res.ok ()) := by
    rw [List.map_const', ← hcount]
    exact List.eq_replicate_iff.mpr ⟨rfl, hok⟩
  rw [hresult] at hrun
  have hk : k = s.complete (calls.flatMap Call.bytes).length := by
    apply hlast
    cases hempty : results.getLast? with
    | none => rfl
    | some last => exact hok last (List.mem_of_getLast? hempty)
  rcases hencoded.tried with ⟨trace, htrace, htried⟩
  have hitems : forall item, item ∈ trace -> forall i, item = some i ->
      i ∈ s.items := by
    intro item hitem i hi
    rw [hi] at hitem
    have hmem := List.reduceOption_mem_iff.mpr hitem
    rw [htrace] at hmem
    exact List.mem_of_mem_take hmem
  have hfold := (htried.foldl (fun item hitem target =>
    act_dbn (hitems item hitem) target)).2
  have houtput : self'.target.output =
      output ++ (s.items.take k).flatMap itemDbn := by
    rw [hfold, output_foldl_wroteDbn, htrace, target_new (by decide) hnew]
    rfl
  refine ⟨self', hrun, by rw [houtput, hk], ?_⟩
  intro hasIs hhead
  have hlead : s.lead ≤ k := by
    rw [hk]
    unfold ValidStream.complete
    rw [if_neg (Nat.not_lt.mpr hhead)]
    exact Nat.le_add_right _ _
  rcases hencoded.holding.data_of_lead_le hlead with
    ⟨j, hkj, hj, hoffset, hdata⟩
  have hbuffer : self'.buffer = self'.fsm.data := rfl
  rw [houtput, hkj, s.flatMap_items_asIs hasIs j itemDbn (fun _ => rfl)
    (fun _ => rfl), hbuffer, hdata, List.append_assoc]
  congr 1
  rw [← List.prefix_iff_eq_take.mp hcalls]
  have htake : s.bytes.take (s.offset j) =
      (calls.flatMap Call.bytes).take (s.offset j) := by
    rw [List.prefix_iff_eq_take.mp hcalls, List.take_take,
      Nat.min_eq_left hoffset]
  rw [htake, List.take_append_drop]

end Transcoder

namespace Transcoder

section Example

open Sample

/-- The settings with metadata in front that keep the version. -/
def keepingVersion (D : Type) [LinearOrder D] : Inner.Settings D :=
  { withMetadata D with upgradePolicy := .asIs }

theorem encodable_heartbeatMetadata :
    forall m, m ∈ some (DbnFsm.sampleMetadata 1 22) ->
      Encodable m ∧ m.version = 1 ∧ m.tsOut = false := by
  intro m hm
  cases hm
  decide +kernel

theorem compatible_keepingVersion :
    (keepingVersion GregorianDate).upgradePolicy.Compatible 1 := by
  decide

theorem wellFormed_heartbeatV1 :
    forall rec, rec ∈ [DbnFsm.heartbeatV1] ->
      DbnFsm.WellFormedRecord 1 (keepingVersion GregorianDate).upgradePolicy
        false rec := by
  decide +kernel

/-- Metadata of version 1 and a heartbeat. -/
def oneHeartbeat :
    ValidStream GregorianDate (keepingVersion GregorianDate).upgradePolicy where
  metadata := some (DbnFsm.sampleMetadata 1 22)
  version := 1
  tsOut := false
  records := [DbnFsm.heartbeatV1]
  encodable := encodable_heartbeatMetadata
  compatible := compatible_keepingVersion
  wellFormed := wellFormed_heartbeatV1

/-- A new machine that keeps the version. -/
def keepingFsm : DbnFsm VecBuffer :=
  { (DbnFsm.new DbnFsm.defaultBufSize 0 : DbnFsm VecBuffer) with
    upgradePolicy := .asIs }

/-- Written up to the middle of the heartbeat. -/
def heartbeatCalls : List Call :=
  [.write (oneHeartbeat.bytes.take 300), .flush]

theorem dbn_output_oneHeartbeat :
    exists self', Call.runAll (List UInt8) .dbn heartbeatCalls
        ⟨keepingFsm, (keepingVersion GregorianDate).target []⟩ =
        .ret (heartbeatCalls.map (fun _ => Res.ok ()), self') ∧
      self'.target.output = [] ++ (oneHeartbeat.items.take
        (oneHeartbeat.complete
          (heartbeatCalls.flatMap Call.bytes).length)).flatMap itemDbn ∧
      ((keepingVersion GregorianDate).upgradePolicy = .asIs ->
        oneHeartbeat.head.length ≤
          (heartbeatCalls.flatMap Call.bytes).length ->
        self'.target.output ++ self'.buffer =
          [] ++ heartbeatCalls.flatMap Call.bytes) := by
  have hdebug : ShowsRecord := fun _ _ => rfl
  have hnew : Inner.new (List UInt8) .dbn []
      (keepingVersion GregorianDate) =
      Res.ok ⟨keepingFsm, (keepingVersion GregorianDate).target []⟩ := rfl
  have hdescribes : Describes (keepingVersion GregorianDate) oneHeartbeat :=
    ⟨rfl, fun hnone => by cases hnone⟩
  have hpiece : heartbeatCalls.flatMap Call.bytes <+:
      oneHeartbeat.bytes := by
    show oneHeartbeat.bytes.take 300 ++ ([] ++ []) <+: _
    rw [List.append_nil, List.append_nil]
    exact List.take_prefix _ _
  exact dbn_output hdebug [] hnew hdescribes (by decide +kernel) _ hpiece

end Example
end Transcoder
end Dbn
