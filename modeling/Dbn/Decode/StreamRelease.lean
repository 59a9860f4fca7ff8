import Dbn.Decode.StreamRoundTrip
import Dbn.Lib.Release

/-!
# A stream releases its items

For a valid stream the machine is a queue: it is fed bytes, and it hands out
the metadata and the records one by one, each as soon as its last byte is
there.  This holds whatever is called between two writes, so also after a call
that left items in the machine.
-/

namespace Dbn

open Lib
open DbnFsm
open MetadataEncoder (Encodable encodedBytes)

variable {B D : Type} [Buffer B] [CalendarDate D]

/-- What a stream hands out. -/
inductive Item (D : Type) where
  | metadata (m : Metadata D)
  | record (bytes : List UInt8)

/-- A stream of metadata and records, or of records only. -/
structure ValidStream (D : Type) [CalendarDate D]
    (policy : VersionUpgradePolicy) where
  metadata : Option (Metadata D)
  version : Nat
  tsOut : Bool
  records : List (List UInt8)
  encodable : forall m, m ∈ metadata ->
    Encodable m ∧ m.version = version ∧ m.tsOut = tsOut
  compatible : policy.Compatible version
  wellFormed : forall rec, rec ∈ records ->
    WellFormedRecord version policy tsOut rec

namespace ValidStream

variable {policy : VersionUpgradePolicy}

/-- The encoded metadata. -/
def head (s : ValidStream D policy) : List UInt8 :=
  match s.metadata with
  | none => []
  | some m => encodedBytes m

def bytes (s : ValidStream D policy) : List UInt8 :=
  s.head ++ s.records.flatten

/-- The number of items in front of the records. -/
def lead (s : ValidStream D policy) : Nat :=
  s.metadata.toList.length

/-- The image of a record. -/
def image (s : ValidStream D policy) (rec : List UInt8) : List UInt8 :=
  upgradedImage s.version policy s.tsOut rec

/-- The upgraded metadata and the images of the records. -/
def items (s : ValidStream D policy) : List (Item D) :=
  s.metadata.toList.map (fun m => .metadata (m.upgrade policy)) ++
    s.records.map (fun rec => .record (s.image rec))

/-- The number of bytes in front of a record. -/
def offset (s : ValidStream D policy) (j : Nat) : Nat :=
  s.head.length + (s.records.take j).flatten.length

/-- How many of the records are complete after some of their bytes. -/
def completeRecords : List (List UInt8) -> Nat -> Nat
  | [], _ => 0
  | rec :: rest, n =>
      if rec.length ≤ n then completeRecords rest (n - rec.length) + 1 else 0

theorem completeRecords_le (records : List (List UInt8)) (n : Nat) :
    completeRecords records n ≤ records.length := by
  induction records generalizing n with
  | nil => exact Nat.le_refl 0
  | cons rec rest ih =>
      unfold completeRecords
      split
      · exact Nat.succ_le_succ (ih _)
      · exact Nat.zero_le _

theorem le_completeRecords_iff {records : List (List UInt8)} {j n : Nat}
    (hj : j ≤ records.length) :
    j ≤ completeRecords records n <->
      (records.take j).flatten.length ≤ n := by
  induction records generalizing j n with
  | nil =>
      rw [List.take_nil]
      exact iff_of_true hj (Nat.zero_le n)
  | cons rec rest ih =>
      cases j with
      | zero => exact iff_of_true (Nat.zero_le _) (Nat.zero_le n)
      | succ j =>
          unfold completeRecords
          rw [List.take_succ_cons, List.flatten_cons, List.length_append]
          by_cases hrec : rec.length ≤ n
          · rw [if_pos hrec, Nat.succ_le_succ_iff,
              ih (Nat.le_of_succ_le_succ hj)]
            omega
          · rw [if_neg hrec]
            omega

/-- A record takes at least a byte. -/
theorem completeRecords_le_add {records : List (List UInt8)}
    (hpos : forall rec, rec ∈ records -> 0 < rec.length) {j n : Nat}
    (hj : (records.take j).flatten.length ≤ n) :
    completeRecords records n ≤
      j + (n - (records.take j).flatten.length) := by
  induction records generalizing j n with
  | nil => exact Nat.zero_le _
  | cons rec rest ih =>
      rw [List.forall_mem_cons] at hpos
      unfold completeRecords
      cases j with
      | zero =>
          have hle := ih hpos.2 (j := 0) (Nat.zero_le (n - rec.length))
          rw [List.take_zero] at hle ⊢
          simp only [List.flatten_nil, List.length_nil, Nat.sub_zero] at hle ⊢
          split <;> omega
      | succ j =>
          rw [List.take_succ_cons, List.flatten_cons, List.length_append]
            at hj ⊢
          have hle := ih hpos.2 (j := j) (n := n - rec.length) (by omega)
          rw [if_pos (by omega)]
          omega

/-- How many items are complete after some bytes of the stream. -/
def complete (s : ValidStream D policy) (n : Nat) : Nat :=
  if n < s.head.length then 0
  else s.lead + completeRecords s.records (n - s.head.length)

theorem completeRecords_zero (s : ValidStream D policy) :
    completeRecords s.records 0 = 0 := by
  have hpos : forall rec, rec ∈ s.records -> 0 < rec.length := by
    intro rec hrec
    exact Nat.lt_of_lt_of_le (by decide) (s.wellFormed rec hrec).header
  have hrecords : completeRecords s.records 0 ≤
      0 + (0 - (s.records.take 0).flatten.length) :=
    completeRecords_le_add hpos (Nat.zero_le 0)
  rw [List.take_zero] at hrecords
  exact Nat.eq_zero_of_le_zero hrecords

/-- Without a byte nothing is complete. -/
theorem complete_zero (s : ValidStream D policy) : s.complete 0 = 0 := by
  unfold complete
  split
  · rfl
  · next hhead =>
      rw [Nat.zero_sub, completeRecords_zero]
      unfold lead
      cases hmetadata : s.metadata with
      | none => rfl
      | some m =>
          unfold head at hhead
          rw [hmetadata] at hhead
          dsimp only at hhead
          rw [MetadataEncoder.length_encodedBytes] at hhead
          omega

/-- The complete items besides the metadata. -/
theorem complete_sub_lead (s : ValidStream D policy) (n : Nat) :
    s.complete n - s.lead = completeRecords s.records (n - s.head.length) := by
  unfold complete
  by_cases hhead : n < s.head.length
  · rw [if_pos hhead, Nat.zero_sub, Nat.sub_eq_zero_of_le (Nat.le_of_lt hhead),
      completeRecords_zero]
  · rw [if_neg hhead, Nat.add_sub_cancel_left]

theorem length_items (s : ValidStream D policy) :
    s.items.length = s.lead + s.records.length := by
  unfold items lead
  rw [List.length_append, List.length_map, List.length_map]

/-- The stream as a queue of items. -/
def release (s : ValidStream D policy) : Release (Item D) where
  items := s.items
  complete := s.complete
  complete_le n := by
    rw [length_items]
    unfold complete
    split
    · exact Nat.zero_le _
    · exact Nat.add_le_add_left (completeRecords_le _ _) _

/-- A machine that holds the first `n` bytes; `k` items were handed out. -/
inductive Holding (s : ValidStream D policy) :
    Nat -> Nat -> DbnFsm B -> Prop where
  | metadata {m : Metadata D} {n : Nat} {fsm : DbnFsm B}
      (hm : s.metadata = some m) (le : n ≤ s.bytes.length)
      (holds : Holds policy fsm (s.bytes.take n)) : Holding s n 0 fsm
  | records {j n : Nat} {fsm : DbnFsm B} (hj : j ≤ s.records.length)
      (start : s.offset j ≤ n) (le : n ≤ s.bytes.length)
      (inRecords : InRecords s.version policy s.tsOut
        ((s.bytes.take n).drop (s.offset j)) fsm) :
      Holding s n (s.lead + j) fsm

/-!
## Items and bytes
-/

variable (s : ValidStream D policy)

theorem head_of_some {m : Metadata D} (h : s.metadata = some m) :
    s.head = encodedBytes m ∧ s.lead = 1 := by
  unfold head lead
  rw [h]
  exact ⟨rfl, rfl⟩

theorem head_of_none (h : s.metadata = none) :
    s.head = [] ∧ s.lead = 0 := by
  unfold head lead
  rw [h]
  exact ⟨rfl, rfl⟩

theorem items_of_some {m : Metadata D} (h : s.metadata = some m) :
    s.items[0]? = some (.metadata (m.upgrade policy)) := by
  unfold items
  rw [h]
  rfl

theorem items_record (j : Nat) (hj : j < s.records.length) :
    s.items[s.lead + j]? = some (.record (s.image s.records[j])) := by
  unfold items lead
  rw [List.getElem?_append_right (by rw [List.length_map]; omega),
    List.length_map, Nat.add_sub_cancel_left, List.getElem?_map,
    List.getElem?_eq_getElem hj]
  rfl

theorem offset_succ (j : Nat) (hj : j < s.records.length) :
    s.offset (j + 1) = s.offset j + s.records[j].length := by
  unfold offset
  rw [List.take_succ_eq_append_getElem hj, List.flatten_append,
    List.length_append, List.flatten_singleton, Nat.add_assoc]

/-- The bytes behind the first records. -/
theorem drop_offset (j : Nat) :
    s.bytes.drop (s.offset j) = (s.records.drop j).flatten := by
  unfold bytes offset
  rw [← List.drop_drop, List.drop_left]
  have hsplit : s.records.flatten =
      (s.records.take j).flatten ++ (s.records.drop j).flatten := by
    rw [← List.flatten_append, List.take_append_drop]
  rw [hsplit, List.drop_left]

theorem pending_eq (j n : Nat) :
    (s.bytes.take n).drop (s.offset j) =
      (s.records.drop j).flatten.take (n - s.offset j) := by
  rw [List.drop_take, drop_offset]

theorem le_complete_iff {j n : Nat} (hj : j ≤ s.records.length)
    (hn : s.head.length ≤ n) :
    s.lead + j ≤ s.complete n <-> s.offset j ≤ n := by
  unfold complete offset
  rw [if_neg (Nat.not_lt.mpr hn), Nat.add_le_add_iff_left,
    le_completeRecords_iff hj]
  omega

/-- A complete record is in front of what is left. -/
theorem pending_of_lt {j n : Nat} (hj : j < s.records.length)
    (hn : s.offset (j + 1) ≤ n) :
    (s.bytes.take n).drop (s.offset j) =
      s.records[j] ++ (s.bytes.take n).drop (s.offset (j + 1)) := by
  rw [offset_succ s j hj] at hn ⊢
  rw [pending_eq, ← List.drop_drop, pending_eq]
  have hsplit : (s.records.drop j).flatten =
      s.records[j] ++ (s.records.drop (j + 1)).flatten := by
    rw [← List.flatten_cons, List.getElem_cons_drop]
  have hlen : n - s.offset j =
      s.records[j].length + (n - s.offset j - s.records[j].length) := by
    omega
  rw [hsplit, hlen, List.take_length_add_append, List.drop_left]

/-- When no record is complete, what is left is a part of one. -/
theorem partialRecord_pending {j n : Nat} (hj : j ≤ s.records.length)
    (hn : s.head.length ≤ n) (hcomplete : s.lead + j = s.complete n) :
    PartialRecord ((s.bytes.take n).drop (s.offset j)) := by
  rw [pending_eq]
  rcases Nat.lt_or_eq_of_le hj with hlt | heq
  swap
  · rw [heq, List.drop_length, List.flatten_nil, List.take_nil]
    exact Or.inl (by decide)
  have hmore : ¬ s.offset (j + 1) ≤ n := by
    rw [← s.le_complete_iff hlt hn, ← hcomplete]
    omega
  have hsplit : (s.records.drop j).flatten =
      s.records[j] ++ (s.records.drop (j + 1)).flatten := by
    rw [← List.flatten_cons, List.getElem_cons_drop]
  have hrec := s.wellFormed s.records[j] (List.getElem_mem hlt)
  rw [offset_succ s j hlt] at hmore
  rw [hsplit]
  apply partialRecord_of_prefix (List.take_prefix _ _) hrec.size
  rw [List.length_take]
  have hpos := hrec.header
  rw [headerLen_eq] at hpos
  omega

/-!
## The machine is the queue
-/

/-- A result of `process` hands out an item. -/
inductive Gives : Item D -> ProcessResult D Unit -> DbnFsm B -> Prop where
  | metadata (m : Metadata D) (fsm : DbnFsm B) :
      Gives (.metadata m) (.metadata m) fsm
  | record {image : List UInt8} {fsm : DbnFsm B}
      (last : fsm.lastBytes = some image) :
      Gives (.record image) (.record ()) fsm

variable {s} {n k : Nat} {fsm : DbnFsm B}

theorem Holding.le (h : Holding s n k fsm) : n ≤ s.bytes.length := by
  cases h with
  | metadata _ le _ => exact le
  | records _ _ le _ => exact le

theorem Holding.taken_le (h : Holding s n k fsm) : k ≤ s.complete n := by
  cases h with
  | metadata hm le holds => exact Nat.zero_le _
  | records hj start le inRecords =>
      apply (s.le_complete_iff hj _).mpr start
      exact Nat.le_trans (Nat.le_add_right _ _) start

/-- An image has at least a header. -/
theorem headerLen_le_image (s : ValidStream D policy) {rec : List UInt8}
    (hrec : rec ∈ s.records) :
    RecordStruct.headerLen ≤ (s.image rec).length := by
  unfold image upgradedImage
  split
  · exact (s.wellFormed rec hrec).header
  · next c _ =>
      rw [Conversion.length_upgraded]
      exact Nat.le_trans c.le_target_size (Nat.le_add_right _ _)

theorem headerLen_le_item (s : ValidStream D policy) {bytes : List UInt8}
    (h : .record bytes ∈ s.items) : RecordStruct.headerLen ≤ bytes.length := by
  rcases List.mem_append.mp h with hmetadata | hrecord
  · rcases List.mem_map.mp hmetadata with ⟨m, _, heq⟩
    cases heq
  · rcases List.mem_map.mp hrecord with ⟨rec, hrec, heq⟩
    cases heq
    exact s.headerLen_le_image hrec

theorem length_record_pos (s : ValidStream D policy) :
    forall rec, rec ∈ s.records -> 0 < rec.length := by
  intro rec hrec
  exact Nat.lt_of_lt_of_le (by decide) (s.wellFormed rec hrec).header

/-- There are no more complete items than bytes. -/
theorem Holding.complete_le (h : Holding s n k fsm) :
    s.complete n ≤ k + fsm.data.length := by
  cases h with
  | @metadata m _ _ hm le holds =>
      have hdata := holds.length_data
      rw [List.length_take, Nat.min_eq_left le, metadataPreludeLen_eq] at hdata
      rcases s.head_of_some hm with ⟨hhead, hlead⟩
      have hlong := MetadataEncoder.length_blockBytes
        (s.encodable m hm).1
      have hfixed : 100 ≤ MetadataEncoder.neededLen m := by
        unfold MetadataEncoder.neededLen metadataFixedLen
        omega
      have hlen := MetadataEncoder.length_encodedBytes m
      have hrecords := completeRecords_le_add s.length_record_pos (j := 0)
        (Nat.zero_le (n - s.head.length))
      rw [List.take_zero, List.flatten_nil, List.length_nil] at hrecords
      unfold complete
      rw [hlead, hhead] at *
      split <;> omega
  | records hj start le inRecords =>
      have hrecords := completeRecords_le_add s.length_record_pos
        (n := n - s.head.length) (j := _) (Nat.le_sub_of_add_le (by
          rw [Nat.add_comm]
          exact start))
      have hhead : s.head.length ≤ n :=
        Nat.le_trans (Nat.le_add_right _ _) start
      unfold complete offset at *
      rw [if_neg (Nat.not_lt.mpr hhead), inRecords.data, List.length_drop,
        List.length_take, Nat.min_eq_left le]
      omega

/-- What the machine says about the stream after an item. -/
theorem Holding.settings (h : Holding s n (k + 1) fsm) :
    fsm.inputDbnVersion = some s.version ∧ fsm.upgradePolicy = policy ∧
      fsm.tsOut = s.tsOut := by
  generalize hk : k + 1 = k' at h
  cases h with
  | metadata _ _ _ => cases hk
  | records _ _ _ inRecords =>
      exact ⟨inRecords.inputDbnVersion, inRecords.upgradePolicy,
        inRecords.tsOut⟩

variable [LawfulBuffer B]

theorem Holding.writeAll (h : Holding s n k fsm) {chunk : List UInt8}
    (hchunk : s.bytes.take n ++ chunk <+: s.bytes) :
    Holding s (n + chunk.length) k (fsm.writeAll chunk) := by
  have hle := hchunk.length_le
  rw [List.length_append, List.length_take, Nat.min_eq_left h.le] at hle
  have htake : s.bytes.take (n + chunk.length) =
      s.bytes.take n ++ chunk := by
    have hpiece := List.prefix_iff_eq_take.mp hchunk
    rw [List.length_append, List.length_take, Nat.min_eq_left h.le] at hpiece
    exact hpiece.symm
  cases h with
  | metadata hm le holds =>
      apply Holding.metadata hm hle
      rw [htake]
      exact holds.writeAll chunk
  | records hj start le inRecords =>
      apply Holding.records hj (Nat.le_trans start (Nat.le_add_right _ _)) hle
      rw [htake, List.drop_append_of_le_length (by
        rw [List.length_take, Nat.min_eq_left le]
        exact start)]
      exact inRecords.of_appends (appends_writeAll inRecords.inv chunk)

/-- All complete items were handed out. -/
theorem Holding.process_more (h : Holding s n k fsm)
    (hk : k = s.complete n) : exists more fsm',
    fsm.process (D := D) = .ret (.readMore more, fsm') ∧
      Holding s n k fsm' := by
  cases h with
  | @metadata m _ _ hm le holds =>
      rcases s.head_of_some hm with ⟨hhead, hlead⟩
      have hshort : n < s.head.length := by
        unfold complete at hk
        by_contra hnot
        rw [if_neg hnot, hlead] at hk
        omega
      rcases s.encodable m hm with ⟨hencodable, hversion, _⟩
      rw [hhead] at hshort
      have hpiece : s.bytes.take n <+: encodedBytes m := by
        unfold bytes
        rw [hhead, List.take_append_of_le_length (Nat.le_of_lt hshort)]
        exact List.take_prefix _ _
      have hlen : (s.bytes.take n).length < (encodedBytes m).length := by
        rw [List.length_take, Nat.min_eq_left le]
        exact hshort
      rcases holds.process_readMore (D := D) hencodable
        (by rw [hversion]; exact s.compatible) hpiece hlen with
        ⟨more, fsm', hret, holds'⟩
      exact ⟨more, fsm', hret, Holding.metadata hm le holds'⟩
  | records hj start le inRecords =>
      have hhead : s.head.length ≤ n :=
        Nat.le_trans (Nat.le_add_right _ _) start
      have hpart := s.partialRecord_pending hj hhead hk
      rcases inRecords.process_partial (D := D) hpart with ⟨more, hret, _⟩
      exact ⟨more, fsm.settle, hret,
        Holding.records hj start le inRecords.settle⟩

/-- A record that is complete is handed out. -/
theorem Holding.process_record {j : Nat} (hj : j < s.records.length)
    (hn : s.offset (j + 1) ≤ n) (le : n ≤ s.bytes.length)
    (inRecords : InRecords s.version policy s.tsOut
      ((s.bytes.take n).drop (s.offset j)) fsm) :
    exists fsm', fsm.process (D := D) = .ret (.record (), fsm') ∧
      fsm'.lastBytes = some (s.image s.records[j]) ∧
      Holding s n (s.lead + (j + 1)) fsm' := by
  rw [s.pending_of_lt hj hn] at inRecords
  rcases inRecords.process_record (D := D)
    (s.wellFormed s.records[j] (List.getElem_mem hj)) with
    ⟨fsm', hret, hlast, hin, _⟩
  exact ⟨fsm', hret, hlast, Holding.records hj hn le hin⟩

variable [LawfulCalendarDate D]

/-- The metadata is handed out when it is complete. -/
theorem Holding.process_metadata {m : Metadata D} (hm : s.metadata = some m)
    (hmax : s.bytes.length ≤ isizeMax) (hn : s.head.length ≤ n)
    (le : n ≤ s.bytes.length) (holds : Holds policy fsm (s.bytes.take n)) :
    exists fsm', fsm.process =
        .ret (.metadata (m.upgrade policy), fsm') ∧
      Holding s n 1 fsm' := by
  rcases s.head_of_some hm with ⟨hhead, hlead⟩
  rcases s.encodable m hm with ⟨hencodable, hversion, hts⟩
  have hsplit : s.bytes.take n =
      encodedBytes m ++ (s.bytes.take n).drop (s.offset 0) := by
    have hoffset : s.offset 0 = s.head.length := rfl
    rw [hoffset, List.drop_take]
    unfold bytes
    rw [List.drop_left, ← hhead, List.take_append, List.take_of_length_le hn]
  rw [hsplit] at holds
  rcases holds.process_encodedBytes hencodable
    (by rw [hversion]; exact s.compatible) (by
      rw [← hsplit, List.length_take]
      omega) with ⟨fsm', hret, hstart⟩
  refine ⟨fsm', hret, ?_⟩
  have hin := hstart.inRecords
  rw [hversion, hts] at hin
  have hholding := Holding.records (Nat.zero_le _) hn le hin
  rwa [hlead] at hholding

/-- The next item is handed out when it is complete. -/
theorem Holding.process_item (hmax : s.bytes.length ≤ isizeMax)
    (h : Holding s n k fsm) (hk : k < s.complete n) {item : Item D}
    (hitem : s.items[k]? = some item) :
    exists res fsm', fsm.process = .ret (res, fsm') ∧
      Gives item res fsm' ∧ Holding s n (k + 1) fsm' := by
  have hn : s.head.length ≤ n := by
    unfold complete at hk
    split at hk
    · cases hk
    · next hnot => exact Nat.not_lt.mp hnot
  cases h with
  | metadata hm le holds =>
      rw [s.items_of_some hm] at hitem
      cases hitem
      rcases Holding.process_metadata hm hmax hn le holds with
        ⟨fsm', hret, hholding⟩
      exact ⟨_, fsm', hret, Gives.metadata _ _, hholding⟩
  | @records j _ _ hj start le inRecords =>
      have hlt : j < s.records.length := by
        have hlen := s.release.complete_le n
        have hcomplete : s.release.complete n = s.complete n := rfl
        have hitems : s.release.items = s.items := rfl
        rw [hcomplete, hitems, length_items] at hlen
        omega
      rw [s.items_record j hlt] at hitem
      cases hitem
      have hnext : s.offset (j + 1) ≤ n :=
        (s.le_complete_iff hlt hn).mp hk
      rcases Holding.process_record hlt hnext le inRecords with
        ⟨fsm', hret, hlast, hholding⟩
      exact ⟨_, fsm', hret, Gives.record hlast, hholding⟩

/-!
## New machines
-/

omit [Buffer B] [CalendarDate D] [LawfulBuffer B] [LawfulCalendarDate D] in
/-- A version that the builder accepts. -/
theorem withInputDbnVersion_eq_ok {b b' : DbnFsmBuilder}
    {inputVersion : Option Nat}
    (h : b.withInputDbnVersion inputVersion = Res.ok b') : exists version,
      version.map Subtype.val = inputVersion ∧
      b' = { b with inputDbnVersion := version } := by
  unfold DbnFsmBuilder.withInputDbnVersion at h
  cases inputVersion with
  | none =>
      cases h
      exact ⟨none, rfl, rfl⟩
  | some v =>
      rcases Res.bind_eq_ok.mp h with ⟨version, htry, heq⟩
      cases heq
      refine ⟨some version, ?_, rfl⟩
      unfold DbnFsm.tryVersion at htry
      split at htry
      · cases htry
        rfl
      · cases htry

omit [LawfulCalendarDate D] in
/-- A new machine for the stream; a fragment needs its version. -/
theorem holding_build {b : DbnFsmBuilder} {start : DbnFsm B}
    {s : ValidStream D b.upgradePolicy} (hbuild : b.build = Res.ok start)
    (hskip : b.skipMetadata = s.metadata.isNone)
    (hfragment : s.metadata = none ->
      b.inputDbnVersion.map Subtype.val = some s.version ∧
        b.tsOut = s.tsOut) : Holding s 0 0 start := by
  cases hmetadata : s.metadata with
  | some m =>
      apply Holding.metadata hmetadata (Nat.zero_le _)
      rw [hmetadata] at hskip
      exact holds_build hbuild hskip
  | none =>
      rcases s.head_of_none hmetadata with ⟨hhead, hlead⟩
      rcases hfragment hmetadata with ⟨hversion, hts⟩
      rw [hmetadata] at hskip
      have hstart := DbnFsmBuilder.build_eq_ok hbuild
      have hstate : start.state = .record := by
        rw [hstart]
        simp [hskip]
      have hoffset : s.offset 0 = 0 := by
        unfold offset
        rw [hhead]
        rfl
      have hin : InRecords s.version b.upgradePolicy s.tsOut
          ((s.bytes.take 0).drop (s.offset 0)) start :=
        { recordPhase := recordPhase_iff.mpr (Or.inl hstate)
          inv := inv_build hbuild
          inputDbnVersion := by rw [hstart]; exact hversion
          upgradePolicy := by rw [hstart]
          tsOut := by rw [hstart]; exact hts
          data := by
            unfold data
            rw [hstate, hstart]
            simp }
      have hholding := Holding.records (Nat.zero_le _)
        (Nat.le_of_eq hoffset) (Nat.zero_le _) hin
      rwa [hlead] at hholding

/-- Metadata of version 1 and two heartbeats. -/
def heartbeats : ValidStream GregorianDate .upgradeToV3 where
  metadata := some (DbnFsm.sampleMetadata 1 22)
  version := 1
  tsOut := false
  records := [DbnFsm.heartbeatV1, DbnFsm.heartbeatV1]
  encodable m hm := by
    cases hm
    decide +kernel
  compatible := by decide
  wellFormed := by decide +kernel

end ValidStream
end Dbn
