import Dbn.Decode.MergeDecoder
import Dbn.Lib.Session
import Dbn.RecordTypes

/-!
# Schema filter and limit

The decoders that the command line wraps around its input.  One drops the
records of other schemas, the other stops after a number of records.
-/

namespace Dbn

open Lib

namespace Cli

variable {F D R : Type}

/-!
## Schema filter
-/

structure SchemaFilter (F : Type) where
  decoder : F
  rtype : Option RType

namespace SchemaFilter

def newNoMetadata (decoder : F) (schema : Option Schema) : SchemaFilter F where
  decoder := decoder
  rtype := schema.map RType.fromSchema

def new (decoder : WithMetadata F D) (schema : Option Schema) :
    WithMetadata (SchemaFilter F) D where
  metadata :=
    match schema with
    | some schema => { decoder.metadata with schema := some schema }
    | none => decoder.metadata
  decoder := newNoMetadata decoder.decoder schema

variable [HasRtype R]

/-- The record has the record type, or there is none to have. -/
def keeps (rtype : Option RType) (record : R) : Bool :=
  (rtype.map fun rtype =>
    rtype.toUInt8 == HasRtype.rawRtype record).getD true

/-- The rounds bound the records that one call drops. -/
def decodeRecordRef (decode : Pull Error F R) :
    Nat -> Pull Error (SchemaFilter F) R
  | 0, _ => .timeout
  | rounds + 1, self => do
      let (res, decoder) ← decode self.decoder
      let self := { self with decoder := decoder }
      match res with
      | Except.error e => .ret (Except.error e, self)
      | Except.ok none => .ret (Except.ok none, self)
      | Except.ok (some record) =>
          if keeps self.rtype record then .ret (Except.ok (some record), self)
          else decodeRecordRef decode rounds self

variable {decode : Pull Error F R} {rtype : Option RType} {d d' : F}
  {r : R} {rs : List R} {stop : Option Error}

theorem decodeRecordRef_drop (rounds : Nat)
    (call : decode d = .ret (Except.ok (some r), d'))
    (hr : keeps rtype r = false) :
    decodeRecordRef decode (rounds + 1) ⟨d, rtype⟩ =
      decodeRecordRef decode rounds ⟨d', rtype⟩ := by
  rw [decodeRecordRef, call]
  show (if keeps rtype r = true then _ else _) = _
  rw [hr]
  rfl

theorem decodeRecordRef_keep (rounds : Nat)
    (call : decode d = .ret (Except.ok (some r), d'))
    (hr : keeps rtype r = true) :
    decodeRecordRef decode (rounds + 1) ⟨d, rtype⟩ =
      .ret (Except.ok (some r), ⟨d', rtype⟩) := by
  rw [decodeRecordRef, call]
  exact if_pos hr

/-- Enough rounds make no difference. -/
theorem decodeRecordRef_rounds (h : Reads decode d rs stop) {n m : Nat}
    (hn : rs.length < n) (hm : rs.length < m) :
    decodeRecordRef decode n ⟨d, rtype⟩ =
      decodeRecordRef decode m ⟨d, rtype⟩ := by
  induction h generalizing n m with
  | done call =>
      cases n with
      | zero => cases hn
      | succ n =>
          cases m with
          | zero => cases hm
          | succ m => rw [decodeRecordRef, decodeRecordRef, call]; rfl
  | fail call =>
      cases n with
      | zero => cases hn
      | succ n =>
          cases m with
          | zero => cases hm
          | succ m => rw [decodeRecordRef, decodeRecordRef, call]; rfl
  | @item _ _ r _ _ call rest ih =>
      cases n with
      | zero => cases hn
      | succ n =>
          cases m with
          | zero => cases hm
          | succ m =>
              cases hr : keeps rtype r with
              | true =>
                  rw [decodeRecordRef_keep n call hr,
                    decodeRecordRef_keep m call hr]
              | false =>
                  rw [decodeRecordRef_drop n call hr,
                    decodeRecordRef_drop m call hr]
                  exact ih (Nat.lt_of_succ_lt_succ hn)
                    (Nat.lt_of_succ_lt_succ hm)

/-- The filter reads the records that it keeps. -/
theorem reads (h : Reads decode d rs stop) {rounds : Nat}
    (hrounds : rs.length < rounds) :
    Reads (decodeRecordRef decode rounds) ⟨d, rtype⟩
      (rs.filter (keeps rtype)) stop := by
  induction h with
  | done call =>
      cases rounds with
      | zero => cases hrounds
      | succ rounds =>
          apply Reads.done
          rw [decodeRecordRef, call]
          rfl
  | fail call =>
      cases rounds with
      | zero => cases hrounds
      | succ rounds =>
          apply Reads.fail
          rw [decodeRecordRef, call]
          rfl
  | @item _ _ r rs _ call rest ih =>
      have hrest := Nat.lt_of_succ_lt hrounds
      cases rounds with
      | zero => cases hrounds
      | succ rounds =>
          cases hr : keeps rtype r with
          | true =>
              rw [List.filter_cons_of_pos hr]
              exact Reads.item (decodeRecordRef_keep rounds call hr) (ih hrest)
          | false =>
              rw [List.filter_cons_of_neg
                (by rw [hr]; exact Bool.false_ne_true)]
              apply (ih hrest).of_call_eq
              rw [decodeRecordRef_drop rounds call hr]
              exact decodeRecordRef_rounds rest
                (Nat.lt_of_succ_lt_succ hrounds) hrest

end SchemaFilter

/-!
## Limit
-/

structure LimitFilter (F : Type) where
  decoder : F
  limit : Option NonZeroU64
  recordCount : UInt64

namespace LimitFilter

def newNoMetadata (decoder : F) (limit : Option NonZeroU64) :
    LimitFilter F where
  decoder := decoder
  limit := limit
  recordCount := 0

def new (decoder : WithMetadata F D) (limit : Option NonZeroU64) :
    WithMetadata (LimitFilter F) D where
  metadata :=
    match limit with
    | some limit =>
        match decoder.metadata.limit with
        | some metadataLimit =>
            { decoder.metadata with
              limit := some
                (if limit.val < metadataLimit.val then limit
                else metadataLimit) }
        | none => { decoder.metadata with limit := some limit }
    | none => decoder.metadata
  decoder := newNoMetadata decoder.decoder limit

/-- As many records as the limit were returned. -/
def isReached (self : LimitFilter F) : Bool :=
  (self.limit.map (fun limit => decide (self.recordCount ≥ limit.val))).getD
    false

def decodeRecordRef (decode : Pull Error F R) :
    Pull Error (LimitFilter F) R := fun self =>
  if self.isReached then .ret (Except.ok none, self)
  else do
    let (res, decoder) ← decode self.decoder
    let self := { self with decoder := decoder }
    match res with
    | Except.error e => .ret (Except.error e, self)
    | Except.ok none => .ret (Except.ok none, self)
    | Except.ok (some record) =>
        .ret (Except.ok (some record),
          { self with recordCount := self.recordCount + 1 })

/-- The first records up to the limit. -/
def firsts (limit : Option NonZeroU64) (records : List R) : List R :=
  match limit with
  | none => records
  | some limit => records.take limit.val.toNat

variable {decode : Pull Error F R} {d : F} {rs : List R}
  {stop : Option Error} {limit : NonZeroU64} {count : UInt64}

theorem isReached_some :
    (⟨d, some limit, count⟩ : LimitFilter F).isReached = true <->
      limit.val.toNat ≤ count.toNat := by
  show decide (limit.val ≤ count) = true <-> _
  rw [decide_eq_true_iff, UInt64.le_iff_toNat_le]

theorem reads_none (h : Reads decode d rs stop) (count : UInt64) :
    Reads (decodeRecordRef decode) ⟨d, none, count⟩ rs stop := by
  induction h generalizing count with
  | done call =>
      apply Reads.done
      show (decode _ >>= _) = _
      rw [call]
      rfl
  | fail call =>
      apply Reads.fail
      show (decode _ >>= _) = _
      rw [call]
      rfl
  | item call rest ih =>
      refine Reads.item ?_ (ih (count + 1))
      show (decode _ >>= _) = _
      rw [call]
      rfl

/-- The count does not pass the limit, so it does not wrap. -/
theorem toNat_succ (h : count.toNat < limit.val.toNat) :
    (count + 1).toNat = count.toNat + 1 := by
  have hlimit := limit.val.toNat_lt
  rw [UInt64.toNat_add, UInt64.toNat_one]
  omega

theorem reads_some (h : Reads decode d rs stop) (left : Nat)
    (hleft : count.toNat + left = limit.val.toNat) :
    exists stop', Reads (decodeRecordRef decode) ⟨d, some limit, count⟩
      (rs.take left) stop' := by
  induction h generalizing count left with
  | @done d _ call =>
      refine ⟨none, ?_⟩
      rw [List.take_nil]
      by_cases hreached :
          (⟨d, some limit, count⟩ : LimitFilter F).isReached
      · exact Reads.done (if_pos hreached)
      · apply Reads.done
        rw [decodeRecordRef, if_neg hreached, call]
        rfl
  | @fail d _ e call =>
      rw [List.take_nil]
      by_cases hreached :
          (⟨d, some limit, count⟩ : LimitFilter F).isReached
      · exact ⟨none, Reads.done (if_pos hreached)⟩
      · refine ⟨some e, ?_⟩
        apply Reads.fail
        rw [decodeRecordRef, if_neg hreached, call]
        rfl
  | item call rest ih =>
      cases left with
      | zero =>
          refine ⟨none, Reads.done (if_pos (isReached_some.mpr ?_))⟩
          exact Nat.le_of_eq hleft.symm
      | succ left =>
          have hlt : count.toNat < limit.val.toNat := by omega
          have hcount := toNat_succ hlt
          have hleft' : (count + 1).toNat + left = limit.val.toNat := by omega
          rcases ih left hleft' with ⟨stop', hrest⟩
          refine ⟨stop', Reads.item ?_ hrest⟩
          rw [decodeRecordRef, if_neg, call]
          · rfl
          · rw [isReached_some]
            exact Nat.not_le.mpr hlt

/-- The limit reads the first records. -/
theorem reads (h : Reads decode d rs stop) (limit : Option NonZeroU64) :
    exists stop', Reads (decodeRecordRef decode) ⟨d, limit, 0⟩
      (firsts limit rs) stop' := by
  cases limit with
  | none => exact ⟨stop, reads_none h 0⟩
  | some limit =>
      exact reads_some h limit.val.toNat (Nat.zero_add _)

end LimitFilter
end Cli
end Dbn
