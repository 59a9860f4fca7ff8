import Dbn.Decode.Fsm

/-!
# The record phase, abstractly

What the decoder does in the record phase depends on the input version and on
the unprocessed bytes only.  `next` is the step of that abstract machine and
`Delivers` its runs; buffers, deferred consumption and growing do not occur.
-/

namespace Dbn
namespace DbnFsm

open Lib

/-- What comes next in the unprocessed bytes. -/
inductive Next where
  | needMore (n : Nat)
  | invalid (e : Error)
  /-- A complete record that is too short for its conversion. -/
  | truncated
  | record (image : List UInt8) (version : Option Nat)
deriving DecidableEq

section

variable (policy : VersionUpgradePolicy) (tsOut : Bool)

/-- The image of a complete record. -/
def nextImage (version : Option Nat) (bytes : List UInt8) : Next :=
  match selectConversion version policy bytes with
  | (none, v) => .record (bytes.take (recordSize bytes)) v
  | (some c, v) =>
      if recordSize bytes < requiredSize c tsOut then .truncated
      else .record (c.upgraded tsOut (bytes.take (requiredSize c tsOut))) v

/-- The step of the record phase. -/
def next (version : Option Nat) (bytes : List UInt8) : Next :=
  if bytes.length < headerLen then .needMore (headerLen - bytes.length)
  else if recordSize bytes < headerLen then
    .invalid (invalidLength (recordSize bytes))
  else if recordSize bytes > bytes.length then
    .needMore (recordSize bytes - bytes.length)
  else nextImage policy tsOut version bytes

/--
From a version and unprocessed bytes, the images are delivered and leave a
version and unprocessed bytes.
-/
inductive Delivers : Option Nat -> List UInt8 -> List (List UInt8) ->
    Option Nat -> List UInt8 -> Prop where
  | nil (version : Option Nat) (bytes : List UInt8) :
      Delivers version bytes [] version bytes
  | cons {version version' version'' : Option Nat} {bytes rest : List UInt8}
      {image : List UInt8} {images : List (List UInt8)}
      (head : next policy tsOut version bytes = .record image version')
      (tail : Delivers version' (bytes.drop (recordSize bytes)) images
        version'' rest) :
      Delivers version bytes (image :: images) version'' rest

end

variable {policy : VersionUpgradePolicy} {tsOut : Bool}
  {version version' : Option Nat} {bytes : List UInt8}

/-- The header of the first record is there and all of the record is. -/
structure CompleteRecord (bytes : List UInt8) : Prop where
  header : headerLen ≤ recordSize bytes
  body : recordSize bytes ≤ bytes.length

instance (bytes : List UInt8) : Decidable (CompleteRecord bytes) :=
  decidable_of_iff
    (headerLen ≤ recordSize bytes ∧ recordSize bytes ≤ bytes.length)
    ⟨fun h => ⟨h.1, h.2⟩, fun h => ⟨h.header, h.body⟩⟩

theorem CompleteRecord.length_le (h : CompleteRecord bytes) :
    headerLen ≤ bytes.length :=
  Nat.le_trans h.header h.body

theorem next_of_complete (h : CompleteRecord bytes) :
    next policy tsOut version bytes = nextImage policy tsOut version bytes := by
  have hlen := h.length_le
  have hheader := h.header
  have hbody := h.body
  unfold next
  rw [if_neg (by omega), if_neg (by omega), if_neg (by omega)]

theorem nextImage_cases (policy : VersionUpgradePolicy) (tsOut : Bool)
    (version : Option Nat) (bytes : List UInt8) :
    nextImage policy tsOut version bytes = .truncated ∨
      exists image version',
        nextImage policy tsOut version bytes = .record image version' := by
  unfold nextImage
  split
  · exact Or.inr ⟨_, _, rfl⟩
  · split
    · exact Or.inl rfl
    · exact Or.inr ⟨_, _, rfl⟩

/-- Only complete records are delivered. -/
theorem complete_of_next_record {image : List UInt8}
    (h : next policy tsOut version bytes = .record image version') :
    CompleteRecord bytes := by
  unfold next at h
  split_ifs at h with hlen hheader hbody
  exact ⟨by omega, by omega⟩

theorem complete_of_next_truncated
    (h : next policy tsOut version bytes = .truncated) :
    CompleteRecord bytes := by
  unfold next at h
  split_ifs at h with hlen hheader hbody
  exact ⟨by omega, by omega⟩

/-- More is asked for up to the end of the header or of the record. -/
theorem length_of_next_needMore {n : Nat}
    (h : next policy tsOut version bytes = .needMore n) :
    n + bytes.length =
      if bytes.length < headerLen then headerLen else recordSize bytes := by
  unfold next at h
  split_ifs at h ⊢ with hlen hheader hbody
  · cases h
    exact Nat.sub_add_cancel (Nat.le_of_lt hlen)
  · cases h
    exact Nat.sub_add_cancel (Nat.le_of_lt hbody)
  · rcases nextImage_cases policy tsOut version bytes with
      himage | ⟨_, _, himage⟩
    · rw [himage] at h
      cases h
    · rw [himage] at h
      cases h

theorem supportedVersion_next {image : List UInt8}
    (hversion : SupportedVersion version)
    (h : next policy tsOut version bytes = .record image version') :
    SupportedVersion version' := by
  have hsel := supportedVersion_selectConversion hversion policy bytes
  rw [next_of_complete (complete_of_next_record h)] at h
  unfold nextImage at h
  split at h
  · next v heq =>
      rw [heq] at hsel
      cases h
      exact hsel
  · next c v heq =>
      rw [heq] at hsel
      split_ifs at h
      cases h
      exact hsel

/-- The image of a record carries its own length. -/
theorem recordSize_image {image : List UInt8}
    (h : next policy tsOut version bytes = .record image version') :
    recordSize image = image.length := by
  have hcomplete := complete_of_next_record h
  rw [next_of_complete hcomplete] at h
  unfold nextImage at h
  split at h
  · cases h
    have hheader := hcomplete.header
    rw [recordSize_take (by simp at hheader; omega), List.length_take,
      Nat.min_eq_left hcomplete.body]
  · split_ifs at h
    cases h
    rw [Conversion.recordSize_upgraded, Conversion.length_upgraded]

/-!
## Runs
-/

theorem Delivers.append {v1 v2 v3 : Option Nat} {b1 b2 b3 : List UInt8}
    {xs ys : List (List UInt8)} (hxs : Delivers policy tsOut v1 b1 xs v2 b2)
    (hys : Delivers policy tsOut v2 b2 ys v3 b3) :
    Delivers policy tsOut v1 b1 (xs ++ ys) v3 b3 := by
  induction hxs with
  | nil => exact hys
  | cons head _ ih => exact Delivers.cons head (ih hys)

end DbnFsm
end Dbn
