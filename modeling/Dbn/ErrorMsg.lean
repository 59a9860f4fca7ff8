import Dbn.CChars

/-!
# Error messages

The two error messages and their text, which is cut to the length of its
field byte by byte.
-/

namespace Dbn

open Lib

/-- Common data for all records. -/
structure RecordHeader where
  length : UInt8
  rtype : UInt8
  publisherId : UInt16
  instrumentId : UInt32
  tsEvent : UInt64
deriving DecidableEq

/-- Creates a new header; `R` is the struct of the record. -/
def RecordHeader.new (R : RecordStruct) (rtype : UInt8) (publisherId : UInt16)
    (instrumentId : UInt32) (tsEvent : UInt64) : RecordHeader where
  length := UInt8.ofNat (R.size / lengthMultiplier)
  rtype := rtype
  publisherId := publisherId
  instrumentId := instrumentId
  tsEvent := tsEvent

/-- The codes of errors. -/
inductive ErrorCode where
  | authFailed | apiKeyDeactivated | connectionLimitExceeded
  | symbolResolutionFailed | invalidSubscription | internalError | unset
deriving DecidableEq, Repr

/-- `code as u8`. -/
def ErrorCode.toUInt8 : ErrorCode -> UInt8
  | authFailed => 1
  | apiKeyDeactivated => 2
  | connectionLimitExceeded => 3
  | symbolResolutionFailed => 4
  | invalidSubscription => 5
  | internalError => 6
  | unset => 255

/-- The loop over the bytes of a message, which leaves at least one NUL. -/
def CChars.assignMsg {ε : Type} {n : Nat} (msg : Str) (err : CChars n) :
    Res ε (CChars n) :=
  err.assign 0 (msg.bytes.take (n - 1))

namespace V1

/-- An error message in version 1. -/
structure ErrorMsg where
  hd : RecordHeader
  err : CChars 64
deriving DecidableEq

namespace ErrorMsg

/-- Creates a new message; `msg` will be truncated if it's too long. -/
def new (tsEvent : UInt64) (msg : Str) : Result ErrorMsg := do
  let error : ErrorMsg :=
    { hd := RecordHeader.new .errorV1 Rtype.error 0 0 tsEvent
      err := CChars.zeroed 64 }
  let err ← error.err.assignMsg msg
  Res.ok { error with err := err }

/-- `err`: parses the message. -/
def errStr (error : ErrorMsg) : Result Str :=
  cCharsToStr error.err

end ErrorMsg

end V1

/-- An error message in versions 2 and 3. -/
structure ErrorMsg where
  hd : RecordHeader
  err : CChars 302
  code : UInt8
  isLast : UInt8
deriving DecidableEq

namespace ErrorMsg

/-- Creates a new message; `msg` will be truncated if it's too long. -/
def new (tsEvent : UInt64) (code : Option ErrorCode) (msg : Str)
    (isLast : Bool) : Result ErrorMsg := do
  let error : ErrorMsg :=
    { hd := RecordHeader.new .errorV2 Rtype.error 0 0 tsEvent
      err := CChars.zeroed 302
      code := ErrorCode.unset.toUInt8
      isLast := if isLast then 1 else 0 }
  let error :=
    match code with
    | some code => { error with code := code.toUInt8 }
    | none => error
  let err ← error.err.assignMsg msg
  Res.ok { error with err := err }

/-- `err`: parses the message. -/
def errStr (error : ErrorMsg) : Result Str :=
  cCharsToStr error.err

end ErrorMsg

/-!
## Truncated text
-/

/-- The text that is read starts the message, and is all of it if it fits. -/
def Survives (n : Nat) (msg : Str) (read : Result Str) : Prop :=
  exists t, read = Res.ok t ∧ t.bytes <+: msg.bytes ∧ (msg.len < n -> t = msg)

namespace CChars

variable {n : Nat} {msg : Str} {chars chars' : CChars n}

theorem set_eq_ok {ε : Type} {b old : UInt8} {front back : List UInt8}
    (hchars : chars.bytes = front ++ old :: back) :
    exists chars' : CChars n,
      (chars.set front.length b : Res ε (CChars n)) = Res.ok chars' ∧
      chars'.bytes = (front ++ [b]) ++ back := by
  have hin : front.length < n := by
    have hall := congrArg List.length hchars
    rw [chars.length_eq, List.length_append, List.length_cons] at hall
    omega
  rw [set, if_pos hin]
  refine ⟨_, rfl, ?_⟩
  dsimp only
  rw [hchars, List.set_append_right _ _ (Nat.le_refl _), Nat.sub_self,
    List.append_assoc]
  rfl

/-- Assigning bytes replaces those that were there. -/
theorem assign_eq_ok {ε : Type} {bytes front mid back : List UInt8}
    (hchars : chars.bytes = front ++ (mid ++ back))
    (hlen : mid.length = bytes.length) :
    exists chars' : CChars n,
      (chars.assign front.length bytes : Res ε (CChars n)) = Res.ok chars' ∧
      chars'.bytes = front ++ (bytes ++ back) := by
  induction bytes generalizing chars front mid with
  | nil =>
      rw [List.length_eq_zero_iff.mp hlen] at hchars
      exact ⟨chars, rfl, hchars⟩
  | cons b bytes ih =>
      cases mid with
      | nil => cases hlen
      | cons old mid =>
          rcases set_eq_ok (ε := ε) (b := b) hchars with
            ⟨chars1, hset, hbytes1⟩
          rcases ih hbytes1 (Nat.succ_injective hlen) with
            ⟨chars', hassign, hbytes⟩
          rw [List.length_append] at hassign
          rw [assign, hset, Res.ok_bind]
          refine ⟨chars', hassign, ?_⟩
          rw [hbytes, List.append_assoc]
          rfl

/-- The loop ends without a panic and leaves the message and NULs. -/
theorem assignMsg_eq_ok {ε : Type} (hpos : 0 < n) (msg : Str) :
    exists chars : CChars n, (zeroed n).assignMsg (ε := ε) msg =
        Res.ok chars ∧
      chars.bytes = msg.bytes.take (n - 1) ++
        List.replicate (n - (msg.bytes.take (n - 1)).length) 0 := by
  have hle : (msg.bytes.take (n - 1)).length ≤ n - 1 := by
    rw [List.length_take]
    exact Nat.min_le_left _ _
  have hzeros : (zeroed n).bytes = [] ++
      (List.replicate (msg.bytes.take (n - 1)).length 0 ++
        List.replicate (n - (msg.bytes.take (n - 1)).length) 0) := by
    rw [List.nil_append, List.replicate_append_replicate,
      Nat.add_sub_cancel' (by omega)]
    rfl
  exact assign_eq_ok hzeros List.length_replicate

/-- The message survives exactly if it is not cut inside of a character. -/
theorem survives_assignMsg_iff {ε : Type} (hpos : 0 < n)
    (hnul : 0 ∉ msg.bytes)
    (h : (zeroed n).assignMsg (ε := ε) msg = Res.ok chars) :
    Survives n msg (cCharsToStr chars) <->
      msg.isCharBoundary (min (n - 1) msg.len) = true := by
  rcases assignMsg_eq_ok (ε := ε) hpos msg with ⟨chars', hassign, hbytes⟩
  rw [h] at hassign
  cases hassign
  have hnul' : 0 ∉ msg.bytes.take (n - 1) := by
    intro hmem
    exact hnul (List.mem_of_mem_take hmem)
  have hpad : 0 < n - (msg.bytes.take (n - 1)).length := by
    have hle := List.length_take_le (n - 1) msg.bytes
    omega
  rw [← Str.isUtf8_take_iff_isCharBoundary]
  constructor
  · intro hsurvives
    rcases hsurvives with ⟨t, hread, _⟩
    exact ((cCharsToStr_padded hbytes hnul' hpad).mp hread).1
  · intro hvalid
    refine ⟨⟨msg.bytes.take (n - 1), hvalid⟩,
      (cCharsToStr_padded hbytes hnul' hpad).mpr ⟨hvalid, rfl⟩,
      List.take_prefix _ _, ?_⟩
    intro hshort
    apply Str.ext
    apply List.take_of_length_le
    unfold Str.len at hshort
    omega

end CChars

/-- The messages of both constructors, which never panic. -/
theorem V1.ErrorMsg.new_eq_ok (tsEvent : UInt64) (msg : Str) :
    exists error : V1.ErrorMsg, V1.ErrorMsg.new tsEvent msg = Res.ok error ∧
      (CChars.zeroed 64).assignMsg (ε := Error) msg = Res.ok error.err := by
  rcases CChars.assignMsg_eq_ok (n := 64) (ε := Error) (by decide) msg with
    ⟨chars, hassign, _⟩
  unfold V1.ErrorMsg.new
  dsimp only
  rw [hassign]
  exact ⟨_, rfl, rfl⟩

theorem ErrorMsg.new_eq_ok (tsEvent : UInt64) (code : Option ErrorCode)
    (msg : Str) (isLast : Bool) :
    exists error : ErrorMsg,
      ErrorMsg.new tsEvent code msg isLast = Res.ok error ∧
      (CChars.zeroed 302).assignMsg (ε := Error) msg = Res.ok error.err := by
  rcases CChars.assignMsg_eq_ok (n := 302) (ε := Error) (by decide) msg with
    ⟨chars, hassign, _⟩
  unfold ErrorMsg.new
  cases code with
  | none =>
      dsimp only
      rw [hassign]
      exact ⟨_, rfl, rfl⟩
  | some code =>
      dsimp only
      rw [hassign]
      exact ⟨_, rfl, rfl⟩

/--
In both versions the text of a message without NULs survives exactly if the
end of the field is not inside of one of its characters.
-/
theorem errStr_survives_iff (msg : Str) (hnul : 0 ∉ msg.bytes)
    (tsEvent : UInt64) (code : Option ErrorCode) (isLast : Bool) :
    (exists error : V1.ErrorMsg, V1.ErrorMsg.new tsEvent msg = Res.ok error ∧
      (Survives 64 msg error.errStr <->
        msg.isCharBoundary (min 63 msg.len) = true)) ∧
    (exists error : ErrorMsg,
      ErrorMsg.new tsEvent code msg isLast = Res.ok error ∧
      (Survives 302 msg error.errStr <->
        msg.isCharBoundary (min 301 msg.len) = true)) := by
  constructor
  · rcases V1.ErrorMsg.new_eq_ok tsEvent msg with ⟨error, hnew, hassign⟩
    exact ⟨error, hnew,
      CChars.survives_assignMsg_iff (by decide) hnul hassign⟩
  · rcases ErrorMsg.new_eq_ok tsEvent code msg isLast with
      ⟨error, hnew, hassign⟩
    exact ⟨error, hnew,
      CChars.survives_assignMsg_iff (by decide) hnul hassign⟩

/-- The message `"é"`, which is shorter than both fields. -/
theorem errStr_survives_iff_short :
    (exists error : V1.ErrorMsg,
      V1.ErrorMsg.new 0 ⟨[0xC3, 0xA9], by decide⟩ = Res.ok error ∧
      (Survives 64 ⟨[0xC3, 0xA9], by decide⟩ error.errStr <->
        Str.isCharBoundary ⟨[0xC3, 0xA9], by decide⟩ 2 = true)) ∧
    (exists error : ErrorMsg,
      ErrorMsg.new 0 none ⟨[0xC3, 0xA9], by decide⟩ true = Res.ok error ∧
      (Survives 302 ⟨[0xC3, 0xA9], by decide⟩ error.errStr <->
        Str.isCharBoundary ⟨[0xC3, 0xA9], by decide⟩ 2 = true)) :=
  errStr_survives_iff ⟨[0xC3, 0xA9], by decide⟩ (by decide) 0 none true

/-- The character `é` 151 times. -/
def repeatedE : Str :=
  ⟨(List.replicate 151 [0xC3, 0xA9]).flatten, by decide +kernel⟩

/-- A message of 302 bytes is cut inside of a character in both versions. -/
theorem not_survives_repeatedE :
    0 ∉ repeatedE.bytes ∧
    (exists error : V1.ErrorMsg, V1.ErrorMsg.new 0 repeatedE = Res.ok error ∧
      ¬ Survives 64 repeatedE error.errStr) ∧
    (exists error : ErrorMsg,
      ErrorMsg.new 0 none repeatedE true = Res.ok error ∧
      ¬ Survives 302 repeatedE error.errStr) := by
  have hnul : 0 ∉ repeatedE.bytes := by decide +kernel
  refine ⟨hnul, ?_, ?_⟩
  · rcases V1.ErrorMsg.new_eq_ok 0 repeatedE with ⟨error, hnew, hassign⟩
    refine ⟨error, hnew, ?_⟩
    unfold V1.ErrorMsg.errStr
    rw [CChars.survives_assignMsg_iff (by decide) hnul hassign]
    decide +kernel
  · rcases ErrorMsg.new_eq_ok 0 none repeatedE true with
      ⟨error, hnew, hassign⟩
    refine ⟨error, hnew, ?_⟩
    unfold ErrorMsg.errStr
    rw [CChars.survives_assignMsg_iff (by decide) hnul hassign]
    decide +kernel

end Dbn
