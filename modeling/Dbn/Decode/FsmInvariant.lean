import Dbn.Decode.RecordStream

/-!
# The invariant of the state machine

Between two calls the compatibility buffer holds nothing but the upgraded
records that were handed out last, and what is to be consumed is there.  One
call of `process` in the record phase is one step of the abstract machine.
-/

namespace Dbn
namespace DbnFsm

open Lib

variable {B : Type} [Buffer B]

/-- The invariant of the state machine. -/
def Inv (fsm : DbnFsm B) : Prop :=
  match fsm.state with
  | .prelude => Buffer.data fsm.compatBuffer = []
  | .metadata _ =>
      Buffer.data fsm.compatBuffer = [] ∧
        SupportedVersion fsm.inputDbnVersion ∧ fsm.inputDbnVersion ≠ none
  | .record =>
      Buffer.data fsm.compatBuffer = [] ∧ SupportedVersion fsm.inputDbnVersion
  | .consume read compat compatFill _ =>
      read ≤ (Buffer.data fsm.buffer).length ∧
        (Buffer.data fsm.compatBuffer).length + compatFill = compat ∧
        compatFill ≤ Buffer.availableSpace fsm.compatBuffer ∧
        SupportedVersion fsm.inputDbnVersion

/-- The machine has decoded or skipped the metadata. -/
def RecordPhase (fsm : DbnFsm B) : Prop :=
  fsm.hasDecodedMetadata = true

omit [Buffer B] in
theorem recordPhase_iff {fsm : DbnFsm B} :
    fsm.RecordPhase <-> fsm.state = .record ∨
      exists read compat compatFill expandCompat,
        fsm.state = .consume read compat compatFill expandCompat := by
  unfold RecordPhase hasDecodedMetadata
  cases fsm.state <;> simp

theorem Inv.compat_nil {fsm : DbnFsm B} (h : fsm.Inv)
    (hstate : fsm.state = .record) : Buffer.data fsm.compatBuffer = [] := by
  unfold Inv at h
  rw [hstate] at h
  exact h.1

theorem Inv.supportedVersion {fsm : DbnFsm B} (h : fsm.Inv)
    (hphase : fsm.RecordPhase) : SupportedVersion fsm.inputDbnVersion := by
  unfold Inv at h
  rcases recordPhase_iff.mp hphase with hrec | ⟨_, _, _, _, hcons⟩
  · rw [hrec] at h
    exact h.2
  · rw [hcons] at h
    exact h.2.2.2

/-!
## Appending to the unprocessed data
-/

/-- The machine `fsm'` is `fsm` with bytes appended to its data. -/
structure Appends (fsm : DbnFsm B) (bytes : List UInt8) (fsm' : DbnFsm B) :
    Prop where
  inputDbnVersion : fsm'.inputDbnVersion = fsm.inputDbnVersion
  upgradePolicy : fsm'.upgradePolicy = fsm.upgradePolicy
  tsOut : fsm'.tsOut = fsm.tsOut
  data : fsm'.data = fsm.data ++ bytes
  inv : fsm'.Inv
  recordPhase : fsm'.RecordPhase <-> fsm.RecordPhase
  state : ¬ fsm.RecordPhase -> fsm'.state = fsm.state

theorem Appends.trans {fsm1 fsm2 fsm3 : DbnFsm B} {a b : List UInt8}
    (h12 : fsm1.Appends a fsm2) (h23 : fsm2.Appends b fsm3) :
    fsm1.Appends (a ++ b) fsm3 where
  inputDbnVersion := h23.inputDbnVersion.trans h12.inputDbnVersion
  upgradePolicy := h23.upgradePolicy.trans h12.upgradePolicy
  tsOut := h23.tsOut.trans h12.tsOut
  data := by rw [h23.data, h12.data, List.append_assoc]
  inv := h23.inv
  recordPhase := h23.recordPhase.trans h12.recordPhase
  state := by
    intro h
    rw [h23.state (by rwa [h12.recordPhase]), h12.state h]

/-- The invariant is about the compatibility buffer and the data only. -/
theorem inv_with_buffer {fsm : DbnFsm B} (hinv : fsm.Inv) {buffer : B}
    (hlen : (Buffer.data fsm.buffer).length ≤ (Buffer.data buffer).length) :
    { fsm with buffer := buffer }.Inv := by
  unfold Inv at hinv ⊢
  dsimp only
  cases hstate : fsm.state with
  | prelude => simpa [hstate] using hinv
  | metadata length => simpa [hstate] using hinv
  | record => simpa [hstate] using hinv
  | consume read compat compatFill expandCompat =>
      simp only [hstate] at hinv ⊢
      exact ⟨Nat.le_trans hinv.1 hlen, hinv.2⟩

/-- Replacing the buffer by one with more data. -/
theorem appends_with_buffer {fsm : DbnFsm B} (hinv : fsm.Inv) {buffer : B}
    {bytes : List UInt8}
    (hdata : Buffer.data buffer = Buffer.data fsm.buffer ++ bytes) :
    fsm.Appends bytes { fsm with buffer := buffer } where
  inputDbnVersion := rfl
  upgradePolicy := rfl
  tsOut := rfl
  data := by
    unfold data
    dsimp only
    rw [hdata]
    split
    · next read _ _ _ hstate =>
        unfold Inv at hinv
        rw [hstate] at hinv
        exact List.drop_append_of_le_length hinv.1
    · rfl
  inv := by
    apply inv_with_buffer hinv
    rw [hdata, List.length_append]
    omega
  recordPhase := Iff.rfl
  state := fun _ => rfl

/-!
## Deferred consumption
-/

section Settle

variable (fsm : DbnFsm B)

theorem settle_eq_self (h : fsm.state = .record) : fsm.settle = fsm := by
  unfold settle
  rw [h]

theorem settle_eq_consume {fsm : DbnFsm B} {read compat compatFill : Nat}
    {expandCompat : Bool}
    (h : fsm.state = .consume read compat compatFill expandCompat) :
    fsm.settle = fsm.consume read compat compatFill expandCompat := by
  unfold settle
  rw [h]

@[simp] theorem consume_fields (read compat compatFill : Nat)
    (expandCompat : Bool) :
    (fsm.consume read compat compatFill expandCompat).buffer =
        Buffer.consume fsm.buffer read ∧
      (fsm.consume read compat compatFill expandCompat).state = .record ∧
      (fsm.consume read compat compatFill expandCompat).inputDbnVersion =
        fsm.inputDbnVersion ∧
      (fsm.consume read compat compatFill expandCompat).upgradePolicy =
        fsm.upgradePolicy ∧
      (fsm.consume read compat compatFill expandCompat).tsOut =
        fsm.tsOut := by
  unfold consume
  cases expandCompat <;> simp [doubleCompatBuffer]

@[simp] theorem settle_inputDbnVersion :
    fsm.settle.inputDbnVersion = fsm.inputDbnVersion := by
  unfold settle
  split <;> simp

@[simp] theorem settle_upgradePolicy :
    fsm.settle.upgradePolicy = fsm.upgradePolicy := by
  unfold settle
  split <;> simp

@[simp] theorem settle_tsOut : fsm.settle.tsOut = fsm.tsOut := by
  unfold settle
  split <;> simp

theorem state_settle {fsm : DbnFsm B} (h : fsm.RecordPhase) :
    fsm.settle.state = .record := by
  rcases recordPhase_iff.mp h with hrec | ⟨_, _, _, _, hcons⟩
  · rw [settle_eq_self fsm hrec, hrec]
  · rw [settle_eq_consume hcons]
    simp

theorem data_eq_buffer {fsm : DbnFsm B} (h : fsm.state = .record) :
    fsm.data = Buffer.data fsm.buffer := by
  unfold data
  rw [h]

variable [LawfulBuffer B]

@[simp] theorem data_settle : fsm.settle.data = fsm.data := by
  unfold settle
  split
  · next hstate => simp [data, hstate]
  · rfl

theorem capacity_settle :
    Buffer.capacity fsm.settle.buffer = Buffer.capacity fsm.buffer := by
  unfold settle
  split <;> simp

theorem data_buffer_settle {fsm : DbnFsm B} (h : fsm.RecordPhase) :
    Buffer.data fsm.settle.buffer = fsm.data := by
  rw [← data_settle, data_eq_buffer (state_settle h)]

end Settle

variable [LawfulBuffer B]

/-- After the records were consumed the compatibility buffer is empty. -/
theorem data_compat_consume {fsm : DbnFsm B} {compat compatFill : Nat}
    (read : Nat) (expandCompat : Bool)
    (hlen : (Buffer.data fsm.compatBuffer).length + compatFill = compat)
    (hfits : compatFill ≤ Buffer.availableSpace fsm.compatBuffer) :
    Buffer.data (fsm.consume read compat compatFill expandCompat).compatBuffer =
      [] := by
  have hspace := LawfulBuffer.length_space fsm.compatBuffer
  have hdata : forall b : B, (Buffer.data b).length = compat ->
      Buffer.data (if compat > 0 then Buffer.consume b compat else b) = [] := by
    intro b hb
    split
    · rw [LawfulBuffer.data_consume, ← hb, List.drop_length]
    · exact List.length_eq_zero_iff.mp (by omega)
  have hfilled : (Buffer.data (if compatFill > 0 then
      Buffer.fill fsm.compatBuffer compatFill else fsm.compatBuffer)).length =
      compat := by
    split
    · rw [LawfulBuffer.data_fill, List.length_append, List.length_take]
      omega
    · omega
  have hconsumed := hdata _ hfilled
  unfold consume
  cases expandCompat <;> simpa [doubleCompatBuffer] using hconsumed

theorem inv_settle {fsm : DbnFsm B} (h : fsm.Inv) : fsm.settle.Inv := by
  unfold settle
  split
  · next read compat compatFill expandCompat hstate =>
      unfold Inv at h
      rw [hstate] at h
      rcases h with ⟨_, hlen, hfits, hversion⟩
      have hdata := data_compat_consume read expandCompat hlen hfits
      unfold Inv
      simp [hdata, hversion]
  · exact h

theorem inv_build {b : DbnFsmBuilder} {fsm : DbnFsm B}
    (h : b.build = Res.ok fsm) : fsm.Inv := by
  have hversion : SupportedVersion (b.inputDbnVersion.map Subtype.val) := by
    intro v hv
    obtain ⟨version, _, rfl⟩ := Option.map_eq_some_iff.mp hv
    exact version.property.2
  rw [DbnFsmBuilder.build_eq_ok h]
  unfold Inv
  cases b.skipMetadata with
  | false => simp
  | true => simpa using hversion

/-!
## Writing into the buffer
-/

theorem appends_settle {fsm : DbnFsm B} (hinv : fsm.Inv) :
    fsm.Appends [] fsm.settle where
  inputDbnVersion := fsm.settle_inputDbnVersion
  upgradePolicy := fsm.settle_upgradePolicy
  tsOut := fsm.settle_tsOut
  data := by rw [data_settle, List.append_nil]
  inv := inv_settle hinv
  recordPhase := by
    unfold settle
    split
    · next hstate =>
        simp [RecordPhase, hasDecodedMetadata, hstate]
    · exact Iff.rfl
  state := by
    intro h
    unfold settle
    split
    · next hstate =>
        exact absurd (recordPhase_iff.mpr (Or.inr ⟨_, _, _, _, hstate⟩)) h
    · rfl

theorem appends_reserve {fsm : DbnFsm B} (hinv : fsm.Inv) (len : Nat) :
    fsm.Appends [] (fsm.reserve len) := by
  have hself : fsm.Appends [] fsm :=
    appends_with_buffer hinv (List.append_nil _).symm
  unfold reserve
  split
  · dsimp only
    split
    · apply (appends_settle hinv).trans
      exact appends_with_buffer (inv_settle hinv) (by simp)
    · exact appends_settle hinv
  · exact hself

theorem le_spaceLen_reserve (fsm : DbnFsm B) (len : Nat) :
    len ≤ (fsm.reserve len).spaceLen := by
  unfold reserve
  split
  · dsimp only
    split
    · have hlayout := LawfulBuffer.layout fsm.settle.buffer
      unfold spaceLen
      rw [Buffer.availableSpace_eq]
      simp only [LawfulBuffer.capacity_grow, LawfulBuffer.position_grow,
        LawfulBuffer.data_grow]
      omega
    · omega
  · omega

/-- A read into `space()` followed by `fill`. -/
theorem appends_fill {fsm : DbnFsm B} (hinv : fsm.Inv) {bytes : List UInt8}
    (hfits : bytes.length ≤ fsm.spaceLen) :
    fsm.Appends bytes ((fsm.writeSpace bytes).fill bytes.length) :=
  appends_with_buffer hinv (Buffer.data_append hfits)

theorem appends_writeAll {fsm : DbnFsm B} (hinv : fsm.Inv)
    (bytes : List UInt8) : fsm.Appends bytes (fsm.writeAll bytes) := by
  have hreserve := appends_reserve hinv bytes.length
  exact hreserve.trans
    (appends_fill hreserve.inv (fsm.le_spaceLen_reserve bytes.length))

end DbnFsm
end Dbn
