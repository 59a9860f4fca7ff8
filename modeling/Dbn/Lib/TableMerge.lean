import Dbn.Lib.HashTable

/-!
# Merging tables

Entries are added to a table one by one; a value that is there already is
combined with the new one, which may fail.  With distinct keys the result is
the combination of the two tables key by key, so the order of the two tables
does not matter when the combination of two values does not depend on it.
-/

namespace Dbn
namespace Lib

/-!
## Calls that agree
-/

/-- Both calls return, with related values, or both fail. -/
inductive OkAlike {ε α β : Type} (R : α -> β -> Prop) :
    Except ε α -> Except ε β -> Prop where
  | ok {a : α} {b : β} (related : R a b) :
      OkAlike R (Except.ok a) (Except.ok b)
  | error (e e' : ε) : OkAlike R (Except.error e) (Except.error e')

namespace OkAlike

variable {ε α β γ δ : Type} {R : α -> β -> Prop} {S : γ -> δ -> Prop}

theorem refl (x : Except ε α) : OkAlike Eq x x := by
  cases x with
  | ok a => exact OkAlike.ok rfl
  | error e => exact OkAlike.error e e

theorem map {x : Except ε α} {y : Except ε β} {f : α -> γ} {g : β -> δ}
    (h : OkAlike R x y) (hrelated : forall a b, R a b -> S (f a) (g b)) :
    OkAlike S (x.map f) (y.map g) := by
  cases h with
  | ok related => exact OkAlike.ok (hrelated _ _ related)
  | error e e' => exact OkAlike.error e e'

theorem isOk_iff {x : Except ε α} {y : Except ε β} (h : OkAlike R x y) :
    (exists a, x = Except.ok a) <-> exists b, y = Except.ok b := by
  cases h with
  | ok related => exact ⟨fun _ => ⟨_, rfl⟩, fun _ => ⟨_, rfl⟩⟩
  | error e e' =>
      constructor
      · intro hx
        rcases hx with ⟨a, ha⟩
        cases ha
      · intro hy
        rcases hy with ⟨b, hb⟩
        cases hb

end OkAlike

/-!
## Merging
-/

namespace HashMap

variable {K V ε : Type} [DecidableEq K]

/-- Add an entry to a table. -/
def mergeEntry (combine : V -> V -> Except ε V) (table : HashMap K V)
    (e : K × V) : Except ε (HashMap K V) :=
  match table.lookup e.1 with
  | none => Except.ok (table.insert e.1 e.2)
  | some v => do
      let merged ← combine v e.2
      Except.ok (table.insert e.1 merged)

/-- What a key has after a merge. -/
def mergeValue (combine : V -> V -> Except ε V) :
    Option V -> Option V -> Except ε (Option V)
  | none, y => Except.ok y
  | x, none => Except.ok x
  | some x, some y => (combine x y).map some

variable {combine : V -> V -> Except ε V}

theorem mergeValue_none (combine : V -> V -> Except ε V) (x : Option V) :
    mergeValue combine x none = Except.ok x := by
  cases x <;> rfl

/-- A key that an entry is added for has a value. -/
theorem exists_of_mergeValue {x value : Option V} {v : V}
    (h : mergeValue combine x (some v) = Except.ok value) :
    exists merged, value = some merged := by
  cases x with
  | none =>
      cases h
      exact ⟨v, rfl⟩
  | some x =>
      unfold mergeValue at h
      dsimp only at h
      cases hcombine : combine x v with
      | error e =>
          rw [hcombine] at h
          cases h
      | ok merged =>
          rw [hcombine] at h
          cases h
          exact ⟨merged, rfl⟩

/-- A step changes the value of one key. -/
theorem mergeEntry_eq (table : HashMap K V) (k : K) (v : V) :
    mergeEntry combine table (k, v) =
      match mergeValue combine (table.lookup k) (some v) with
      | Except.error e => Except.error e
      | Except.ok none => Except.ok table
      | Except.ok (some merged) => Except.ok (table.insert k merged) := by
  unfold mergeEntry
  dsimp only
  cases table.lookup k with
  | none => rfl
  | some x =>
      unfold mergeValue
      dsimp only
      cases combine x v <;> rfl

/-- With distinct keys a table is merged key by key. -/
theorem foldlM_mergeEntry (combine : V -> V -> Except ε V)
    {added : List (K × V)}
    (hnodup : (added.map Prod.fst).Nodup) (table : HashMap K V) :
    (exists table', added.foldlM (mergeEntry combine) table =
        Except.ok table' ∧
      forall k, mergeValue combine (table.lookup k) (lastValue added k) =
        Except.ok (table'.lookup k)) ∨
    (exists e, added.foldlM (mergeEntry combine) table = Except.error e ∧
      exists k e', mergeValue combine (table.lookup k) (lastValue added k) =
        Except.error e') := by
  induction added generalizing table with
  | nil =>
      left
      refine ⟨table, rfl, ?_⟩
      intro k
      exact mergeValue_none combine _
  | cons entry added ih =>
      rcases entry with ⟨k, v⟩
      rw [List.map_cons, List.nodup_cons] at hnodup
      have hnone : lastValue added k = none :=
        lastValue_eq_none.mpr hnodup.1
      have hhere : lastValue ((k, v) :: added) k = some v := by
        rw [lastValue_cons, hnone]
        simp
      have hother : forall k', k' ≠ k ->
          lastValue ((k, v) :: added) k' = lastValue added k' := by
        intro k' hne
        rw [lastValue_cons, if_neg (Ne.symm hne), Option.or_none]
      rw [List.foldlM_cons, mergeEntry_eq]
      cases hmerge : mergeValue combine (table.lookup k) (some v) with
      | error e =>
          right
          refine ⟨e, rfl, k, e, ?_⟩
          rw [hhere, hmerge]
      | ok value =>
          rcases exists_of_mergeValue hmerge with ⟨merged, rfl⟩
          have hkept : forall k', k' ≠ k ->
              (table.insert k merged).lookup k' = table.lookup k' :=
            fun k' hne => AList.lookup_insert_ne hne
          rcases ih hnodup.2 (table.insert k merged) with
            ⟨table', hfold, hvalues⟩ | ⟨e, hfold, k', e', herror⟩
          · left
            refine ⟨table', hfold, ?_⟩
            intro k'
            by_cases heq : k' = k
            · have hvalue := hvalues k
              rw [hnone, AList.lookup_insert] at hvalue
              rw [heq, hhere, hmerge]
              exact hvalue
            · rw [hother k' heq, ← hkept k' heq]
              exact hvalues k'
          · right
            refine ⟨e, hfold, k', e', ?_⟩
            have heq : k' ≠ k := by
              rintro rfl
              rw [hnone, mergeValue_none] at herror
              cases herror
            rw [hother k' heq, ← hkept k' heq]
            exact herror

/-- Values that can be combined in either order. -/
theorem mergeValue_comm {x y : Option V}
    (h : forall v w, x = some v -> y = some w ->
      OkAlike Eq (combine v w) (combine w v)) :
    OkAlike Eq (mergeValue combine x y) (mergeValue combine y x) := by
  cases x with
  | none =>
      rw [mergeValue_none]
      exact OkAlike.refl _
  | some v =>
      cases y with
      | none => exact OkAlike.refl _
      | some w =>
          apply (h v w rfl rfl).map
          intro a b hab
          rw [hab]

/--
The entries of one list merged into the table of another one: the order of the
two does not matter if that of two values of one key does not.
-/
theorem foldlM_mergeEntry_comm {l l' : List (K × V)}
    (hl : (l.map Prod.fst).Nodup) (hl' : (l'.map Prod.fst).Nodup)
    (hcombine : forall k v w, (k, v) ∈ l -> (k, w) ∈ l' ->
      OkAlike Eq (combine v w) (combine w v)) :
    OkAlike (fun table table' => forall k, table.lookup k = table'.lookup k)
      (l'.foldlM (mergeEntry combine) (ofEntries l))
      (l.foldlM (mergeEntry combine) (ofEntries l')) := by
  have hcomm : forall k, OkAlike Eq
      (mergeValue combine (lastValue l k) (lastValue l' k))
      (mergeValue combine (lastValue l' k) (lastValue l k)) := by
    intro k
    apply mergeValue_comm
    intro v w hv hw
    exact hcombine k v w (mem_of_lastValue hv) (mem_of_lastValue hw)
  have hleft := foldlM_mergeEntry combine hl' (ofEntries l)
  have hright := foldlM_mergeEntry combine hl (ofEntries l')
  simp only [lookup_ofEntries_eq_lastValue] at hleft hright
  rcases hleft with ⟨table, hfold, hvalues⟩ | ⟨e, hfold, k, e', herror⟩
  · rcases hright with ⟨table', hfold', hvalues'⟩ | ⟨_, _, k, e', herror⟩
    · rw [hfold, hfold']
      apply OkAlike.ok
      intro k
      have hk := hcomm k
      rw [hvalues k, hvalues' k] at hk
      cases hk with
      | ok related => exact related
    · have hk := hcomm k
      rw [hvalues k, herror] at hk
      cases hk
  · rcases hright with ⟨table', hfold', hvalues'⟩ | ⟨e', hfold', _⟩
    · have hk := hcomm k
      rw [herror, hvalues' k] at hk
      cases hk
    · rw [hfold, hfold']
      exact OkAlike.error e e'

/-- Tables with the same values have the same entries. -/
theorem entries_perm {table table' : HashMap K V}
    (h : forall k, table.lookup k = table'.lookup k) :
    table.entries.Perm table'.entries := by
  apply List.lookup_ext table.nodupKeys table'.nodupKeys
  intro k v
  have hk := h k
  unfold AList.lookup at hk
  rw [hk]

end HashMap

namespace HashSet

variable {K : Type} [DecidableEq K]

theorem nodup_extend {set : List K} (h : set.Nodup) (added : List K) :
    (extend set added).Nodup := by
  unfold extend
  induction added generalizing set with
  | nil => exact h
  | cons k added ih => exact ih h.insert

/-- A union does not depend on the order of its parts. -/
theorem extend_perm_comm (l l' : List K) :
    (extend (extend [] l) l').Perm (extend (extend [] l') l) := by
  have hnodup : forall l l' : List K, (extend (extend [] l) l').Nodup :=
    fun l l' => nodup_extend (nodup_extend List.nodup_nil l) l'
  rw [List.perm_ext_iff_of_nodup (hnodup l l') (hnodup l' l)]
  intro k
  simp only [mem_extend, List.not_mem_nil, false_or]
  exact Or.comm

end HashSet

end Lib
end Dbn
