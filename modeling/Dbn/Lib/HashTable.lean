import Mathlib.Data.List.AList
import Mathlib.Data.List.Induction

/-!
# Hash tables

A hash map is a list of entries in which no key occurs twice, a hash set a
list without duplicates.  The order in which a table is iterated is not
specified, so it is a parameter.
-/

namespace Dbn
namespace Lib

/-- The order in which the entries of a table are visited. -/
class HashOrder where
  order : {α : Type} -> List α -> List α
  order_perm : forall {α : Type} (l : List α), (order l).Perm l

/-- A map from keys to values. -/
abbrev HashMap (K V : Type) := AList (fun _ : K => V)

namespace HashMap

variable {K V : Type} [DecidableEq K]

/-- Entries that come later replace those before them. -/
def ofEntries (entries : List (K × V)) : HashMap K V :=
  entries.foldl (fun table e => table.insert e.1 e.2) ∅

/-- The entries in the order of iteration. -/
def intoIter [HashOrder] (table : HashMap K V) : List (K × V) :=
  HashOrder.order (table.entries.map (fun e => (e.1, e.2)))

theorem lookup_foldl_insert {entries : List (K × V)} {table : HashMap K V}
    {k : K} (h : k ∉ entries.map Prod.fst) :
    (entries.foldl (fun table e => table.insert e.1 e.2) table).lookup k =
      table.lookup k := by
  induction entries generalizing table with
  | nil => rfl
  | cons e entries ih =>
      rw [List.map_cons, List.mem_cons, not_or] at h
      rw [List.foldl_cons, ih h.2, AList.lookup_insert_ne h.1]

/-- With distinct keys a table has exactly the entries it was made of. -/
theorem lookup_ofEntries {entries : List (K × V)}
    (hnodup : (entries.map Prod.fst).Nodup) {k : K} {v : V} :
    (ofEntries entries).lookup k = some v <-> (k, v) ∈ entries := by
  unfold ofEntries
  suffices h : forall table : HashMap K V,
      (forall k', k' ∈ entries.map Prod.fst -> table.lookup k' = none) ->
      ((entries.foldl (fun table e => table.insert e.1 e.2) table).lookup k =
        some v <-> (k, v) ∈ entries ∨ table.lookup k = some v) by
    rw [h ∅ (fun _ _ => rfl)]
    constructor
    · intro hor
      rcases hor with hmem | hnone
      · exact hmem
      · cases hnone
    · exact Or.inl
  induction entries with
  | nil =>
      intro table _
      rw [List.foldl_nil]
      constructor
      · exact Or.inr
      · intro hor
        rcases hor with hmem | hlookup
        · cases hmem
        · exact hlookup
  | cons e entries ih =>
      intro table htable
      rcases e with ⟨k', v'⟩
      rw [List.map_cons, List.nodup_cons] at hnodup
      rw [List.foldl_cons]
      by_cases hk : k = k'
      · rw [← hk, lookup_foldl_insert (by rw [hk]; exact hnodup.1),
          AList.lookup_insert]
        have hnone := htable k' List.mem_cons_self
        have hnot : forall w, (k', w) ∉ entries := by
          intro w hw
          exact hnodup.1 (List.mem_map.mpr ⟨_, hw, rfl⟩)
        rw [hk, hnone, List.mem_cons]
        constructor
        · intro heq
          cases heq
          exact Or.inl (Or.inl rfl)
        · intro hor
          rcases hor with (heq | hmem) | hsome
          · cases heq
            rfl
          · exact absurd hmem (hnot v)
          · cases hsome
      · rw [ih hnodup.2, AList.lookup_insert_ne hk, List.mem_cons]
        · constructor
          · intro hor
            rcases hor with hmem | hlookup
            · exact Or.inl (Or.inr hmem)
            · exact Or.inr hlookup
          · intro hor
            rcases hor with (heq | hmem) | hlookup
            · cases heq
              exact absurd rfl hk
            · exact Or.inl hmem
            · exact Or.inr hlookup
        · intro k'' hk''
          have hne : k'' ≠ k' := by
            intro heq
            rw [heq] at hk''
            exact hnodup.1 hk''
          rw [AList.lookup_insert_ne hne]
          exact htable k'' (List.mem_cons_of_mem _ hk'')

/-- The value of the last entry with the key. -/
def lastValue (entries : List (K × V)) (k : K) : Option V :=
  (entries.reverse.find? (fun e => e.1 = k)).map Prod.snd

/-- A table has the last one of the entries with a key. -/
theorem lookup_ofEntries_eq_lastValue (entries : List (K × V)) (k : K) :
    (ofEntries entries).lookup k = lastValue entries k := by
  induction entries using List.reverseRecOn with
  | nil => rfl
  | append_singleton entries e ih =>
      unfold ofEntries lastValue at ih ⊢
      rw [List.foldl_append, List.foldl_cons, List.foldl_nil,
        List.reverse_append, List.reverse_singleton, List.singleton_append,
        List.find?_cons]
      by_cases hk : e.1 = k
      · rw [decide_eq_true hk, ← hk, AList.lookup_insert]
        rfl
      · rw [decide_eq_false hk, AList.lookup_insert_ne (Ne.symm hk)]
        exact ih

theorem lastValue_append (l l' : List (K × V)) (k : K) :
    lastValue (l ++ l') k = (lastValue l' k).or (lastValue l k) := by
  unfold lastValue
  rw [List.reverse_append, List.find?_append, Option.map_or]

theorem lastValue_cons (e : K × V) (l : List (K × V)) (k : K) :
    lastValue (e :: l) k =
      (lastValue l k).or (if e.1 = k then some e.2 else none) := by
  rw [← List.singleton_append, lastValue_append]
  unfold lastValue
  by_cases hk : e.1 = k <;> simp [hk]

theorem lastValue_eq_none {entries : List (K × V)} {k : K} :
    lastValue entries k = none <-> k ∉ entries.map Prod.fst := by
  unfold lastValue
  rw [Option.map_eq_none_iff, List.find?_eq_none, List.mem_map]
  constructor
  · intro h hmem
    rcases hmem with ⟨e, he, hk⟩
    exact h e (List.mem_reverse.mpr he) (decide_eq_true hk)
  · intro h e he hk
    exact h ⟨e, List.mem_reverse.mp he, of_decide_eq_true hk⟩

theorem mem_of_lastValue {entries : List (K × V)} {k : K} {v : V}
    (h : lastValue entries k = some v) : (k, v) ∈ entries := by
  unfold lastValue at h
  rcases Option.map_eq_some_iff.mp h with ⟨e, he, rfl⟩
  have hmem := List.mem_of_find?_eq_some he
  have hkey : e.1 = k := by simpa using List.find?_some he
  rw [← hkey]
  exact List.mem_reverse.mp hmem

theorem lookup_iff_mem_entries {table : HashMap K V} {k : K} {v : V} :
    table.lookup k = some v <-> (k, v) ∈ table.entries.map
      (fun e => (e.1, e.2)) := by
  rw [← Option.mem_def, AList.mem_lookup_iff, List.mem_map]
  constructor
  · intro hmem
    exact ⟨_, hmem, rfl⟩
  · intro h
    rcases h with ⟨⟨k', v'⟩, hmem, heq⟩
    cases heq
    exact hmem

/-- Iteration visits the entries of the table. -/
theorem mem_intoIter [HashOrder] {table : HashMap K V} {k : K} {v : V} :
    (k, v) ∈ table.intoIter <-> table.lookup k = some v := by
  unfold intoIter
  rw [(HashOrder.order_perm _).mem_iff, lookup_iff_mem_entries]

end HashMap

/-!
## Sets
-/

namespace HashSet

variable {K : Type} [DecidableEq K]

/-- `extend`. -/
def extend (set added : List K) : List K :=
  added.foldl (fun set k => set.insert k) set

theorem mem_extend {set added : List K} {k : K} :
    k ∈ extend set added <-> k ∈ set ∨ k ∈ added := by
  unfold extend
  induction added generalizing set with
  | nil => simp
  | cons k' added ih =>
      rw [List.foldl_cons, ih, List.mem_insert_iff, List.mem_cons]
      constructor
      · intro h
        rcases h with (heq | hset) | hadded
        · exact Or.inr (Or.inl heq)
        · exact Or.inl hset
        · exact Or.inr (Or.inr hadded)
      · intro h
        rcases h with hset | heq | hadded
        · exact Or.inl (Or.inr hset)
        · exact Or.inl (Or.inl heq)
        · exact Or.inr hadded

omit [DecidableEq K] in
theorem mem_order [HashOrder] {set : List K} {k : K} :
    k ∈ HashOrder.order set <-> k ∈ set :=
  (HashOrder.order_perm set).mem_iff

end HashSet

end Lib
end Dbn
