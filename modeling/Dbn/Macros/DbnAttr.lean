import Dbn.Lib.Outcome
import Dbn.Lib.Placement
import Mathlib.Data.List.Pairwise
import Mathlib.Data.List.Sort

/-!
# The `dbn` attribute of a field

The derive macros of the text encoders take the fields of a record in the order
that the `encode_order` arguments ask for.  Tokens are parsed by another crate:
an attribute is given by the arguments that are found in it and by the error
that ends them.
-/

namespace Dbn
namespace Macros
namespace DbnAttr

open Lib

/-!
## Attributes and fields
-/

/-- An argument: its path, and what the integer in the parentheses behind it is
parsed to if there are parentheses. -/
structure NestedMeta where
  path : List String
  paren : Option (Except String Nat)

/-- `#[path(..)]`: the arguments in front of the first error of the parser. -/
structure MetaList where
  path : List String
  nested : List NestedMeta
  stop : Option String

inductive Meta where
  | path (path : List String)
  | list (list : MetaList)
  | nameValue (path : List String)

/-- A named field.  The visibility and the type of it are not looked at. -/
structure Field (T : Type) where
  ident : String
  attrs : List Meta
  ty : T

/-- An error of the parser, or one that points at the tokens of a field. -/
inductive SynError (T : Type) where
  | parse (message : String)
  | newSpanned (tokens : Field T) (message : String)

variable {σ T : Type}

/-- Go through the arguments.  The callback also tells whether it has read the
parentheses of the argument; a comma is expected otherwise. -/
def parseNested (logic : σ -> NestedMeta -> Except String (σ × Bool)) :
    List NestedMeta -> σ -> Except String σ
  | [], s => .ok s
  | nested :: rest, s => do
      let (s, consumed) <- logic s nested
      if nested.paren.isSome && !consumed then
        .error "expected `,`"
      else
        parseNested logic rest s

def MetaList.parseNestedMeta (list : MetaList)
    (logic : σ -> NestedMeta -> Except String (σ × Bool)) (s : σ) :
    Except String σ := do
  let s <- parseNested logic list.nested s
  match list.stop with
  | some message => .error message
  | none => .ok s

/-- `#[dbn(encode_order)]` or `#[dbn(encode_order(1))]`. -/
def encodeOrderArg (encodeOrder : Option Nat) (nested : NestedMeta) :
    Except String (Option Nat × Bool) :=
  if nested.path = ["encode_order"] then
    match nested.paren with
    | some lit => do
        let n <- lit
        .ok (some n, true)
    -- defaults to 0
    | none => .ok (some 0, false)
  else
    .ok (encodeOrder, false)

def findEncodeOrder : List Meta -> Except String (Option Nat)
  | [] => .ok none
  | .list list :: rest =>
      if list.path = ["dbn"] then
        list.parseNestedMeta encodeOrderArg none
      else
        findEncodeOrder rest
  | _ :: rest => findEncodeOrder rest

/-- The encode order that the first `dbn` attribute of a field gives. -/
def findEncodeOrderAttr (field : Field T) : Except String (Option Nat) :=
  findEncodeOrder field.attrs

/-!
## Sorting the fields
-/

/-- The fields with an encode order, unless an order is given twice. -/
def collectOrders : List (Field T) -> List Nat -> List (Nat × Field T) ->
    Res (SynError T) (List (Nat × Field T))
  | [], _, encodeOrderFields => .ok encodeOrderFields
  | field :: rest, encodeOrders, encodeOrderFields =>
      match findEncodeOrderAttr field with
      | .error message => .err (.parse message)
      | .ok none => collectOrders rest encodeOrders encodeOrderFields
      | .ok (some encodeOrder) =>
          if encodeOrder ∈ encodeOrders then
            .err (.newSpanned field
              s!"Specified duplicate encode order `{encodeOrder}` for field")
          else
            collectOrders rest (encodeOrder :: encodeOrders)
              (encodeOrderFields ++ [(encodeOrder, field)])

/-- Takes a field out of the list and puts it to its encode order. -/
def moveField (fields : List (Field T)) (move : Nat × Field T) :
    Res (SynError T) (List (Field T)) :=
  match fields.findIdx? (fun f => f.ident = move.2.ident) with
  | none => .panic .unwrapNone
  | some idx =>
      if idx < fields.length then
        let fields := fields.eraseIdx idx
        if move.1 ≥ fields.length then
          .ok (fields ++ [move.2])
        else
          .ok (fields.insertIdx move.1 move.2)
      else
        .panic .unwrapNone

def moveFields : List (Field T) -> List (Nat × Field T) ->
    Res (SynError T) (List (Field T))
  | fields, [] => .ok fields
  | fields, move :: rest => do
      let fields <- moveField fields move
      moveFields fields rest

/-- Parses and sorts the fields of a record according to the order specified
with `dbn` attributes. -/
def getSortedFields (fields : List (Field T)) :
    Res (SynError T) (List (Field T)) := do
  let encodeOrderFields <- collectOrders fields [] []
  moveFields fields (encodeOrderFields.insertionSort (fun a b => a.1 ≤ b.1))

/-!
## What is collected
-/

/-- The encode order of a field whose attributes parse. -/
def Field.encodeOrder (field : Field T) : Option Nat :=
  match findEncodeOrderAttr field with
  | .ok encodeOrder => encodeOrder
  | .error _ => none

/-- The attributes of a field do not parse. -/
def Field.Malformed (field : Field T) : Prop :=
  exists message, findEncodeOrderAttr field = .error message

/-- The fields with an encode order, as they are declared. -/
def orderedFields (fields : List (Field T)) : List (Nat × Field T) :=
  fields.filterMap (fun field =>
    field.encodeOrder.map (fun encodeOrder => (encodeOrder, field)))

/-- Two fields of different names have the same encode order. -/
def SameEncodeOrder (fields : List (Field T)) : Prop :=
  exists f g n, f ∈ fields ∧ g ∈ fields ∧ f.ident ≠ g.ident ∧
    f.encodeOrder = some n ∧ g.encodeOrder = some n

section Collect

variable {field : Field T} {fields rest : List (Field T)} {n : Nat}

theorem encodeOrder_of_ok {o : Option Nat}
    (h : findEncodeOrderAttr field = .ok o) : field.encodeOrder = o := by
  unfold Field.encodeOrder
  rw [h]

theorem orderedFields_cons_none (h : field.encodeOrder = none) :
    orderedFields (field :: rest) = orderedFields rest := by
  unfold orderedFields
  rw [List.filterMap_cons_none]
  rw [h]
  rfl

theorem orderedFields_cons_some (h : field.encodeOrder = some n) :
    orderedFields (field :: rest) = (n, field) :: orderedFields rest := by
  unfold orderedFields
  rw [List.filterMap_cons_some]
  rw [h]
  rfl

theorem mem_orderedFields {move : Nat × Field T} :
    move ∈ orderedFields fields <->
      move.2 ∈ fields ∧ move.2.encodeOrder = some move.1 := by
  unfold orderedFields
  rw [List.mem_filterMap]
  constructor
  · intro h
    rcases h with ⟨f, hf, hsome⟩
    rcases Option.map_eq_some_iff.mp hsome with ⟨n, horder, rfl⟩
    exact ⟨hf, horder⟩
  · intro h
    exists move.2
    constructor
    · exact h.1
    · rw [h.2]
      rfl

/-- The orders that are given are new and different from each other. -/
structure Fresh (fields : List (Field T)) (seen : List Nat) : Prop where
  wellFormed : forall field, field ∈ fields -> ¬ field.Malformed
  distinct : ((orderedFields fields).map Prod.fst).Nodup
  unseen : forall n, n ∈ (orderedFields fields).map Prod.fst -> n ∉ seen

theorem fresh_cons_none {seen : List Nat}
    (h : findEncodeOrderAttr field = .ok none) :
    Fresh (field :: rest) seen <-> Fresh rest seen := by
  have hcons : orderedFields (field :: rest) = orderedFields rest :=
    orderedFields_cons_none (encodeOrder_of_ok h)
  constructor
  · intro hfresh
    constructor
    · intro f hf
      exact hfresh.wellFormed f (List.mem_cons_of_mem field hf)
    · rw [← hcons]
      exact hfresh.distinct
    · rw [← hcons]
      exact hfresh.unseen
  · intro hfresh
    constructor
    · intro f hf
      rcases List.mem_cons.mp hf with rfl | hin
      · intro hbad
        rcases hbad with ⟨message, hbad⟩
        cases h.symm.trans hbad
      · exact hfresh.wellFormed f hin
    · rw [hcons]
      exact hfresh.distinct
    · rw [hcons]
      exact hfresh.unseen

theorem fresh_cons_some {seen : List Nat}
    (h : findEncodeOrderAttr field = .ok (some n)) :
    Fresh (field :: rest) seen <-> n ∉ seen ∧ Fresh rest (n :: seen) := by
  have hcons : orderedFields (field :: rest) =
      (n, field) :: orderedFields rest :=
    orderedFields_cons_some (encodeOrder_of_ok h)
  constructor
  · intro hfresh
    have hdistinct := hfresh.distinct
    rw [hcons, List.map_cons, List.nodup_cons] at hdistinct
    have hunseen := hfresh.unseen
    rw [hcons, List.map_cons] at hunseen
    constructor
    · exact hunseen n List.mem_cons_self
    · constructor
      · intro f hf
        exact hfresh.wellFormed f (List.mem_cons_of_mem field hf)
      · exact hdistinct.2
      · intro m hm hin
        rcases List.mem_cons.mp hin with rfl | hseen
        · exact hdistinct.1 hm
        · exact hunseen m (List.mem_cons_of_mem n hm) hseen
  · intro hboth
    rcases hboth with ⟨hnew, hfresh⟩
    constructor
    · intro f hf
      rcases List.mem_cons.mp hf with rfl | hin
      · intro hbad
        rcases hbad with ⟨message, hbad⟩
        cases h.symm.trans hbad
      · exact hfresh.wellFormed f hin
    · rw [hcons, List.map_cons, List.nodup_cons]
      constructor
      · intro hin
        exact hfresh.unseen n hin List.mem_cons_self
      · exact hfresh.distinct
    · rw [hcons]
      intro m hm
      rcases List.mem_cons.mp hm with rfl | hin
      · exact hnew
      · intro hseen
        exact hfresh.unseen m hin (List.mem_cons_of_mem n hseen)

/-- The fields with an encode order are collected, or there is an error. -/
theorem collectOrders_cases (fields : List (Field T)) (seen : List Nat)
    (found : List (Nat × Field T)) :
    (Fresh fields seen ∧
      collectOrders fields seen found = .ok (found ++ orderedFields fields)) ∨
    (¬ Fresh fields seen ∧ (collectOrders fields seen found).IsErr) := by
  induction fields generalizing seen found with
  | nil =>
      apply Or.inl
      constructor
      · constructor
        · intro field hf
          cases hf
        · exact List.nodup_nil
        · intro n hn
          cases hn
      · exact congrArg Res.ok (List.append_nil found).symm
  | cons field rest ih =>
      unfold collectOrders
      cases horder : findEncodeOrderAttr field with
      | error message =>
          apply Or.inr
          constructor
          · intro hfresh
            exact hfresh.wellFormed field List.mem_cons_self ⟨message, horder⟩
          · exact Res.err_isErr _
      | ok o =>
          cases o with
          | none =>
              rw [fresh_cons_none horder,
                orderedFields_cons_none (encodeOrder_of_ok horder)]
              exact ih seen found
          | some n =>
              rw [fresh_cons_some horder,
                orderedFields_cons_some (encodeOrder_of_ok horder)]
              by_cases hseen : n ∈ seen
              · apply Or.inr
                constructor
                · intro hboth
                  exact hboth.1 hseen
                · dsimp only
                  rw [if_pos hseen]
                  exact Res.err_isErr _
              · have hrest := ih (n :: seen) (found ++ [(n, field)])
                rw [List.append_assoc] at hrest
                dsimp only
                rw [if_neg hseen]
                rcases hrest with hok | herr
                · exact Or.inl ⟨⟨hseen, hok.1⟩, hok.2⟩
                · apply Or.inr
                  constructor
                  · intro hboth
                    exact herr.1 hboth.2
                  · exact herr.2

/-- With distinct names an order is given once unless two fields share it. -/
theorem nodup_orders_iff (hnames : (fields.map Field.ident).Nodup) :
    ((orderedFields fields).map Prod.fst).Nodup <->
      ¬ SameEncodeOrder fields := by
  have horders : (orderedFields fields).map Prod.fst =
      fields.filterMap Field.encodeOrder := by
    unfold orderedFields
    rw [List.map_filterMap]
    apply List.filterMap_congr
    intro field _
    cases field.encodeOrder <;> rfl
  rw [horders, List.Nodup, List.pairwise_filterMap]
  rw [List.Nodup, List.pairwise_map] at hnames
  constructor
  · intro hpair hsame
    rcases hsame with ⟨f, g, n, hf, hg, hne, hfn, hgn⟩
    have hsymm : Std.Symm (fun a b : Field T => forall n,
        a.encodeOrder = some n -> forall m, b.encodeOrder = some m ->
          n ≠ m) := by
      constructor
      intro a b h m hm n hn heq
      exact h n hn m hm heq.symm
    have hdiffer : f ≠ g := by
      intro heq
      exact hne (congrArg Field.ident heq)
    exact hpair.forall hf hg hdiffer n hfn n hgn rfl
  · intro hnot
    apply hnames.imp_of_mem
    intro f g hf hg hne n hfn m hgm heq
    apply hnot
    exact ⟨f, g, n, hf, hg, hne, hfn, by rw [hgm, heq]⟩

/-- Errors come from attributes that do not parse and from shared orders. -/
theorem not_fresh_iff (hnames : (fields.map Field.ident).Nodup) :
    ¬ Fresh fields [] <->
      (exists field, field ∈ fields ∧ field.Malformed) ∨
        SameEncodeOrder fields := by
  constructor
  · intro hnot
    by_contra hneither
    rw [not_or] at hneither
    apply hnot
    constructor
    · intro field hf hbad
      exact hneither.1 ⟨field, hf, hbad⟩
    · exact (nodup_orders_iff hnames).mpr hneither.2
    · intro n _ hin
      cases hin
  · intro heither hfresh
    rcases heither with hbad | hsame
    · rcases hbad with ⟨field, hf, hbad⟩
      exact hfresh.wellFormed field hf hbad
    · exact (nodup_orders_iff hnames).mp hfresh.distinct hsame

end Collect

/-!
## What is moved
-/

section Moves

variable {fields : List (Field T)} {moves : List (Nat × Field T)}

/-- The field is found, so that it is taken out and put back. -/
theorem moveField_eq_place {move : Nat × Field T} (hmem : move.2 ∈ fields) :
    moveField fields move =
      .ok (Placement.place Field.ident fields move) := by
  have herase : fields.eraseP (fun f => f.ident = move.2.ident) =
      match fields.findIdx? (fun f => f.ident = move.2.ident) with
      | none => fields
      | some idx => fields.eraseIdx idx :=
    List.eraseP_eq_eraseIdx
  unfold moveField Placement.place
  cases hidx : fields.findIdx? (fun f => f.ident = move.2.ident) with
  | none =>
      have hnone := List.findIdx?_eq_none_iff.mp hidx move.2 hmem
      cases (of_decide_eq_false hnone) rfl
  | some idx =>
      have hlt := (List.findIdx?_eq_some_iff_findIdx_eq.mp hidx).1
      rw [hidx] at herase
      dsimp only at herase ⊢
      rw [if_pos hlt, herase]
      split
      · rfl
      · rfl

theorem moveFields_eq_placeAll (hnames : (fields.map Field.ident).Nodup)
    (hmem : forall move, move ∈ moves -> move.2 ∈ fields) :
    moveFields fields moves =
      .ok (Placement.placeAll Field.ident fields moves) := by
  induction moves generalizing fields with
  | nil => rfl
  | cons move rest ih =>
      have hfirst := hmem move List.mem_cons_self
      have hperm : (Placement.place Field.ident fields move).Perm fields :=
        Placement.place_perm hnames hfirst
      unfold moveFields
      rw [moveField_eq_place hfirst, Res.ok_bind,
        ih ((hperm.map Field.ident).nodup_iff.mpr hnames)]
      · rfl
      · intro other hin
        exact hperm.mem_iff.mpr (hmem other (List.mem_cons_of_mem move hin))

end Moves

/-!
## The sorted fields
-/

/-- What sorting promises about the fields that it returns. -/
structure SortedFields (fields sorted : List (Field T)) : Prop where
  perm : sorted.Perm fields
  declared : sorted.filter (fun field => field.encodeOrder.isNone) =
    fields.filter (fun field => field.encodeOrder.isNone)
  increasing : (sorted.filterMap Field.encodeOrder).Pairwise
    (fun n m => n < m)

section Sorted

variable {fields : List (Field T)}

/-- The moves in the order in which they are made. -/
def sortedMoves (fields : List (Field T)) : List (Nat × Field T) :=
  (orderedFields fields).insertionSort (fun a b => a.1 ≤ b.1)

theorem mem_sortedMoves {move : Nat × Field T} :
    move ∈ sortedMoves fields <->
      move.2 ∈ fields ∧ move.2.encodeOrder = some move.1 := by
  unfold sortedMoves
  rw [List.mem_insertionSort, mem_orderedFields]

theorem map_fst_sortedMoves :
    (sortedMoves fields).map Prod.fst =
      ((sortedMoves fields).map Prod.snd).filterMap Field.encodeOrder := by
  rw [List.filterMap_map, ← List.filterMap_eq_map]
  apply List.filterMap_congr
  intro move hmove
  exact (mem_sortedMoves.mp hmove).2.symm

theorem sortedMoves_pairwise (hfresh : Fresh fields []) :
    (sortedMoves fields).Pairwise (fun a b => a.1 < b.1) := by
  have hle := List.pairwise_insertionSort
    (fun a b : Nat × Field T => a.1 ≤ b.1) (orderedFields fields)
  have hne : ((sortedMoves fields).map Prod.fst).Nodup := by
    apply ((List.perm_insertionSort _ _).map Prod.fst).nodup_iff.mpr
    exact hfresh.distinct
  rw [List.Nodup, List.pairwise_map] at hne
  apply (hle.and hne).imp
  intro a b h
  exact Nat.lt_of_le_of_ne h.1 h.2

theorem nodup_idents_sortedMoves (hnames : (fields.map Field.ident).Nodup) :
    ((sortedMoves fields).map (fun move => move.2.ident)).Nodup := by
  have hperm := (List.perm_insertionSort
    (fun a b : Nat × Field T => a.1 ≤ b.1) (orderedFields fields)).map
      (fun move => move.2.ident)
  apply hperm.nodup_iff.mpr
  rw [List.Nodup, List.pairwise_map] at hnames ⊢
  unfold orderedFields
  rw [List.pairwise_filterMap]
  apply hnames.imp
  intro f g hne a ha b hb
  rcases Option.map_eq_some_iff.mp ha with ⟨n, _, rfl⟩
  rcases Option.map_eq_some_iff.mp hb with ⟨m, _, rfl⟩
  exact hne

/-- The fields that are moved are those with an encode order. -/
theorem moved_iff (hnames : (fields.map Field.ident).Nodup) {field : Field T}
    (hf : field ∈ fields) :
    field.ident ∈ (sortedMoves fields).map (fun move => move.2.ident) <->
      field.encodeOrder.isSome = true := by
  rw [Option.isSome_iff_exists]
  constructor
  · intro hin
    rcases List.mem_map.mp hin with ⟨move, hmove, heq⟩
    have hmem := mem_sortedMoves.mp hmove
    have hsame : move.2 = field :=
      List.inj_on_of_nodup_map hnames hmem.1 hf heq
    exists move.1
    rw [← hsame]
    exact hmem.2
  · intro h
    rcases h with ⟨n, hn⟩
    apply List.mem_map.mpr
    exact ⟨(n, field), mem_sortedMoves.mpr ⟨hf, hn⟩, rfl⟩

theorem sortedFields_placeAll (hnames : (fields.map Field.ident).Nodup)
    (hfresh : Fresh fields []) :
    SortedFields fields
      (Placement.placeAll Field.ident fields (sortedMoves fields)) := by
  have hmem : forall move, move ∈ sortedMoves fields -> move.2 ∈ fields := by
    intro move hmove
    exact (mem_sortedMoves.mp hmove).1
  have hperm := Placement.placeAll_perm hnames hmem
  constructor
  · exact hperm
  · apply Placement.filter_placeAll hnames hmem
    intro move hmove
    rw [(mem_sortedMoves.mp hmove).2]
    rfl
  · have hmoved := Placement.filter_placeAll_moved hnames hmem
      (sortedMoves_pairwise hfresh) (nodup_idents_sortedMoves hnames)
    have horders : (Placement.placeAll Field.ident fields
        (sortedMoves fields)).filterMap Field.encodeOrder =
          (sortedMoves fields).map Prod.fst := by
      rw [map_fst_sortedMoves, ← hmoved, List.filterMap_filter]
      apply List.filterMap_congr
      intro field hf
      have hiff := moved_iff hnames (hperm.mem_iff.mp hf)
      cases horder : field.encodeOrder with
      | none => exact (ite_self _).symm
      | some n =>
          rw [horder] at hiff
          rw [if_pos (decide_eq_true (hiff.mpr rfl))]
    rw [horders, List.pairwise_map]
    exact sortedMoves_pairwise hfresh

/-- The fields with an encode order are moved, in the order of these. -/
theorem getSortedFields_eq_placeAll (hnames : (fields.map Field.ident).Nodup)
    (hfresh : Fresh fields []) :
    getSortedFields fields =
      .ok (Placement.placeAll Field.ident fields (sortedMoves fields)) := by
  have hcollect : collectOrders fields [] [] = .ok (orderedFields fields) := by
    rcases collectOrders_cases fields [] [] with hok | herr
    · exact hok.2
    · exact absurd hfresh herr.1
  unfold getSortedFields
  rw [hcollect]
  apply moveFields_eq_placeAll hnames
  intro move hmove
  exact (mem_sortedMoves.mp hmove).1

/-- Sorting fails on attributes that do not parse and on encode orders that two
fields share, and it only sorts otherwise. -/
theorem getSortedFields_spec (hnames : (fields.map Field.ident).Nodup) :
    ((getSortedFields fields).IsErr <->
      (exists field, field ∈ fields ∧ field.Malformed) ∨
        SameEncodeOrder fields) ∧
    (¬ (getSortedFields fields).IsErr ->
      exists sorted, getSortedFields fields = .ok sorted ∧
        SortedFields fields sorted) := by
  rw [← not_fresh_iff hnames]
  rcases collectOrders_cases fields [] [] with hok | herr
  · have hsorted := getSortedFields_eq_placeAll hnames hok.1
    rw [hsorted]
    constructor
    · constructor
      · intro h
        rcases h with ⟨e, h⟩
        cases h
      · intro hnot
        exact absurd hok.1 hnot
    · intro _
      exact ⟨_, rfl, sortedFields_placeAll hnames hok.1⟩
  · rcases herr with ⟨hnot, e, he⟩
    have herror : getSortedFields fields = .err e := by
      unfold getSortedFields
      rw [he]
      rfl
    rw [herror]
    constructor
    · exact ⟨fun _ => hnot, fun _ => Res.err_isErr e⟩
    · intro hok
      exact absurd (Res.err_isErr e) hok

/-- A field without attributes between two that have an encode order. -/
def tsRecvFields : List (Field Unit) :=
  [⟨"price", [.list ⟨["dbn"], [⟨["fixed_price"], none⟩,
      ⟨["encode_order"], some (.ok 7)⟩], none⟩], ()⟩,
    ⟨"flags", [], ()⟩,
    ⟨"ts_recv", [.path ["repr"], .list ⟨["dbn"], [⟨["encode_order"], none⟩],
      none⟩], ()⟩]

theorem getSortedFields_spec_tsRecv :
    ((getSortedFields tsRecvFields).IsErr <->
      (exists field, field ∈ tsRecvFields ∧ field.Malformed) ∨
        SameEncodeOrder tsRecvFields) ∧
    (¬ (getSortedFields tsRecvFields).IsErr ->
      exists sorted, getSortedFields tsRecvFields = .ok sorted ∧
        SortedFields tsRecvFields sorted) :=
  getSortedFields_spec (by decide)

/-- `#[dbn(encode_order("x"))]` is an error although no order is shared. -/
theorem not_isErr_iff_sameEncodeOrder :
    ¬ forall fields : List (Field Unit), (fields.map Field.ident).Nodup ->
      ((getSortedFields fields).IsErr <-> SameEncodeOrder fields) := by
  intro h
  have hiff := h [⟨"price", [.list ⟨["dbn"],
    [⟨["encode_order"], some (.error "expected integer literal")⟩], none⟩],
    ()⟩] (by decide)
  rcases hiff.mp ⟨_, rfl⟩ with ⟨f, g, n, hf, hg, hne, _, _⟩
  apply hne
  rw [List.mem_singleton.mp hf, List.mem_singleton.mp hg]

end Sorted

end DbnAttr
end Macros
end Dbn
