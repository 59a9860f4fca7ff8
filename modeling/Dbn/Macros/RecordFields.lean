import Dbn.Encode.FieldTexts
import Dbn.Macros.DbnAttr

/-!
# The fields of the record structs

The fields of every record struct are sorted by the macro, which reports no
error for any of them, into the order in which they are serialized.
-/

namespace Dbn

open Lib
open Macros

namespace SerializeAttr

/-- The argument of the `dbn` attribute. -/
def argument : SerializeAttr -> String
  | unixNanos => "unix_nanos"
  | fixedPrice => "fixed_price"
  | cChar => "c_char"

end SerializeAttr

namespace FieldDesc

/-- The arguments of the `dbn` attribute of a field. -/
def dbnArgs (f : FieldDesc) : List DbnAttr.NestedMeta :=
  f.attr.toList.map (fun attr => ⟨[attr.argument], none⟩) ++
    (if f.skip then [⟨["skip"], none⟩] else []) ++
    f.encodeOrder.toList.map (fun n => ⟨["encode_order"], some (.ok n)⟩)

def declaration (f : FieldDesc) : DbnAttr.Field FieldDesc :=
  { ident := f.name
    attrs := [.list ⟨["dbn"], f.dbnArgs, none⟩]
    ty := f }

variable {fields : List FieldDesc}

theorem findEncodeOrderAttr_declaration (f : FieldDesc) :
    DbnAttr.findEncodeOrderAttr f.declaration = .ok f.encodeOrder := by
  rcases f with ⟨name, ty, attr, skip, encodeOrder⟩
  rcases attr with _ | _ | _ | _ <;> cases skip <;> cases encodeOrder <;> rfl

theorem encodeOrder_declaration (f : FieldDesc) :
    f.declaration.encodeOrder = f.encodeOrder :=
  DbnAttr.encodeOrder_of_ok (findEncodeOrderAttr_declaration f)

theorem orderedFields_declaration (fields : List FieldDesc) :
    DbnAttr.orderedFields (fields.map declaration) =
      (fields.filterMap (fun f =>
        f.encodeOrder.map (fun order => (order, f)))).map
          (fun order => (order.1, order.2.declaration)) := by
  unfold DbnAttr.orderedFields
  rw [List.filterMap_map, List.map_filterMap]
  apply List.filterMap_congr
  intro f _
  dsimp only [Function.comp_apply]
  rw [encodeOrder_declaration]
  cases f.encodeOrder <;> rfl

theorem map_fst_orderedFields_declaration (fields : List FieldDesc) :
    (DbnAttr.orderedFields (fields.map declaration)).map Prod.fst =
      fields.filterMap encodeOrder := by
  rw [orderedFields_declaration, List.map_map, List.map_filterMap]
  apply List.filterMap_congr
  intro f _
  cases f.encodeOrder <;> rfl

theorem fresh_declaration (horders : (fields.filterMap encodeOrder).Nodup) :
    DbnAttr.Fresh (fields.map declaration) [] := by
  constructor
  · intro field hf hbad
    rcases List.mem_map.mp hf with ⟨f, _, rfl⟩
    rcases hbad with ⟨message, hbad⟩
    cases (findEncodeOrderAttr_declaration f).symm.trans hbad
  · rw [map_fst_orderedFields_declaration]
    exact horders
  · intro n _ hin
    cases hin

/-- The macro sorts declarations as the fields are sorted here. -/
theorem getSortedFields_declaration (hnames : (fields.map name).Nodup)
    (horders : (fields.filterMap encodeOrder).Nodup) :
    DbnAttr.getSortedFields (fields.map declaration) =
      .ok ((getSortedFields fields).map declaration) := by
  have hmoves : DbnAttr.sortedMoves (fields.map declaration) =
      ((fields.filterMap (fun f =>
        f.encodeOrder.map (fun order => (order, f)))).insertionSort
          (fun a b => a.1 ≤ b.1)).map
            (fun order => (order.1, order.2.declaration)) := by
    unfold DbnAttr.sortedMoves
    rw [orderedFields_declaration]
    apply Eq.symm
    apply List.map_insertionSort
    intro a _ b _
    exact Iff.rfl
  have hidents : ((fields.map declaration).map DbnAttr.Field.ident).Nodup := by
    rw [List.map_map]
    exact hnames
  rw [DbnAttr.getSortedFields_eq_placeAll hidents (fresh_declaration horders),
    hmoves, ← Placement.map_placeAll]
  rfl

end FieldDesc

namespace RecordType

theorem encodeOrders_nodup (t : RecordType) :
    (t.fields.filterMap FieldDesc.encodeOrder).Nodup := by
  cases t with
  | versioned s => cases s <;> decide +kernel
  | _ => decide +kernel

/-- Sorting the fields of a record struct does not fail. -/
theorem getSortedFields_declaration (t : RecordType) :
    DbnAttr.getSortedFields (t.fields.map FieldDesc.declaration) =
      .ok ((FieldDesc.getSortedFields t.fields).map FieldDesc.declaration) :=
  FieldDesc.getSortedFields_declaration t.names_nodup t.encodeOrders_nodup

end RecordType

end Dbn
