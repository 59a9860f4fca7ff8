import Mathlib.Order.MinMax
import Mathlib.Tactic.Common

/-!
# Half-open intervals

Intervals of a linear order with their first point and the point after the
last one.  Two proper intervals come one before the other or overlap, and the
hull of two that overlap has no other points.
-/

namespace Dbn
namespace Lib

/-- The points from `start` on and before `stop`. -/
structure HalfOpen (D : Type) where
  start : D
  stop : D

namespace HalfOpen

variable {D : Type} [LinearOrder D] {i j k : HalfOpen D} {d : D}

instance : Membership D (HalfOpen D) where
  mem i d := i.start ≤ d ∧ d < i.stop

instance (i : HalfOpen D) (d : D) : Decidable (d ∈ i) :=
  inferInstanceAs (Decidable (_ ∧ _))

/-- The interval has a point. -/
def Proper (i : HalfOpen D) : Prop :=
  i.start < i.stop

/-- The first interval ends before the second one starts. -/
def Before (i j : HalfOpen D) : Prop :=
  i.stop ≤ j.start

def Overlaps (i j : HalfOpen D) : Prop :=
  i.start < j.stop ∧ j.start < i.stop

instance (i : HalfOpen D) : Decidable i.Proper :=
  inferInstanceAs (Decidable (_ < _))

instance (i j : HalfOpen D) : Decidable (i.Before j) :=
  inferInstanceAs (Decidable (_ ≤ _))

instance (i j : HalfOpen D) : Decidable (i.Overlaps j) :=
  inferInstanceAs (Decidable (_ ∧ _))

/-- The least interval that contains both. -/
def hull (i j : HalfOpen D) : HalfOpen D :=
  ⟨min i.start j.start, max i.stop j.stop⟩

theorem Overlaps.symm (h : Overlaps i j) : Overlaps j i := ⟨h.2, h.1⟩

theorem Proper.overlaps_self (h : Proper i) : Overlaps i i := ⟨h, h⟩

theorem Proper.start_mem (h : Proper i) : i.start ∈ i := ⟨le_refl _, h⟩

theorem Before.not_overlaps (h : Before i j) : ¬ Overlaps i j := by
  intro hoverlaps
  exact absurd hoverlaps.2 (not_lt.mpr h)

theorem Before.not_overlaps_symm (h : Before i j) : ¬ Overlaps j i := by
  intro hoverlaps
  exact h.not_overlaps hoverlaps.symm

theorem Before.trans (hj : Proper j) (hij : Before i j) (hjk : Before j k) :
    Before i k :=
  le_trans hij (le_trans (le_of_lt hj) hjk)

theorem Before.asymm (hi : Proper i) (hj : Proper j) (h : Before i j) :
    ¬ Before j i := by
  intro hji
  exact absurd hi.overlaps_self (Before.not_overlaps (Before.trans hj h hji))

theorem overlaps_of_not_before (hij : ¬ Before i j) (hji : ¬ Before j i) :
    Overlaps i j :=
  ⟨not_le.mp hji, not_le.mp hij⟩

/-- Proper intervals overlap when they have a common point. -/
theorem overlaps_iff_exists_mem (hi : Proper i) (hj : Proper j) :
    Overlaps i j <-> exists d, d ∈ i ∧ d ∈ j := by
  constructor
  · intro h
    refine ⟨max i.start j.start, ⟨le_max_left _ _, ?_⟩,
      ⟨le_max_right _ _, ?_⟩⟩
    · exact max_lt hi h.2
    · exact max_lt h.1 hj
  · intro h
    rcases h with ⟨d, hdi, hdj⟩
    exact ⟨lt_of_le_of_lt hdi.1 hdj.2, lt_of_le_of_lt hdj.1 hdi.2⟩

theorem proper_hull (hi : Proper i) : Proper (hull i j) :=
  lt_of_le_of_lt (min_le_left _ _) (lt_of_lt_of_le hi (le_max_left _ _))

/-- The hull of two intervals that overlap has no other points. -/
theorem mem_hull (h : Overlaps i j) : d ∈ hull i j <-> d ∈ i ∨ d ∈ j := by
  constructor
  · intro hd
    have hstart : i.start ≤ d ∨ j.start ≤ d := min_le_iff.mp hd.1
    have hstop : d < i.stop ∨ d < j.stop := lt_max_iff.mp hd.2
    rcases lt_or_ge d i.stop with hlt | hge
    · rcases hstart with hi | hj
      · exact Or.inl ⟨hi, hlt⟩
      · rcases lt_or_ge d j.stop with hlt' | hge'
        · exact Or.inr ⟨hj, hlt'⟩
        · exact Or.inl ⟨le_of_lt (lt_of_lt_of_le h.1 hge'), hlt⟩
    · right
      constructor
      · exact le_of_lt (lt_of_lt_of_le h.2 hge)
      · rcases hstop with hlt | hlt
        · exact absurd hlt (not_lt.mpr hge)
        · exact hlt
  · intro hd
    rcases hd with hd | hd
    · exact ⟨min_le_of_left_le hd.1, lt_max_of_lt_left hd.2⟩
    · exact ⟨min_le_of_right_le hd.1, lt_max_of_lt_right hd.2⟩

theorem Before.hull_left (hi : Before i k) (hj : Before j k) :
    Before (hull i j) k :=
  max_le hi hj

/-- Of two disjoint intervals the one that starts first is before the other. -/
theorem before_of_disjoint (hj : Proper j)
    (hle : i.start ≤ j.start) (hdisjoint : forall d, ¬ (d ∈ i ∧ d ∈ j)) :
    Before i j := by
  by_contra hnot
  exact hdisjoint j.start ⟨⟨hle, not_le.mp hnot⟩, hj.start_mem⟩

end HalfOpen

end Lib
end Dbn
