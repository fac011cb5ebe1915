/-
  Custody of numbered items.

  A sender hands items over to a receiver, one number after the other, by way of a carrier that may lose
  them.  So it keeps each item until it is told that the receiver holds it; and what it is told comes by
  the same carrier, late, several times or not at all.

  Nothing gets lost as long as three things are so: only items that were given a number arrive, only
  items that are held are told of, and only items that were told of are let go (`Custody.Step`).  Then
  every item is in somebody's hands at any time (`Custody.Sound`), and once the sender keeps nothing the
  receiver holds everything (`Custody.Sound.complete`).

  The four sets stand for whatever a protocol makes of them: a list of segments, a counter and a buffer,
  the acknowledgements on the wire.
-/
import Mathlib

namespace ConnClient.Lib

/-- One direction of a connection. -/
structure Custody where
  /-- The number the next item gets. -/
  next : ℕ
  /-- What the sender keeps. -/
  kept : Set ℕ
  /-- What the receiver holds. -/
  held : Set ℕ
  /-- What the sender may yet be told that the receiver holds. -/
  told : Set ℕ

/-- What may happen. -/
inductive Custody.Step : Custody → Custody → Prop where
  /-- The sender gives out numbers. -/
  | number {c : Custody} (n : ℕ) :
      Step c { c with next := c.next + n, kept := c.kept ∪ Set.Ico c.next (c.next + n) }
  /-- Items arrive. -/
  | arrive {c : Custody} {items : Set ℕ} (hold : c.held ⊆ items) (h : items ⊆ Set.Iio c.next) :
      Step c { c with held := items }
  /-- The receiver tells what it holds, and what it told may be lost. -/
  | tell {c : Custody} {items : Set ℕ} (h : items ⊆ c.held) : Step c { c with told := items }
  /-- The sender lets items go. -/
  | settle {c : Custody} {items : Set ℕ} (hsub : items ⊆ c.kept) (h : c.kept \ items ⊆ c.told) :
      Step c { c with kept := items }

/-- Any number of such steps. -/
abbrev Custody.Steps : Custody → Custody → Prop := Relation.ReflTransGen Custody.Step

/-- Nothing is lost, and nobody holds what was never sent. -/
structure Custody.Sound (c : Custody) : Prop where
  kept : c.kept ⊆ Set.Iio c.next
  held : c.held ⊆ Set.Iio c.next
  told : c.told ⊆ c.held
  all : Set.Iio c.next ⊆ c.kept ∪ c.held

namespace Custody

variable {c c' : Custody}

/-- **A step keeps custody.** -/
theorem Step.sound (hs : Step c c') (h : c.Sound) : c'.Sound := by
  have hall := h.all
  cases hs with
  | number n =>
    have hmore : Set.Iio c.next ⊆ Set.Iio (c.next + n) := Set.Iio_subset_Iio (Nat.le_add_right _ _)
    refine ⟨?_, h.held.trans hmore, h.told, ?_⟩
    · rintro i (hi | hi)
      · exact hmore (h.kept hi)
      · exact hi.2
    · intro i hi
      rcases Nat.lt_or_ge i c.next with hlt | hge
      · rcases hall hlt with hk | hh
        · exact Or.inl (Or.inl hk)
        · exact Or.inr hh
      · exact Or.inl (Or.inr ⟨hge, hi⟩)
  | arrive hold hnew =>
    exact ⟨h.kept, hnew, h.told.trans hold, hall.trans (Set.union_subset_union_right _ hold)⟩
  | tell htell => exact ⟨h.kept, h.held, htell, hall⟩
  | @settle items hsub hgone =>
    refine ⟨hsub.trans h.kept, h.held, h.told, fun i hi => ?_⟩
    rcases hall hi with hk | hh
    · by_cases hi : i ∈ items
      · exact Or.inl hi
      · exact Or.inr (h.told (hgone ⟨hk, hi⟩))
    · exact Or.inr hh

/-- **Any number of steps.** -/
theorem Steps.sound (hs : Steps c c') (h : c.Sound) : c'.Sound := by
  induction hs with
  | refl => exact h
  | tail _ hstep ih => exact hstep.sound ih

/-- **Everything arrived**, once the sender keeps nothing. -/
theorem Sound.complete (h : c.Sound) (hkept : c.kept = ∅) : c.held = Set.Iio c.next := by
  have hall := h.all
  rw [hkept, Set.empty_union] at hall
  exact h.held.antisymm hall

/-- The sender is not told of what it has not given out. -/
theorem Sound.told_lt (h : c.Sound) {n : ℕ} (hn : n ∈ c.told) : n < c.next := h.held (h.told hn)

end Custody

end ConnClient.Lib
