/-
  A loop that counts through a list which changes under it.

  The body of `for (i = 0; i < items.size(); ++i)` may add elements at the end and remove any element,
  the one it is at included.  A removal behind the index moves the next element to where the loop has
  been already, so the loop misses it; nothing else goes wrong, and `Cursor.Sound` says so:

  * no element is met twice, and elements are met in the order in which they were added (`order`: what
    was met, followed by what is still ahead, is a part of the log of all additions);
  * at most one element is passed without being met for each removal behind the index (`passed`; the
    index may come to lie beyond the end of a list that shrinks, and every position of that gap is one
    where an element added later will not be met).
-/
import Mathlib

namespace ConnClient.Lib

universe u

/-- The list, and how far the loop is. -/
structure Cursor (α : Type u) where
  items : List α
  /-- How many positions were passed. -/
  pos : Nat
  /-- What was ever added, in order. -/
  log : List α
  /-- What the loop met, in order. -/
  met : List α
  /-- How many elements were removed behind the index. -/
  missed : Nat

namespace Cursor

variable {α : Type u} [DecidableEq α]

/-- The loop starts. -/
def start (items log : List α) : Cursor α := ⟨items, 0, log, [], 0⟩

/-- An element is added. -/
def push (x : α) (c : Cursor α) : Cursor α := { c with items := c.items ++ [x], log := c.log ++ [x] }

/-- An element is removed. -/
def drop (x : α) (c : Cursor α) : Cursor α :=
  { c with
    items := c.items.erase x
    missed := if x ∈ c.items.take c.pos then c.missed + 1 else c.missed }

/-- The loop meets the next element. -/
def meet (x : α) (c : Cursor α) : Cursor α := { c with pos := c.pos + 1, met := c.met ++ [x] }

/-- What holds of a loop at any moment. -/
structure Sound (c : Cursor α) : Prop where
  log : c.log.Nodup
  items : c.items.Sublist c.log
  order : (c.met ++ c.items.drop c.pos).Sublist c.log
  passed : ((c.items.take c.pos).filter (· ∉ c.met)).length + (c.pos - c.items.length) ≤ c.missed

variable {c : Cursor α} {x : α}

theorem start_sound {items log : List α} (hlog : log.Nodup) (h : items.Sublist log) :
    (start items log).Sound where
  log := hlog
  items := h
  order := h
  passed := by
    show 0 + (0 - items.length) ≤ 0
    omega

/-- The elements that were passed, when one is removed behind the index: the next one moves in. -/
theorem take_erase (h : x ∈ c.items.take c.pos) :
    (c.items.erase x).take c.pos = (c.items.take c.pos).erase x ++ (c.items.drop c.pos).take 1 := by
  have hpos := List.length_pos_of_mem h
  have hlen : ((c.items.take c.pos).erase x).length = min c.pos c.items.length - 1 := by
    rw [List.length_erase_of_mem h, List.length_take]
  rw [List.length_take] at hpos
  have hsplit : c.items.erase x = (c.items.take c.pos).erase x ++ c.items.drop c.pos := by
    conv_lhs => rw [← List.take_append_drop c.pos c.items]
    exact List.erase_append_left _ h
  rw [hsplit, List.take_append, hlen, List.take_of_length_le (by omega)]
  congr 1
  rcases Nat.lt_or_ge c.pos c.items.length with hlt | hge
  · rw [show c.pos - (min c.pos c.items.length - 1) = 1 by omega]
  · rw [List.drop_eq_nil_of_le hge, List.take_nil, List.take_nil]

/-- A removal ahead of the index does not move what was passed. -/
theorem take_erase_ahead (h : x ∉ c.items.take c.pos) :
    (c.items.erase x).take c.pos = c.items.take c.pos := by
  have hsplit : c.items.erase x = c.items.take c.pos ++ (c.items.drop c.pos).erase x := by
    conv_lhs => rw [← List.take_append_drop c.pos c.items]
    exact List.erase_append_right _ h
  rcases Nat.lt_or_ge c.pos c.items.length with hlt | hge
  · rw [hsplit, List.take_append_of_le_length (by rw [List.length_take]; omega),
      List.take_of_length_le (by rw [List.length_take]; omega)]
  · rw [hsplit, List.drop_eq_nil_of_le hge, List.take_of_length_le hge, List.erase_nil, List.append_nil,
      List.take_of_length_le hge]

/-- **An addition**, at the end: ahead of the loop, or in the gap behind it. -/
theorem Sound.push (h : c.Sound) (hx : x ∉ c.log) : (c.push x).Sound where
  log := List.Nodup.append h.log (List.nodup_singleton x) (List.disjoint_singleton.mpr hx)
  items := h.items.append_right [x]
  order := by
    show (c.met ++ (c.items ++ [x]).drop c.pos).Sublist (c.log ++ [x])
    rw [List.drop_append, ← List.append_assoc]
    exact h.order.append (List.drop_sublist ..)
  passed := by
    show (((c.items ++ [x]).take c.pos).filter (· ∉ c.met)).length
      + (c.pos - (c.items ++ [x]).length) ≤ c.missed
    rw [List.take_append, List.filter_append, List.length_append, List.length_append,
      List.length_singleton]
    have hpassed := h.passed
    have hlast := (List.length_filter_le (· ∉ c.met) ([x].take (c.pos - c.items.length)))
    rw [List.length_take, List.length_singleton] at hlast
    omega

/-- **A removal** makes the loop miss at most one element. -/
theorem Sound.drop (h : c.Sound) : (c.drop x).Sound where
  log := h.log
  items := List.erase_sublist.trans h.items
  order := (List.Sublist.append_left (List.erase_sublist.drop c.pos) c.met).trans h.order
  passed := by
    show (((c.items.erase x).take c.pos).filter (· ∉ c.met)).length + (c.pos - (c.items.erase x).length)
      ≤ if _ then _ else _
    have hpassed := h.passed
    by_cases hx : x ∈ c.items.take c.pos
    · -- one fewer behind, and the next one moves in, or the gap grows
      rw [if_pos hx, take_erase hx, List.filter_append, List.length_append,
        List.length_erase_of_mem (List.mem_of_mem_take hx)]
      have hbehind := (List.erase_sublist (a := x) (l := c.items.take c.pos)).filter (· ∉ c.met)
      have hone := List.length_filter_le (· ∉ c.met) ((c.items.drop c.pos).take 1)
      rw [List.length_take, List.length_drop] at hone
      have := hbehind.length_le
      omega
    · rw [if_neg hx, take_erase_ahead hx]
      by_cases hmem : x ∈ c.items
      · have hdrop : x ∈ c.items.drop c.pos := by
          rw [← List.take_append_drop c.pos c.items, List.mem_append] at hmem
          exact hmem.resolve_left hx
        have hlt := List.length_pos_of_mem hdrop
        rw [List.length_drop] at hlt
        rw [List.length_erase_of_mem hmem]
        omega
      · rw [List.erase_of_not_mem hmem]
        exact hpassed

/-- **The loop meets an element**: one that it had not met. -/
theorem Sound.meet (h : c.Sound) (hx : c.items[c.pos]? = some x) : (c.meet x).Sound where
  log := h.log
  items := h.items
  order := by
    show (c.met ++ [x] ++ c.items.drop (c.pos + 1)).Sublist c.log
    rw [List.append_assoc, List.singleton_append]
    obtain ⟨hlt, rfl⟩ := List.getElem?_eq_some_iff.mp hx
    rw [← List.drop_eq_getElem_cons hlt]
    exact h.order
  passed := by
    show ((c.items.take (c.pos + 1)).filter (· ∉ c.met ++ [x])).length + (c.pos + 1 - c.items.length)
      ≤ c.missed
    have hlt := (List.getElem?_eq_some_iff.mp hx).1
    have hpassed := h.passed
    rw [List.take_add_one, hx, Option.toList_some, List.filter_append]
    have hself : [x].filter (· ∉ c.met ++ [x]) = [] := by simp
    rw [hself, List.append_nil]
    -- what is not among more elements is not among fewer
    have hfewer : ((c.items.take c.pos).filter (· ∉ c.met ++ [x])).Sublist
        ((c.items.take c.pos).filter (· ∉ c.met)) := by
      refine List.monotone_filter_right _ fun y hy => ?_
      simp only [List.mem_append, not_or, decide_eq_true_eq] at hy ⊢
      exact hy.1
    have := hfewer.length_le
    omega

/-- No element is met twice. -/
theorem Sound.once (h : c.Sound) : c.met.Nodup := (h.order.nodup h.log).of_append_left

/-- What the loop is still to meet, it has not met. -/
theorem Sound.ahead (h : c.Sound) (hx : x ∈ c.items.drop c.pos) : x ∉ c.met := fun hmet =>
  (List.nodup_append.mp (h.order.nodup h.log)).2.2 x hmet x hx rfl

/-- When the loop is over, at most `missed` of the elements were not met. -/
theorem Sound.over (h : c.Sound) (hpos : c.items.length ≤ c.pos) :
    (c.items.filter (· ∉ c.met)).length ≤ c.missed := by
  have hpassed := h.passed
  rw [List.take_of_length_le hpos] at hpassed
  omega

end Cursor

end ConnClient.Lib
