/-
  Greedy packing.

  Items go, in order, into boxes of one capacity: an item goes into the open box if it fits there, and
  into a new one if it does not.  Nothing is lost and nothing changes places (`flatten_pack`), no box is
  empty, and none is too full as long as no item is too large (`load_pack`).

  Packing greedily is packing well: `pack_fewest`, no way of cutting the items into boxes that are not
  too full takes fewer boxes.  The boxes opened so far are always enough for the items so far
  (`Boxes.Ahead`), and that is all the argument there is.

  What still fits the open box may ride along: `topUp` takes as many items from the front of a list as
  there is room for, and packing them too takes no box more (`length_pack_fits`).
-/
import Mathlib

namespace ConnClient.Lib

variable {α : Type*}

/-- The boxes that are closed, and what is in the open one. -/
structure Boxes (α : Type*) where
  closed : List (List α)
  last : List α

/-- Nothing is packed yet. -/
def Boxes.none : Boxes α := ⟨[], []⟩

/-- The open box is closed, if there is anything in it. -/
def Boxes.close (b : Boxes α) : List (List α) :=
  match b.last with
  | [] => b.closed
  | a :: rest => b.closed ++ [a :: rest]

/-- The room that items take. -/
def load (size : α → Nat) (items : List α) : Nat := (items.map size).sum

/-- One item more. -/
def Boxes.put (cap : Nat) (size : α → Nat) (b : Boxes α) (a : α) : Boxes α :=
  if load size b.last + size a > cap then ⟨b.close, [a]⟩ else ⟨b.closed, b.last ++ [a]⟩

/-- The items are put into boxes one by one. -/
def fill (cap : Nat) (size : α → Nat) (items : List α) : Boxes α :=
  items.foldl (Boxes.put cap size) .none

/-- **Packing.** -/
def pack (cap : Nat) (size : α → Nat) (items : List α) : List (List α) := (fill cap size items).close

variable {cap : Nat} {size : α → Nat}

@[simp] theorem load_nil : load size [] = 0 := rfl

@[simp] theorem load_append (items items' : List α) :
    load size (items ++ items') = load size items + load size items' := by
  rw [load, List.map_append, List.sum_append, load, load]

@[simp] theorem load_singleton (a : α) : load size [a] = size a := by
  rw [load, List.map_singleton, List.sum_singleton]

theorem fill_snoc (items : List α) (a : α) :
    fill cap size (items ++ [a]) = (fill cap size items).put cap size a := by
  rw [fill, List.foldl_append]
  rfl

theorem flatten_close (b : Boxes α) : b.close.flatten = b.closed.flatten ++ b.last := by
  unfold Boxes.close
  split
  · rename_i hlast
    rw [hlast, List.append_nil]
  · rename_i hlast
    rw [hlast, List.flatten_append, List.flatten_singleton]

/-- What is packed so far, by induction on the items. -/
theorem fill_flatten (items : List α) :
    (fill cap size items).closed.flatten ++ (fill cap size items).last = items := by
  induction items using List.reverseRecOn with
  | nil => rfl
  | append_singleton items a ih =>
    rw [fill_snoc, Boxes.put]
    split
    · show (fill cap size items).close.flatten ++ [a] = _
      rw [flatten_close, ih]
    · show (fill cap size items).closed.flatten ++ ((fill cap size items).last ++ [a]) = _
      rw [← List.append_assoc, ih]

/-- **Nothing is lost, nothing changes places.** -/
theorem flatten_pack (items : List α) : (pack cap size items).flatten = items := by
  rw [pack, flatten_close, fill_flatten]

/-- A property of single boxes that the closed ones have and the open one, if it is not empty. -/
theorem Boxes.forall_close {P : List α → Prop} {b : Boxes α} (hclosed : ∀ box ∈ b.closed, P box)
    (hlast : b.last ≠ [] → P b.last) : ∀ box ∈ b.close, P box := by
  unfold Boxes.close
  split
  · exact hclosed
  · rename_i a rest hb
    intro box hbox
    rcases List.mem_append.mp hbox with hbox | hbox
    · exact hclosed box hbox
    · have hP := hlast (by rw [hb]; exact List.cons_ne_nil a rest)
      rw [List.mem_singleton.mp hbox, ← hb]
      exact hP

/-- No box is empty. -/
theorem pack_ne_nil (items : List α) : ∀ box ∈ pack cap size items, box ≠ [] := by
  have hclosed : ∀ box ∈ (fill cap size items).closed, box ≠ [] := by
    induction items using List.reverseRecOn with
    | nil => exact fun box hbox => absurd hbox List.not_mem_nil
    | append_singleton items a ih =>
      rw [fill_snoc, Boxes.put]
      split
      · exact Boxes.forall_close ih id
      · exact ih
  exact Boxes.forall_close hclosed id

/-- **No box is too full**, if no item is too large. -/
theorem load_pack {items : List α} (h : ∀ a ∈ items, size a ≤ cap) :
    ∀ box ∈ pack cap size items, load size box ≤ cap := by
  have hfill : (∀ box ∈ (fill cap size items).closed, load size box ≤ cap)
      ∧ load size (fill cap size items).last ≤ cap := by
    induction items using List.reverseRecOn with
    | nil => exact ⟨fun box hbox => absurd hbox List.not_mem_nil, Nat.zero_le _⟩
    | append_singleton items a ih =>
      obtain ⟨hclosed, hlast⟩ := ih fun b hb => h b (List.mem_append_left _ hb)
      have ha := h a (List.mem_append_right _ (List.mem_singleton_self a))
      rw [fill_snoc, Boxes.put]
      split
      · refine ⟨Boxes.forall_close hclosed fun _ => hlast, ?_⟩
        rw [load_singleton]
        exact ha
      · rename_i hfits
        refine ⟨hclosed, ?_⟩
        show load size ((fill cap size items).last ++ [a]) ≤ cap
        rw [load_append, load_singleton]
        omega
  exact Boxes.forall_close hfill.1 fun _ => hfill.2

/-! ## The fewest boxes -/

/-- The greedy boxes are not ahead of a way of cutting the same items into `boxes` and an open `box`:
    they are fewer, or as many and the open one has no more in it. -/
def Boxes.Ahead (size : α → Nat) (b : Boxes α) (boxes : List (List α)) (box : List α) : Prop :=
  b.closed.length < boxes.length
    ∨ b.closed.length = boxes.length ∧ load size b.last ≤ load size box

theorem length_close_le (b : Boxes α) : b.close.length ≤ b.closed.length + 1 := by
  unfold Boxes.close
  split
  · exact Nat.le_succ _
  · rw [List.length_append, List.length_singleton]

/-- The last item of some boxes is the last one of a box, with only empty ones behind it. -/
theorem exists_last_box {boxes : List (List α)} {items : List α} {a : α}
    (h : boxes.flatten = items ++ [a]) :
    ∃ (before : List (List α)) (box : List α),
      before.flatten ++ box = items ∧ before.length + 1 ≤ boxes.length
      ∧ (box ++ [a]) ∈ boxes ∧ ∀ b ∈ before, b ∈ boxes := by
  induction boxes using List.reverseRecOn with
  | nil => exact absurd h.symm (List.append_ne_nil_of_right_ne_nil _ (List.cons_ne_nil a []))
  | append_singleton boxes box ih =>
    rw [List.flatten_append, List.flatten_singleton] at h
    rcases List.eq_nil_or_concat' box with rfl | ⟨front, b, rfl⟩
    · rw [List.append_nil] at h
      obtain ⟨before, box, hitems, hlen, hbox, hbefore⟩ := ih h
      refine ⟨before, box, hitems, ?_, List.mem_append_left _ hbox, fun b hb => ?_⟩
      · rw [List.length_append]
        omega
      · exact List.mem_append_left _ (hbefore b hb)
    · rw [← List.append_assoc] at h
      obtain ⟨hitems, ha⟩ := List.append_inj' h rfl
      refine ⟨boxes, front, hitems, ?_, ?_, fun b hb => List.mem_append_left _ hb⟩
      · rw [List.length_append, List.length_singleton]
      · rw [← ha]
        exact List.mem_append_right _ (List.mem_singleton_self _)

/-- **The greedy boxes are ahead of any others**, by induction on the items: the last one is in the last
    of the other boxes, and without it that box is one of a cut of the items before. -/
theorem fill_ahead (items : List α) : ∀ (boxes : List (List α)) (box : List α),
    boxes.flatten ++ box = items → (∀ b ∈ boxes, load size b ≤ cap) → load size box ≤ cap →
      (fill cap size items).Ahead size boxes box := by
  induction items using List.reverseRecOn with
  | nil =>
    intro boxes box _ _ _
    rcases Nat.eq_zero_or_pos boxes.length with hzero | hpos
    · exact Or.inr ⟨hzero.symm, Nat.zero_le _⟩
    · exact Or.inl hpos
  | append_singleton items a ih =>
    intro boxes box hitems hboxes hbox
    -- the boxes `before` and what stands in front of `a` in its box are a cut of the items
    obtain ⟨before, front, hbefore, hlen, hfront, hsub⟩ : ∃ (before : List (List α)) (front : List α),
        before.flatten ++ front = items ∧ (before.length < boxes.length
          ∨ before.length = boxes.length ∧ load size front + size a ≤ load size box)
        ∧ load size front + size a ≤ cap ∧ ∀ b ∈ before, b ∈ boxes := by
      rcases List.eq_nil_or_concat' box with rfl | ⟨front, b, rfl⟩
      · rw [List.append_nil] at hitems
        obtain ⟨before, front, hbefore, hlen, hmem, hsub⟩ := exists_last_box hitems
        have hload := hboxes _ hmem
        rw [load_append, load_singleton] at hload
        exact ⟨before, front, hbefore, Or.inl hlen, hload, hsub⟩
      · rw [← List.append_assoc] at hitems
        obtain ⟨hfront, ha⟩ := List.append_inj' hitems rfl
        rw [List.cons.injEq] at ha
        rw [ha.1, load_append, load_singleton] at hbox ⊢
        exact ⟨boxes, front, hfront, Or.inr ⟨rfl, Nat.le_refl _⟩, hbox, fun _ hb => hb⟩
    have hahead := ih before front hbefore (fun b hb => hboxes b (hsub b hb)) (by omega)
    have hclose := length_close_le (fill cap size items)
    rw [fill_snoc, Boxes.put]
    split
    · rename_i hfull
      -- a box that `a` does not fit in is fuller than `front`, so the greedy boxes were fewer
      have hfewer : (fill cap size items).closed.length < before.length := by
        rcases hahead with hfewer | ⟨-, hload⟩
        · exact hfewer
        · omega
      rcases hlen with hlen | ⟨hlen, hload⟩
      · left
        show (fill cap size items).close.length < boxes.length
        omega
      · have hopen : load size [a] = size a := load_singleton a
        rcases Nat.lt_or_ge (fill cap size items).close.length boxes.length with hlt | hge
        · exact Or.inl hlt
        · right
          constructor
          · show (fill cap size items).close.length = boxes.length
            omega
          · show load size [a] ≤ load size box
            omega
    · have hopen : load size ((fill cap size items).last ++ [a])
          = load size (fill cap size items).last + size a := by
        rw [load_append, load_singleton]
      rcases hahead with hfewer | ⟨hsame, hload⟩
      · left
        show (fill cap size items).closed.length < boxes.length
        omega
      · rcases hlen with hlen | ⟨hlen, hroom⟩
        · left
          show (fill cap size items).closed.length < boxes.length
          omega
        · right
          constructor
          · show (fill cap size items).closed.length = boxes.length
            omega
          · show load size ((fill cap size items).last ++ [a]) ≤ load size box
            omega

/-- **The fewest boxes**: no way of cutting the items into boxes that are not too full takes fewer. -/
theorem pack_fewest {boxes : List (List α)} (h : ∀ box ∈ boxes, load size box ≤ cap) :
    (pack cap size boxes.flatten).length ≤ boxes.length := by
  rcases List.eq_nil_or_concat' boxes with rfl | ⟨front, box, rfl⟩
  · exact Nat.zero_le _
  · have hahead : (fill cap size (front.flatten ++ box)).Ahead size front box :=
      fill_ahead _ front box rfl (fun b hb => h b (List.mem_append_left _ hb))
        (h box (List.mem_append_right _ (List.mem_singleton_self _)))
    have hclose := length_close_le (fill cap size (front.flatten ++ box))
    rw [List.flatten_append, List.flatten_singleton, List.length_append, List.length_singleton, pack]
    rcases hahead with hfewer | ⟨hsame, -⟩ <;> omega

/-! ## What rides along -/

/-- As many items from the front as the room admits. -/
def topUp (size : α → Nat) (room : Nat) : List α → List α
  | [] => []
  | a :: rest => if size a > room then [] else a :: topUp size (room - size a) rest

theorem topUp_front (room : Nat) (items : List α) : topUp size room items <+: items := by
  induction items generalizing room with
  | nil => exact List.prefix_refl _
  | cons a rest ih =>
    rw [topUp]
    split
    · exact List.nil_prefix
    · exact List.cons_prefix_cons.mpr ⟨rfl, ih _⟩

theorem load_topUp (room : Nat) (items : List α) : load size (topUp size room items) ≤ room := by
  induction items generalizing room with
  | nil => exact Nat.zero_le _
  | cons a rest ih =>
    rw [topUp]
    split
    · exact Nat.zero_le _
    · have hrest := ih (room - size a)
      rw [load, List.map_cons, List.sum_cons]
      rw [load] at hrest
      omega

/-- **As many as there is room for**: every front of the list with no more load is a front of these. -/
theorem topUp_most {room : Nat} {front items : List α} (h : front <+: items)
    (hload : load size front ≤ room) : front <+: topUp size room items := by
  induction items generalizing room front with
  | nil => exact h
  | cons a rest ih =>
    cases front with
    | nil => exact List.nil_prefix
    | cons b front =>
      obtain ⟨rfl, hfront⟩ := List.cons_prefix_cons.mp h
      rw [load, List.map_cons, List.sum_cons, ← load] at hload
      have hfits : ¬ size b > room := by omega
      rw [topUp, if_neg hfits]
      exact List.cons_prefix_cons.mpr ⟨rfl, ih hfront (by omega)⟩

/-- Items that fit the open box go into it. -/
theorem fill_append_fits {items more : List α}
    (h : load size (fill cap size items).last + load size more ≤ cap) :
    fill cap size (items ++ more)
      = ⟨(fill cap size items).closed, (fill cap size items).last ++ more⟩ := by
  induction more using List.reverseRecOn with
  | nil => rw [List.append_nil, List.append_nil]
  | append_singleton more a ih =>
    rw [load_append, load_singleton] at h
    have hfits : ¬ load size ((fill cap size items).last ++ more) + size a > cap := by
      rw [load_append]
      omega
    rw [← List.append_assoc, fill_snoc, ih (by omega), Boxes.put]
    dsimp only
    rw [if_neg hfits, List.append_assoc]

/-- **What fits the open box takes no box of its own.** -/
theorem length_pack_fits {items more : List α} (hitems : items ≠ [])
    (h : load size (fill cap size items).last + load size more ≤ cap) :
    (pack cap size (items ++ more)).length = (pack cap size items).length := by
  obtain ⟨front, a, rfl⟩ := (List.eq_nil_or_concat' items).resolve_left hitems
  have hopen : (fill cap size (front ++ [a])).last ≠ [] := by
    rw [fill_snoc, Boxes.put]
    split
    · exact List.cons_ne_nil a []
    · exact List.append_ne_nil_of_right_ne_nil _ (List.cons_ne_nil a [])
  have hclose : ∀ b : Boxes α, b.last ≠ [] → b.close.length = b.closed.length + 1 := by
    intro b hb
    unfold Boxes.close
    split
    · contradiction
    · rw [List.length_append, List.length_singleton]
  rw [pack, pack, fill_append_fits h, hclose _ hopen, hclose]
  exact List.append_ne_nil_of_left_ne_nil hopen more

end ConnClient.Lib
