import Mathlib.Algebra.Order.Group.Defs
import Mathlib.Data.List.Basic
import Mathlib.Tactic.Abel

/-!
# Sliding windows

Events with their times, in the order they came. An event that is admitted only while
fewer than `limit` others are recent keeps the limit over every half-open window, also
over one that ends at none of the events.
-/
namespace NexaStays.SlidingWindow

variable {T : Type*} [AddCommGroup T] [LinearOrder T]

/-- The events less than `width` before `now`. -/
def recent (now width : T) (events : List T) : List T :=
  events.filter fun t => now - t < width

/-- The events of the window `[start, start + width)`. -/
def inWindow (start width : T) (events : List T) : List T :=
  events.filter fun t => start ≤ t ∧ t < start + width

@[simp] theorem recent_nil (now width : T) : recent now width [] = [] := rfl

@[simp] theorem recent_append (now width : T) (events later : List T) :
    recent now width (events ++ later) = recent now width events ++ recent now width later :=
  List.filter_append ..

@[simp] theorem inWindow_append (start width : T) (events later : List T) :
    inWindow start width (events ++ later) =
      inWindow start width events ++ inWindow start width later :=
  List.filter_append ..

/-- The lists of events each of which found fewer than `limit` recent ones. -/
inductive Admitted (limit : ℕ) (width : T) : List T → Prop
  | nil : Admitted limit width []
  | append {events : List T} {now : T} (before : Admitted limit width events)
      (ordered : ∀ t ∈ events, t ≤ now) (room : (recent now width events).length < limit) :
      Admitted limit width (events ++ [now])

section Order

variable [IsOrderedAddMonoid T]

/-- What was dropped earlier, under a width at least as large, would be dropped now. -/
theorem recent_recent {earlier now width wide : T} (hnow : earlier ≤ now) (hwide : width ≤ wide)
    (events : List T) :
    recent now width (recent earlier wide events) = recent now width events := by
  rw [recent, recent, List.filter_filter]
  refine List.filter_congr fun t _ => ?_
  have hwider : now - t < width → earlier - t < wide := fun h =>
    (sub_le_sub_right hnow t).trans_lt (h.trans_le hwide)
  by_cases h : now - t < width <;> simp [h, hwider]

/-- A window that an event falls into holds only recent events beside it. -/
theorem inWindow_sublist_recent {start width now : T} (hnow : now < start + width)
    (events : List T) :
    (inWindow start width events).Sublist (recent now width events) := by
  refine List.monotone_filter_right events fun t ht => ?_
  have hstart : start ≤ t := (of_decide_eq_true ht).1
  have hlt : now < t + width := hnow.trans_le (by simpa using hstart)
  exact decide_eq_true (sub_lt_iff_lt_add'.mpr hlt)

theorem Admitted.length_inWindow_le {limit : ℕ} {width : T} {events : List T}
    (h : Admitted limit width events) (start : T) :
    (inWindow start width events).length ≤ limit := by
  induction h with
  | nil => simp [inWindow]
  | @append events now _ _ room ih =>
    rw [inWindow_append, List.length_append]
    by_cases hnow : start ≤ now ∧ now < start + width
    · have hrecent := (inWindow_sublist_recent hnow.2 events).length_le
      have hone : (inWindow start width [now]).length = 1 := by simp [inWindow, hnow]
      omega
    · have hnone : inWindow start width [now] = [] := by simp [inWindow, hnow]
      rw [hnone, List.length_nil, add_zero]
      exact ih

end Order

end NexaStays.SlidingWindow
