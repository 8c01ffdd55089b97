import Mathlib.Algebra.BigOperators.Group.List.Basic
import Mathlib.Tactic.Common

/-!
# Sums by groups

Items are added up group by group, in accumulators or after a selection. Over all groups the
sums are those over all items.
-/
namespace NexaStays.GroupedSums

variable {α β κ M : Type} [DecidableEq κ] [AddCommMonoid M]

/-- A map from keys to accumulators; an update of one leaves the others, and does
nothing where there is none. -/
def update (accById : List (κ × α)) (id : κ) (f : α → α) : List (κ × α) :=
  accById.map fun (k, a) => if k = id then (k, f a) else (k, a)

theorem map_fst_update (accById : List (κ × α)) (id : κ) (f : α → α) :
    (update accById id f).map Prod.fst = accById.map Prod.fst := by
  rw [update, List.map_map]
  refine List.map_congr_left fun p _ => ?_
  by_cases h : p.1 = id <;> simp [h]

/-- What an update adds to one accumulator it adds to their sum. -/
theorem sum_update {accById : List (κ × α)} (hnodup : (accById.map Prod.fst).Nodup) {id : κ}
    (hid : id ∈ accById.map Prod.fst) {f : α → α} {measure : α → M} {x : M}
    (hf : ∀ a, measure (f a) = measure a + x) :
    ((update accById id f).map fun p => measure p.2).sum =
      (accById.map fun p => measure p.2).sum + x := by
  induction accById with
  | nil => simp at hid
  | cons p accs ih =>
    obtain ⟨hfresh, hrest⟩ := List.nodup_cons.mp hnodup
    by_cases hp : p.1 = id
    · have hothers : update accs id f = accs := by
        refine (List.map_congr_left fun q hq => ?_).trans (List.map_id _)
        have hne : q.1 ≠ id := fun h => hfresh (by
          rw [hp, ← h]
          exact List.mem_map_of_mem hq)
        simp [hne]
      have hcons : update (p :: accs) id f = (p.1, f p.2) :: update accs id f := by
        simp [update, hp]
      rw [hcons, hothers, List.map_cons, List.map_cons, List.sum_cons, List.sum_cons, hf]
      exact add_right_comm _ _ _
    · have hcons : update (p :: accs) id f = p :: update accs id f := by simp [update, hp]
      have hid' : id ∈ accs.map Prod.fst := by
        rcases List.mem_cons.mp hid with h | h
        · exact absurd h.symm hp
        · exact h
      rw [hcons, List.map_cons, List.map_cons, List.sum_cons, List.sum_cons, ih hrest hid',
        add_assoc]

/-- After a loop over items each of which belongs to one accumulator, the sum has grown by
what the items add. -/
theorem sum_foldl_update {key : β → κ} {f : β → α → α} {measure : α → M}
    {x : β → M} (hf : ∀ b a, measure (f b a) = measure a + x b) {items : List β}
    {accById : List (κ × α)} (hnodup : (accById.map Prod.fst).Nodup)
    (hkeys : ∀ b ∈ items, key b ∈ accById.map Prod.fst) :
    ((items.foldl (fun accs b => update accs (key b) (f b)) accById).map
      fun p => measure p.2).sum =
        (accById.map fun p => measure p.2).sum + (items.map x).sum := by
  induction items generalizing accById with
  | nil => simp
  | cons b items ih =>
    have hsame := map_fst_update accById (key b) (f b)
    rw [List.foldl_cons, ih (by rw [hsame]; exact hnodup)
      (fun c hc => by rw [hsame]; exact hkeys c (by simp [hc])),
      sum_update hnodup (hkeys b (by simp)) (hf b), List.map_cons, List.sum_cons, add_assoc]

/-- What every update keeps holds of all accumulators after the loop. -/
theorem forall_foldl_update {key : β → κ} {f : β → α → α} {P : α → Prop}
    (hf : ∀ b a, P a → P (f b a)) (items : List β) {accById : List (κ × α)}
    (h : ∀ p ∈ accById, P p.2) :
    ∀ p ∈ items.foldl (fun accs b => update accs (key b) (f b)) accById, P p.2 := by
  induction items generalizing accById with
  | nil => exact h
  | cons b items ih =>
    refine ih fun p hp => ?_
    obtain ⟨q, hq, rfl⟩ := List.mem_map.mp hp
    dsimp only
    split_ifs
    · exact hf b q.2 (h q hq)
    · exact h q hq

/-- A value that one key has is the sum over all keys. -/
theorem sum_map_single {keys : List κ} (hnodup : keys.Nodup) {k : κ} (hk : k ∈ keys) (y : M) :
    (keys.map fun j => if j = k then y else 0).sum = y := by
  induction keys with
  | nil => simp at hk
  | cons j keys ih =>
    obtain ⟨hfresh, hrest⟩ := List.nodup_cons.mp hnodup
    rw [List.map_cons, List.sum_cons]
    by_cases hj : j = k
    · have hzero : ∀ i ∈ keys, (if i = k then y else 0) = (0 : M) := fun i hi =>
        if_neg fun h => hfresh (by rwa [hj, ← h])
      rw [if_pos hj, List.map_congr_left hzero]
      simp
    · have hk' : k ∈ keys := (List.mem_cons.mp hk).resolve_left fun h => hj h.symm
      rw [if_neg hj, ih hrest hk', zero_add]

/-- The values of the rows of each key add up to those of all rows whose key is listed. -/
theorem sum_by_key (key : β → Option κ) (x : β → M) {keys : List κ}
    (hnodup : keys.Nodup) {rows : List β} (hkeys : ∀ r ∈ rows, ∃ k ∈ keys, key r = some k) :
    (keys.map fun k => ((rows.filter fun r => key r = some k).map x).sum).sum =
      (rows.map x).sum := by
  induction rows with
  | nil => simp
  | cons r rows ih =>
    obtain ⟨k, hk, hr⟩ := hkeys r (by simp)
    have hrest := ih fun c hc => hkeys c (by simp [hc])
    have hsplit : ∀ j, (((r :: rows).filter fun r => key r = some j).map x).sum =
        (if j = k then x r else 0) + ((rows.filter fun r => key r = some j).map x).sum := by
      intro j
      by_cases hj : j = k
      · simp [hr, hj]
      · have hne : ¬k = j := fun h => hj h.symm
        simp [hr, hj, hne]
    simp only [hsplit]
    rw [List.sum_map_add, sum_map_single hnodup hk, hrest, List.map_cons, List.sum_cons]

theorem lookup_map_self (keys : List κ) (f : κ → β) (k : κ) :
    (keys.map fun j => (j, f j)).lookup k = if k ∈ keys then some (f k) else none := by
  induction keys with
  | nil => simp
  | cons j keys ih =>
    by_cases hj : k = j
    · subst hj
      simp
    · have hbeq : (k == j) = false := by simpa using hj
      rw [List.map_cons, List.lookup_cons, hbeq, ih]
      simp [hj]

end NexaStays.GroupedSums
