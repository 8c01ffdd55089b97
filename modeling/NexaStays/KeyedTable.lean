import Mathlib.Data.List.Basic
import Mathlib.Data.List.Nodup

/-!
# Tables keyed by a column

A table is a list of rows in insertion order in which no key occurs twice; the
table carries that fact, so a lookup by key is unambiguous. `put` overwrites the
row with the same key in place and otherwise appends, which is what one statement
of a relational store does to one row.
-/
namespace NexaStays.KeyedTable

/-- Rows in insertion order, no two with the same key. -/
structure Table {ρ κ : Type} (key : ρ → κ) where
  rows : List ρ
  nodup : (rows.map key).Nodup

variable {ρ κ : Type} {key : ρ → κ}

namespace Table

/-- The table without rows. -/
def empty : Table key := ⟨[], by simp⟩

@[simp] theorem rows_empty : (empty : Table key).rows = [] := rfl

theorem eq_of_key_eq (t : Table key) {a b : ρ} (ha : a ∈ t.rows) (hb : b ∈ t.rows)
    (h : key a = key b) : a = b :=
  List.inj_on_of_nodup_map t.nodup ha hb h

variable [DecidableEq κ]

/-- The row stored under a key. -/
def find? (t : Table key) (k : κ) : Option ρ := t.rows.find? fun r => key r = k

@[simp] theorem find?_empty (k : κ) : (empty : Table key).find? k = none := rfl

theorem find?_eq_some {t : Table key} {k : κ} {r : ρ} :
    t.find? k = some r ↔ r ∈ t.rows ∧ key r = k := by
  constructor
  · intro h
    exact ⟨List.mem_of_find?_eq_some h, by simpa using List.find?_some h⟩
  · rintro ⟨hr, rfl⟩
    cases hf : t.find? (key r) with
    | none => simp [find?, List.find?_eq_none] at hf; exact absurd rfl (hf r hr)
    | some a =>
      have ha : key a = key r := by simpa using List.find?_some hf
      rw [t.eq_of_key_eq (List.mem_of_find?_eq_some hf) hr ha]

theorem find?_eq_none {t : Table key} {k : κ} :
    t.find? k = none ↔ ∀ r ∈ t.rows, key r ≠ k := by
  simp [find?, List.find?_eq_none]

theorem mem_of_find? {t : Table key} {k : κ} {r : ρ} (h : t.find? k = some r) : r ∈ t.rows :=
  (find?_eq_some.mp h).1

theorem key_of_find? {t : Table key} {k : κ} {r : ρ} (h : t.find? k = some r) : key r = k :=
  (find?_eq_some.mp h).2

theorem find?_key {t : Table key} {r : ρ} (h : r ∈ t.rows) : t.find? (key r) = some r :=
  find?_eq_some.mpr ⟨h, rfl⟩

/-- Some number is no key of the table. -/
theorem exists_absent {ρ : Type} {key : ρ → ℕ} (t : Table key) : ∃ n, t.find? n = none := by
  have hbound : ∀ rows : List ρ, ∃ n, ∀ r ∈ rows, key r < n := by
    intro rows
    induction rows with
    | nil => exact ⟨0, by simp⟩
    | cons r rows ih =>
      obtain ⟨n, hn⟩ := ih
      refine ⟨n + key r + 1, fun x hx => ?_⟩
      obtain rfl | hx := List.mem_cons.mp hx
      · omega
      · have hlt := hn x hx
        omega
  obtain ⟨n, hn⟩ := hbound t.rows
  exact ⟨n, find?_eq_none.mpr fun r hr hkey => absurd (hn r hr) (by omega)⟩

/-- The rows after `r` is written: in place when its key is taken, else at the end. -/
def putRows (rows : List ρ) (key : ρ → κ) (r : ρ) : List ρ :=
  if key r ∈ rows.map key then rows.map fun x => if key x = key r then r else x
  else rows ++ [r]

theorem map_key_overwrite (rows : List ρ) (r : ρ) :
    (rows.map fun x => if key x = key r then r else x).map key = rows.map key := by
  rw [List.map_map]
  refine List.map_congr_left fun x _ => ?_
  by_cases h : key x = key r <;> simp [h]

theorem nodup_putRows {rows : List ρ} (h : (rows.map key).Nodup) (r : ρ) :
    ((putRows rows key r).map key).Nodup := by
  unfold putRows
  split_ifs with hr
  · rwa [map_key_overwrite]
  · rw [List.map_append, List.nodup_append]
    refine ⟨h, by simp, ?_⟩
    intro a ha b hb
    obtain rfl : b = key r := by simpa using hb
    exact fun hab => hr (hab ▸ ha)

/-- Insert a row, or overwrite the row that has its key. -/
def put (t : Table key) (r : ρ) : Table key :=
  ⟨putRows t.rows key r, nodup_putRows t.nodup r⟩

theorem rows_put_of_absent {t : Table key} {r : ρ} (h : t.find? (key r) = none) :
    (t.put r).rows = t.rows ++ [r] := by
  have hr : key r ∉ t.rows.map key := by
    simpa [find?_eq_none] using h
  simp [put, putRows, hr]

theorem rows_put_of_present {t : Table key} {r a : ρ} (h : t.find? (key r) = some a) :
    (t.put r).rows = t.rows.map fun x => if key x = key r then r else x := by
  have hr : key r ∈ t.rows.map key :=
    List.mem_map.mpr ⟨a, mem_of_find? h, key_of_find? h⟩
  simp [put, putRows, hr]

theorem mem_put {t : Table key} {r x : ρ} :
    x ∈ (t.put r).rows ↔ x = r ∨ x ∈ t.rows ∧ key x ≠ key r := by
  cases h : t.find? (key r) with
  | none =>
    rw [rows_put_of_absent h]
    have hne := find?_eq_none.mp h
    simp only [List.mem_append, List.mem_singleton]
    constructor
    · rintro (hx | rfl)
      · exact Or.inr ⟨hx, hne x hx⟩
      · exact Or.inl rfl
    · rintro (rfl | ⟨hx, -⟩)
      · exact Or.inr rfl
      · exact Or.inl hx
  | some a =>
    rw [rows_put_of_present h]
    simp only [List.mem_map]
    constructor
    · rintro ⟨y, hy, rfl⟩
      by_cases hk : key y = key r
      · simp [hk]
      · simp [hk, hy]
    · rintro (rfl | ⟨hx, hk⟩)
      · exact ⟨a, mem_of_find? h, by simp [key_of_find? h]⟩
      · exact ⟨x, hx, by simp [hk]⟩

theorem mem_put_self (t : Table key) (r : ρ) : r ∈ (t.put r).rows := mem_put.mpr (Or.inl rfl)

@[simp] theorem find?_put (t : Table key) (r : ρ) (k : κ) :
    (t.put r).find? k = if k = key r then some r else t.find? k := by
  split_ifs with h
  · exact h ▸ find?_key (mem_put_self t r)
  · cases hf : t.find? k with
    | none =>
      refine find?_eq_none.mpr fun x hx => ?_
      obtain rfl | ⟨hx, -⟩ := mem_put.mp hx
      · exact fun hk => h hk.symm
      · exact find?_eq_none.mp hf x hx
    | some a =>
      obtain ⟨ha, rfl⟩ := find?_eq_some.mp hf
      exact find?_key (mem_put.mpr (Or.inr ⟨ha, h⟩))

theorem find?_put_of_ne {t : Table key} {r : ρ} {k : κ} (h : k ≠ key r) :
    (t.put r).find? k = t.find? k := by simp [h]

private theorem eq_of_overwritten {t : Table key} {r a x : ρ} (h : t.find? (key r) = some a)
    (hx : x ∈ t.rows) (hk : key x = key r) : x = a :=
  t.eq_of_key_eq hx (mem_of_find? h) (hk.trans (key_of_find? h).symm)

/-- A selection is unchanged by a write that neither the old nor the new row enters. -/
theorem filter_put_of_neg {t : Table key} {r : ρ} {p : ρ → Bool} (hr : p r = false)
    (ho : ∀ a, t.find? (key r) = some a → p a = false) :
    (t.put r).rows.filter p = t.rows.filter p := by
  cases h : t.find? (key r) with
  | none => simp [rows_put_of_absent h, List.filter_append, hr]
  | some a =>
    have hkey : ∀ x ∈ t.rows, key x = key r → p x = false := fun x hx hk =>
      eq_of_overwritten h hx hk ▸ ho a h
    rw [rows_put_of_present h, List.filter_map]
    have hfix : ∀ x ∈ t.rows, (p ∘ fun x => if key x = key r then r else x) x = p x := by
      intro x hx
      by_cases hk : key x = key r
      · simp [hk, hr, hkey x hx hk]
      · simp [hk]
    rw [List.filter_congr hfix]
    refine (List.map_congr_left fun x hx => ?_).trans (List.map_id _)
    obtain ⟨hx, hp⟩ := List.mem_filter.mp hx
    have hk : key x ≠ key r := fun hk => by simp [hkey x hx hk] at hp
    simp [hk]

/-- A new row that is selected goes to the end of the selection. -/
theorem filter_put_of_absent {t : Table key} {r : ρ} {p : ρ → Bool}
    (h : t.find? (key r) = none) (hr : p r = true) :
    (t.put r).rows.filter p = t.rows.filter p ++ [r] := by
  simp [rows_put_of_absent h, List.filter_append, hr]

/-- An overwritten row keeps its place in the selection. -/
theorem filter_put_of_present {t : Table key} {r a : ρ} {p : ρ → Bool}
    (h : t.find? (key r) = some a) (hr : p r = true) (ha : p a = true) :
    (t.put r).rows.filter p =
      (t.rows.filter p).map fun x => if key x = key r then r else x := by
  rw [rows_put_of_present h, List.filter_map]
  congr 1
  refine List.filter_congr fun x hx => ?_
  by_cases hk : key x = key r
  · have hpx : p x = true := eq_of_overwritten h hx hk ▸ ha
    simp [hk, hr, hpx]
  · simp [hk]

theorem filter_key_eq (t : Table key) (k : κ) :
    (t.rows.filter fun r => key r = k) = (t.find? k).toList := by
  have hone : ∀ rows : List ρ, (rows.map key).Nodup →
      (rows.filter fun r => key r = k) = (rows.find? fun r => key r = k).toList := by
    intro rows
    induction rows with
    | nil => simp
    | cons r rows ih =>
      intro hn
      obtain ⟨hr, hn⟩ := List.nodup_cons.mp hn
      by_cases hk : key r = k
      · have hnone : (rows.filter fun r => key r = k) = [] := by
          refine List.filter_eq_nil_iff.mpr fun x hx hxk => hr ?_
          rw [hk, ← of_decide_eq_true hxk]
          exact List.mem_map_of_mem hx
        simp [hk, hnone]
      · simp [hk, ih hn]
  exact hone t.rows t.nodup

/-- Rows written one after the other. -/
def putAll (t : Table key) (rows : List ρ) : Table key := rows.foldl put t

@[simp] theorem putAll_nil (t : Table key) : t.putAll [] = t := rfl

@[simp] theorem putAll_cons (t : Table key) (r : ρ) (rows : List ρ) :
    t.putAll (r :: rows) = (t.put r).putAll rows := rfl

/-- An `UPDATE` of some rows of the table, that leaves their keys alone. -/
theorem rows_putAll_map {f : ρ → ρ} (hf : ∀ r, key (f r) = key r) {t : Table key} {l : List ρ}
    (hmem : ∀ r ∈ l, t.find? (key r) = some r) (hl : (l.map key).Nodup) :
    (t.putAll (l.map f)).rows = t.rows.map fun r => if key r ∈ l.map key then f r else r := by
  induction l generalizing t with
  | nil => simp
  | cons x l ih =>
    obtain ⟨hx, hl⟩ := List.nodup_cons.mp hl
    have hrow := hmem x (by simp)
    have hput : (t.put (f x)).rows = t.rows.map fun r => if key r = key x then f r else r := by
      rw [rows_put_of_present (a := x) (by rw [hf]; exact hrow)]
      refine List.map_congr_left fun r hr => ?_
      by_cases hk : key r = key x
      · obtain rfl := t.eq_of_key_eq hr (mem_of_find? hrow) hk
        simp [hf]
      · simp [hf, hk]
    have hrest : ∀ r ∈ l, (t.put (f x)).find? (key r) = some r := by
      intro r hr
      have hne : key r ≠ key x := fun hk => hx (hk ▸ List.mem_map_of_mem hr)
      rw [find?_put_of_ne (by rwa [hf])]
      exact hmem r (by simp [hr])
    rw [List.map_cons, putAll_cons, ih hrest hl, hput, List.map_map]
    refine List.map_congr_left fun r _ => ?_
    by_cases hk : key r = key x
    · have hnot : key (f r) ∉ l.map key := by rwa [hf, hk]
      simp only [Function.comp_apply, hk, if_true, if_neg hnot, List.map_cons, List.mem_cons,
        true_or]
    · simp [hk]

theorem mem_putAll_map {f : ρ → ρ} (hf : ∀ r, key (f r) = key r) {t : Table key} {l : List ρ}
    (hmem : ∀ r ∈ l, t.find? (key r) = some r) (hl : (l.map key).Nodup) {x : ρ} :
    x ∈ (t.putAll (l.map f)).rows ↔
      ∃ r ∈ t.rows, x = if key r ∈ l.map key then f r else r := by
  simp [rows_putAll_map hf hmem hl, eq_comm]

/-- The rows a condition selects are rows of the table, each once. -/
theorem find?_of_mem_filter {t : Table key} {p : ρ → Bool} {r : ρ} (h : r ∈ t.rows.filter p) :
    t.find? (key r) = some r :=
  find?_key (List.mem_filter.mp h).1

omit [DecidableEq κ] in
theorem nodup_filter (t : Table key) (p : ρ → Bool) : ((t.rows.filter p).map key).Nodup :=
  t.nodup.sublist (List.filter_sublist.map key)

/-- The table without the row of a key. -/
def delete (t : Table key) (k : κ) : Table key :=
  ⟨t.rows.filter fun r => key r ≠ k, t.nodup.sublist (List.filter_sublist.map key)⟩

@[simp] theorem mem_delete {t : Table key} {k : κ} {r : ρ} :
    r ∈ (t.delete k).rows ↔ r ∈ t.rows ∧ key r ≠ k := by
  simp [delete]

@[simp] theorem find?_delete (t : Table key) (k k' : κ) :
    (t.delete k).find? k' = if k' = k then none else t.find? k' := by
  by_cases h : k' = k
  · rw [if_pos h, find?_eq_none]
    intro r hr hk
    exact (mem_delete.mp hr).2 (hk.trans h)
  · rw [if_neg h]
    cases hf : t.find? k' with
    | none =>
      apply find?_eq_none.mpr
      intro r hr
      exact find?_eq_none.mp hf r (mem_delete.mp hr).1
    | some r =>
      obtain ⟨hr, rfl⟩ := find?_eq_some.mp hf
      exact find?_key (mem_delete.mpr ⟨hr, h⟩)

/-- Rows deleted one after the other. -/
def deleteAll (t : Table key) (rows : List ρ) : Table key := rows.foldl (fun t r => t.delete (key r)) t

@[simp] theorem deleteAll_nil (t : Table key) : t.deleteAll [] = t := rfl

@[simp] theorem deleteAll_cons (t : Table key) (r : ρ) (rows : List ρ) :
    t.deleteAll (r :: rows) = (t.delete (key r)).deleteAll rows := rfl

theorem mem_deleteAll {t : Table key} {rows : List ρ} {x : ρ} :
    x ∈ (t.deleteAll rows).rows ↔ x ∈ t.rows ∧ key x ∉ rows.map key := by
  induction rows generalizing t with
  | nil => simp
  | cons r rows ih =>
    rw [deleteAll_cons, ih, mem_delete, List.map_cons, List.mem_cons, not_or, and_assoc]

theorem find?_deleteAll (t : Table key) (rows : List ρ) (k : κ) :
    (t.deleteAll rows).find? k = if k ∈ rows.map key then none else t.find? k := by
  induction rows generalizing t with
  | nil => simp
  | cons r rows ih =>
    rw [deleteAll_cons, ih, find?_delete, List.map_cons]
    by_cases hk : k = key r
    · simp [hk]
    · simp [hk]

theorem rows_deleteAll (t : Table key) (rows : List ρ) :
    (t.deleteAll rows).rows = t.rows.filter fun r => key r ∉ rows.map key := by
  induction rows generalizing t with
  | nil => simp
  | cons r rows ih =>
    rw [deleteAll_cons, ih, delete, List.filter_filter]
    refine List.filter_congr fun x _ => ?_
    by_cases h : key x = key r <;> simp [h]

/-- The rows of a selection are deleted. -/
theorem filter_deleteAll_self (t : Table key) (p : ρ → Bool) :
    (t.deleteAll (t.rows.filter p)).rows.filter p = [] := by
  apply List.filter_eq_nil_iff.mpr
  intro r hr hp
  obtain ⟨hrow, hnot⟩ := mem_deleteAll.mp hr
  exact hnot (List.mem_map_of_mem (List.mem_filter.mpr ⟨hrow, hp⟩))

/-- A selection that no deleted row is in. -/
theorem filter_deleteAll_of_neg {t : Table key} {p q : ρ → Bool}
    (h : ∀ r, p r = true → q r = false) :
    (t.deleteAll (t.rows.filter q)).rows.filter p = t.rows.filter p := by
  rw [rows_deleteAll, List.filter_filter]
  refine List.filter_congr fun r hr => ?_
  cases hp : p r with
  | false => simp
  | true =>
    have hnot : key r ∉ (t.rows.filter q).map key := by
      intro hmem
      obtain ⟨x, hx, hkey⟩ := List.mem_map.mp hmem
      obtain ⟨hx, hq⟩ := List.mem_filter.mp hx
      obtain rfl := t.eq_of_key_eq hx hr hkey
      rw [h x hp] at hq
      cases hq
    simp [hnot]

/-- An `UPDATE` of a selection. -/
theorem rows_update {f : ρ → ρ} (hf : ∀ r, key (f r) = key r) (t : Table key) (q : ρ → Bool) :
    (t.putAll ((t.rows.filter q).map f)).rows = t.rows.map fun r => if q r then f r else r := by
  rw [rows_putAll_map hf (fun r hr => find?_of_mem_filter hr) (nodup_filter t q)]
  refine List.map_congr_left fun r hr => ?_
  have hiff : key r ∈ (t.rows.filter q).map key ↔ q r = true := by
    constructor
    · intro hmem
      obtain ⟨x, hx, hkey⟩ := List.mem_map.mp hmem
      obtain ⟨hx, hq⟩ := List.mem_filter.mp hx
      rwa [← t.eq_of_key_eq hx hr hkey]
    · exact fun hq => List.mem_map_of_mem (List.mem_filter.mpr ⟨hr, hq⟩)
  by_cases hq : q r = true
  · rw [if_pos (hiff.mpr hq), if_pos hq]
  · rw [if_neg (hq ∘ hiff.mp), if_neg hq]

theorem find?_update {f : ρ → ρ} (hf : ∀ r, key (f r) = key r) (t : Table key) (q : ρ → Bool)
    (k : κ) : (t.putAll ((t.rows.filter q).map f)).find? k =
      (t.find? k).map fun r => if q r then f r else r := by
  have hkey : ∀ r, key (if q r then f r else r) = key r := by
    intro r
    by_cases h : q r = true <;> simp [h, hf]
  rw [find?, rows_update hf, List.find?_map, find?]
  have hsame : ((fun r => decide (key r = k)) ∘ fun r => if q r then f r else r) =
      fun r => decide (key r = k) := by
    funext r
    simp only [Function.comp_apply, hkey]
  rw [hsame]

theorem mem_update {f : ρ → ρ} (hf : ∀ r, key (f r) = key r) (t : Table key) (q : ρ → Bool)
    {x : ρ} : x ∈ (t.putAll ((t.rows.filter q).map f)).rows ↔
      ∃ r ∈ t.rows, x = if q r then f r else r := by
  rw [rows_update hf, List.mem_map]
  exact ⟨fun ⟨r, hr, h⟩ => ⟨r, hr, h.symm⟩, fun ⟨r, hr, h⟩ => ⟨r, hr, h.symm⟩⟩

theorem filter_update_self {f : ρ → ρ} (hf : ∀ r, key (f r) = key r) (t : Table key)
    {q : ρ → Bool} (hq : ∀ r, q (f r) = q r) :
    (t.putAll ((t.rows.filter q).map f)).rows.filter q = (t.rows.filter q).map f := by
  rw [rows_update hf, List.filter_map]
  have hsame : ∀ r ∈ t.rows, (q ∘ fun r => if q r then f r else r) r = q r := by
    intro r _
    by_cases h : q r = true <;> simp [h, hq]
  rw [List.filter_congr hsame]
  exact List.map_congr_left fun r hr => if_pos (List.mem_filter.mp hr).2

theorem filter_update_of_neg {f : ρ → ρ} (hf : ∀ r, key (f r) = key r) (t : Table key)
    {p q : ρ → Bool} (hpf : ∀ r, p (f r) = p r) (h : ∀ r, p r = true → q r = false) :
    (t.putAll ((t.rows.filter q).map f)).rows.filter p = t.rows.filter p := by
  rw [rows_update hf, List.filter_map]
  have hsame : ∀ r ∈ t.rows, (p ∘ fun r => if q r then f r else r) r = p r := by
    intro r _
    by_cases h : q r = true <;> simp [h, hpf]
  rw [List.filter_congr hsame]
  refine (List.map_congr_left fun r hr => ?_).trans (List.map_id _)
  simp [h r (List.mem_filter.mp hr).2]

/-- A row that is written as it is. -/
theorem put_self {t : Table key} {r : ρ} (h : t.find? (key r) = some r) : t.put r = t := by
  have hrows : (t.put r).rows = t.rows := by
    rw [rows_put_of_present h]
    refine (List.map_congr_left fun x hx => ?_).trans (List.map_id _)
    by_cases hk : key x = key r
    · rw [if_pos hk, eq_of_overwritten h hx hk, id]
    · rw [if_neg hk, id]
  cases t
  simpa [put] using hrows

/-- What is written last under a key stays. -/
theorem put_put (t : Table key) {a b : ρ} (h : key a = key b) : (t.put a).put b = t.put b := by
  have hrows : putRows (putRows t.rows key a) key b = putRows t.rows key b := by
    simp only [putRows, h]
    by_cases hb : key b ∈ t.rows.map key
    · have hkeys : (t.rows.map fun x => if key x = key b then a else x).map key =
          t.rows.map key := by
        rw [← h]
        exact map_key_overwrite t.rows a
      rw [if_pos hb, hkeys, if_pos hb, if_pos hb, List.map_map]
      refine List.map_congr_left fun x _ => ?_
      simp only [Function.comp_apply]
      by_cases hx : key x = key b
      · rw [if_pos hx, if_pos h, if_pos hx]
      · rw [if_neg hx, if_neg hx]
    · have hne : ∀ x ∈ t.rows, key x ≠ key b := fun x hx hkey =>
        hb (List.mem_map.mpr ⟨x, hx, hkey⟩)
      have hself : (t.rows.map fun x => if key x = key b then b else x) = t.rows :=
        (List.map_congr_left fun x hx => if_neg (hne x hx)).trans (List.map_id _)
      have hmem : key b ∈ (t.rows ++ [a]).map key := by simp [h]
      rw [if_neg hb, if_neg hb, if_pos hmem, List.map_append, hself, List.map_singleton, if_pos h]
  rw [put, put, put]
  simp only [hrows]

section Maps

variable {ρ' : Type} {key' : ρ' → κ} {f : ρ → ρ'} {t : Table key} {t' : Table key'}

theorem find?_map (hkey : ∀ r, key' (f r) = key r) (h : t'.rows = t.rows.map f) (k : κ) :
    t'.find? k = (t.find? k).map f := by
  rw [find?, h, List.find?_map]
  simp only [Function.comp_def, hkey]
  rfl

/-- Tables whose rows correspond still do after a write of rows that do. -/
theorem rows_put_map (hkey : ∀ r, key' (f r) = key r) (h : t'.rows = t.rows.map f) (r : ρ) :
    (t'.put (f r)).rows = (t.put r).rows.map f := by
  have hkeys : (t.rows.map f).map key' = t.rows.map key := by
    rw [List.map_map]
    exact List.map_congr_left fun r _ => hkey r
  simp only [put, putRows, h, hkeys, hkey]
  split_ifs
  · rw [List.map_map, List.map_map]
    refine List.map_congr_left fun x _ => ?_
    simp only [Function.comp_apply, hkey]
    split_ifs <;> rfl
  · simp

end Maps

theorem find?_putAll_of_notMem {t : Table key} {rows : List ρ} {k : κ}
    (h : k ∉ rows.map key) : (t.putAll rows).find? k = t.find? k := by
  induction rows generalizing t with
  | nil => rfl
  | cons r rows ih =>
    rw [List.map_cons, List.mem_cons, not_or] at h
    rw [putAll_cons, ih h.2, find?_put_of_ne h.1]

/-- The rows of a statement that writes no key twice are there afterwards. -/
theorem find?_putAll_of_mem {t : Table key} {rows : List ρ} {r : ρ} (hn : (rows.map key).Nodup)
    (h : r ∈ rows) : (t.putAll rows).find? (key r) = some r := by
  induction rows generalizing t with
  | nil => simp at h
  | cons x rows ih =>
    obtain ⟨hx, hn⟩ := List.nodup_cons.mp hn
    rw [putAll_cons]
    obtain rfl | h := List.mem_cons.mp h
    · rw [find?_putAll_of_notMem hx]
      exact find?_key (mem_put_self t r)
    · exact ih hn h

theorem mem_putAll {t : Table key} {rows : List ρ} (hn : (rows.map key).Nodup) {x : ρ} :
    x ∈ (t.putAll rows).rows ↔ x ∈ rows ∨ x ∈ t.rows ∧ key x ∉ rows.map key := by
  have hfind : x ∈ (t.putAll rows).rows ↔ (t.putAll rows).find? (key x) = some x :=
    ⟨find?_key, mem_of_find?⟩
  rw [hfind]
  by_cases hk : key x ∈ rows.map key
  · obtain ⟨r, hr, hkey⟩ := List.mem_map.mp hk
    rw [← hkey, find?_putAll_of_mem hn hr]
    constructor
    · intro h
      obtain rfl := Option.some.inj h
      exact Or.inl hr
    · rintro (hx | ⟨-, hnot⟩)
      · rw [List.inj_on_of_nodup_map hn hr hx hkey]
      · exact absurd (List.mem_map_of_mem hr) hnot
  · rw [find?_putAll_of_notMem hk]
    constructor
    · intro h
      exact Or.inr ⟨mem_of_find? h, hk⟩
    · rintro (hx | ⟨hx, -⟩)
      · exact absurd (List.mem_map_of_mem hx) hk
      · exact find?_key hx

/-- A table holding the given rows, for tables that are written down. -/
def ofRows (rows : List ρ) : Table key := rows.foldl put empty

end Table

end NexaStays.KeyedTable
