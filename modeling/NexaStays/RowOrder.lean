import Mathlib.Data.List.Permutation
import NexaStays.Completions

/-!
# Queries without an order

The database returns the rows of a query without `ORDER BY` in any order. The number that a
program receives says in which one.
-/
namespace NexaStays.RowOrder

open NexaStays.Transactions NexaStays.Completions

variable {σ κ ω ε α : Type}

/-- One of the orders of the rows. -/
def arranged (n : ℕ) (rows : List α) : List α :=
  (rows.permutations'[n % rows.permutations'.length]?).getD rows

theorem arranged_perm (n : ℕ) (rows : List α) : (arranged n rows).Perm rows := by
  rw [arranged]
  cases h : rows.permutations'[n % rows.permutations'.length]? with
  | none => exact .refl rows
  | some rows' => exact List.mem_permutations'.mp (List.mem_of_getElem? h)

theorem mem_arranged {n : ℕ} {rows : List α} {a : α} : a ∈ arranged n rows ↔ a ∈ rows :=
  (arranged_perm n rows).mem_iff

/-- Every order is one of them. -/
theorem exists_arranged {rows rows' : List α} (h : rows'.Perm rows) :
    ∃ n, arranged n rows = rows' := by
  obtain ⟨n, hlt, hn⟩ := List.getElem_of_mem (List.mem_permutations'.mpr h)
  refine ⟨n, ?_⟩
  rw [arranged, Nat.mod_eq_of_lt hlt, List.getElem?_eq_getElem hlt, hn]
  rfl

/-- `find` without an order. -/
def findAll (e : ε) (f : σ → List α) : Program σ κ ω ε (List α) :=
  .choose fun n => Program.query e fun s => arranged n (f s)

section Rules

variable [Storage σ κ ω] {e : ε} {f : σ → List α} {ses : Session κ ω} {s : σ}

theorem mustEnd_findAll {P : List α → Session κ ω → σ → Prop}
    (h : ∀ n, P (arranged n (f (ses.view s))) ses s) :
    MustEnd (Value P) (findAll e f : Program σ κ ω ε (List α)) ses s :=
  fun n => MustEnd.query (h n)

theorem mayEnd_findAll {P : List α → Session κ ω → σ → Prop} {rows : List α}
    (hrows : rows.Perm (f (ses.view s))) (h : P rows ses s) :
    MayEnd (Reaches P) (findAll e f : Program σ κ ω ε (List α)) ses s := by
  obtain ⟨n, hn⟩ := exists_arranged hrows
  exact ⟨n, rows, congrArg Except.ok hn, h⟩

end Rules

end NexaStays.RowOrder
