import Mathlib.Data.List.Count
import Mathlib.Tactic.Common

/-!
# Texts joined by a delimiter

Fields written one after the other with a delimiter between them can be told apart
where the delimiter does not occur in them. A field that both texts share may contain
it, because the delimiters can be counted.
-/
namespace NexaStays.DelimitedText

variable {α : Type*} {d : α}

/-- The first delimiter ends the first field. -/
theorem append_cons_inj {l l' r r' : List α} (hl : d ∉ l) (hl' : d ∉ l')
    (h : l ++ d :: r = l' ++ d :: r') : l = l' ∧ r = r' := by
  induction l generalizing l' with
  | nil =>
    cases l' with
    | nil => exact ⟨rfl, (List.cons.inj h).2⟩
    | cons a l' =>
      have ha : d = a := (List.cons.inj h).1
      exact absurd (by simp [ha]) hl'
  | cons a l ih =>
    cases l' with
    | nil =>
      have ha : a = d := (List.cons.inj h).1
      exact absurd (by simp [ha]) hl
    | cons b l' =>
      obtain ⟨hab, hrest⟩ := List.cons.inj h
      obtain ⟨htail, hr⟩ := ih (fun hd => hl (by simp [hd])) (fun hd => hl' (by simp [hd])) hrest
      exact ⟨by rw [hab, htail], hr⟩

variable [DecidableEq α]

/-- Three fields around a shared one: no other fields give the same text as three that
are free of the delimiter. -/
theorem around_inj {k x y z x' y' z' : List α} (hx : d ∉ x) (hy : d ∉ y) (hz : d ∉ z)
    (h : x' ++ d :: (k ++ d :: (y' ++ d :: z')) = x ++ d :: (k ++ d :: (y ++ d :: z))) :
    x' = x ∧ y' = y ∧ z' = z := by
  have hcount := congrArg (List.count d) h
  simp only [List.count_append, List.count_cons_self, List.count_eq_zero_of_not_mem hx,
    List.count_eq_zero_of_not_mem hy, List.count_eq_zero_of_not_mem hz] at hcount
  have hx' : d ∉ x' := List.count_eq_zero.mp (by omega)
  have hy' : d ∉ y' := List.count_eq_zero.mp (by omega)
  obtain ⟨hfirst, hrest⟩ := append_cons_inj hx' hx h
  have hshared := (List.cons.inj (List.append_cancel_left hrest)).2
  obtain ⟨hsecond, hthird⟩ := append_cons_inj hy' hy hshared
  exact ⟨hfirst, hsecond, hthird⟩

theorem notMem_repr {c : Char} (hc : c.isDigit = false) (n : ℕ) : c ∉ (Nat.repr n).toList := by
  intro hmem
  rw [Nat.toList_repr] at hmem
  have hdigit := Nat.isDigit_of_mem_toDigits (by decide) (by decide) hmem
  simp [hc] at hdigit

theorem repr_inj {m n : ℕ} (h : (Nat.repr m).toList = (Nat.repr n).toList) : m = n := by
  rw [Nat.toList_repr, Nat.toList_repr] at h
  have hvalue := congrArg (fun cs => Nat.ofDigitChars 10 cs 0) h
  simpa [Nat.ofDigitChars_toDigits] using hvalue

end NexaStays.DelimitedText
