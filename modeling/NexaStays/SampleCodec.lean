import Mathlib.Data.List.Basic
import Mathlib.Data.Rat.Encodable
import Mathlib.Logic.Equiv.List

/-!
# A codec for samples

One value has a text of its own, as a platform would write it; all others are written as
their number. What is written is read back.
-/
namespace NexaStays.SampleCodec

/-- A text is the list of its code points. -/
instance encodableString : Encodable String :=
  Encodable.ofLeftInverse (fun s => s.toList.map Char.toNat)
    (fun codes => String.ofList (codes.map Char.ofNat)) (fun s => by simp [Function.comp_def])

variable {α : Type} [Encodable α] [DecidableEq α] {text : String} {known : α}

def writeSample (text : String) (known : α) (p : α) : String :=
  if p = known then text else String.ofList (List.replicate (Encodable.encode p + 1) 'A')

def readSample (text : String) (known : α) (t : String) : Option α :=
  if t = text then some known else Encodable.decode (t.toList.length - 1)

theorem read_writeSample {c : Char} (hc : c ≠ 'A') (hletter : c ∈ text.toList) (p : α) :
    readSample text known (writeSample text known p) = some p := by
  by_cases hp : p = known
  · simp [writeSample, readSample, hp]
  · have hne : String.ofList (List.replicate (Encodable.encode p + 1) 'A') ≠ text := by
      rintro rfl
      rw [String.toList_ofList] at hletter
      exact hc (List.eq_of_mem_replicate hletter)
    simp only [writeSample, readSample, if_neg hp, if_neg hne, String.toList_ofList,
      List.length_replicate, Nat.add_sub_cancel, Encodable.encodek]

theorem mem_writeSample {p : α} {c : Char}
    (h : c ∈ (writeSample text known p).toList) : c ∈ text.toList ∨ c = 'A' := by
  by_cases hp : p = known
  · rw [writeSample, if_pos hp] at h
    exact Or.inl h
  · rw [writeSample, if_neg hp, String.toList_ofList] at h
    exact Or.inr (List.eq_of_mem_replicate h)

theorem notMem_append {s t : String} {c : Char} (hs : c ∉ s.toList) (ht : c ∉ t.toList) :
    c ∉ (s ++ t).toList := by
  simp [hs, ht]

theorem mem_append_left {s t : String} {c : Char} (hs : c ∈ s.toList) : c ∈ (s ++ t).toList := by
  simp [hs]

end NexaStays.SampleCodec
