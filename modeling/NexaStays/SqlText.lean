import Mathlib.Algebra.Ring.Nat
import Mathlib.Data.List.Basic

/-!
# Texts in filters

`String.prototype.trim`, and the `LIKE` of the database with its escape character.
-/
namespace NexaStays.SqlText

/-- The white space and line terminators of the language. -/
def isSpace (c : Char) : Bool :=
  c.toNat ∈ [9, 10, 11, 12, 13, 32, 160, 5760, 8232, 8233, 8239, 8287, 12288, 65279] ∨
    8192 ≤ c.toNat ∧ c.toNat ≤ 8202

def trim (s : String) : String :=
  String.ofList (((s.toList.dropWhile isSpace).reverse.dropWhile isSpace).reverse)

/-- The length of a text in the units that JavaScript counts. -/
def utf16Length (text : String) : ℕ :=
  (text.toList.map fun c => if 65535 < c.toNat then 2 else 1).sum

/-- No character of the text is white space. -/
def noSpace (s : String) : Bool := s.toList.all fun c => !isSpace c

theorem trim_eq_self {s : String} (h : noSpace s = true) : trim s = s := by
  have hspace : ∀ c ∈ s.toList, isSpace c = false := by simpa [noSpace] using h
  have hdrop : ∀ l : List Char, (∀ c ∈ l, isSpace c = false) → l.dropWhile isSpace = l := by
    intro l hl
    cases l with
    | nil => rfl
    | cons c l => simp [hl c (by simp)]
  rw [trim, hdrop _ hspace, hdrop _ (by simpa using hspace), List.reverse_reverse,
    String.ofList_toList]

/-- A suffix of the text satisfies the test. -/
def anySuffix (test : List Char → Bool) : List Char → Bool
  | [] => test []
  | c :: cs => test (c :: cs) || anySuffix test cs

/-- `text LIKE pattern`. A pattern that ends with its escape character is refused by the
database; the patterns of the service end otherwise. -/
def likeChars : List Char → List Char → Bool
  | [], text => text.isEmpty
  | '%' :: pattern, text => anySuffix (likeChars pattern) text
  | '_' :: pattern, text =>
    match text with
    | [] => false
    | _ :: text => likeChars pattern text
  | '\\' :: e :: pattern, text =>
    match text with
    | [] => false
    | c :: text => c = e && likeChars pattern text
  | p :: pattern, text =>
    match text with
    | [] => false
    | c :: text => c = p && likeChars pattern text

def like (text pattern : String) : Bool := likeChars pattern.toList text.toList

example : like "riad fes" "ri_d%" ∧ like "50%" "50\\%" ∧ ¬like "500" "50\\%" := by decide

/-- `escapeIlikePattern`: the characters that `LIKE` would read as its own. -/
def escapeIlikePattern (s : String) : String :=
  String.ofList (s.toList.flatMap fun c => if c = '\\' ∨ c = '%' ∨ c = '_' then ['\\', c] else [c])

end NexaStays.SqlText
