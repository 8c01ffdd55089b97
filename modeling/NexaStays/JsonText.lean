import NexaStays.DelimitedText
import Mathlib.Data.List.Basic
import Mathlib.Tactic.Common

/-!
# The text of a JSON value

Values with their objects as lists of members, and the text that `JSON.stringify` writes
of them, in UTF-16 code units: strings are quoted, with their lone surrogates escaped, and
members come in the order of the list. The text tells values apart.
-/
namespace NexaStays.JsonText

/-- A string of the language: its UTF-16 code units. -/
abbrev JsString := List ℕ

def units (s : String) : JsString := s.toList.map Char.toNat

def hexUnit (d : ℕ) : ℕ := if d < 10 then 48 + d else 87 + d

def unhex (u : ℕ) : ℕ := if u < 58 then u - 48 else u - 87

theorem unhex_hexUnit {d : ℕ} (h : d < 16) : unhex (hexUnit d) = d := by
  unfold unhex hexUnit
  split_ifs <;> omega

/-- `\uXXXX`. -/
def unicodeEscape (u : ℕ) : JsString :=
  [92, 117, hexUnit (u / 4096 % 16), hexUnit (u / 256 % 16), hexUnit (u / 16 % 16),
    hexUnit (u % 16)]

/-- The letter after the backslash, for the units that have one. -/
def escapeLetter : ℕ → Option ℕ
  | 34 => some 34
  | 92 => some 92
  | 8 => some 98
  | 12 => some 102
  | 10 => some 110
  | 13 => some 114
  | 9 => some 116
  | _ => none

def unletter : ℕ → ℕ
  | 98 => 8
  | 102 => 12
  | 110 => 10
  | 114 => 13
  | 116 => 9
  | e => e

theorem unletter_escapeLetter {u e : ℕ} (h : escapeLetter u = some e) :
    unletter e = u ∧ e ≠ 117 := by
  unfold escapeLetter at h
  split at h <;> first | (obtain rfl := Option.some.inj h; decide) | cases h

def isHigh (u : ℕ) : Bool := 0xD800 ≤ u && u ≤ 0xDBFF

def isLow (u : ℕ) : Bool := 0xDC00 ≤ u && u ≤ 0xDFFF

/-- A unit that is not half of a surrogate pair. -/
def quoteUnit (u : ℕ) : JsString :=
  match escapeLetter u with
  | some e => [92, e]
  | none => if u < 32 ∨ isHigh u ∨ isLow u then unicodeEscape u else [u]

def quoteUnits : JsString → JsString
  | [] => []
  | [u] => quoteUnit u
  | u :: v :: us =>
    if isHigh u && isLow v then u :: v :: quoteUnits us
    else quoteUnit u ++ quoteUnits (v :: us)

def quote (s : JsString) : JsString := 34 :: (quoteUnits s ++ [34])

/-- What a quoted text says, up to its closing quote, and what follows. -/
def unquote : JsString → Option (JsString × JsString)
  | [] => none
  | u :: us =>
    if u = 34 then some ([], us)
    else if u = 92 then
      match us with
      | [] => none
      | e :: us =>
        if e = 117 then
          match us with
          | a :: b :: c :: d :: us =>
            (unquote us).map fun p =>
              ((unhex a * 4096 + unhex b * 256 + unhex c * 16 + unhex d) :: p.1, p.2)
          | _ => none
        else (unquote us).map fun p => (unletter e :: p.1, p.2)
    else (unquote us).map fun p => (u :: p.1, p.2)

theorem unquote_raw {u : ℕ} (hquote : u ≠ 34) (hback : u ≠ 92) (us : JsString) :
    unquote (u :: us) = (unquote us).map fun p => (u :: p.1, p.2) := by
  rw [unquote.eq_def]
  simp only [if_neg hquote, if_neg hback]

theorem unquote_close (us : JsString) : unquote (34 :: us) = some ([], us) := by
  rw [unquote.eq_def]
  rfl

theorem unquote_escape {e : ℕ} (he : e ≠ 117) (us : JsString) :
    unquote (92 :: e :: us) = (unquote us).map fun p => (unletter e :: p.1, p.2) := by
  rw [unquote.eq_def]
  simp [he]

theorem unquote_unicodeEscape {u : ℕ} (h : u < 65536) (us : JsString) :
    unquote (unicodeEscape u ++ us) = (unquote us).map fun p => (u :: p.1, p.2) := by
  have hvalue : unhex (hexUnit (u / 4096 % 16)) * 4096 + unhex (hexUnit (u / 256 % 16)) * 256 +
      unhex (hexUnit (u / 16 % 16)) * 16 + unhex (hexUnit (u % 16)) = u := by
    rw [unhex_hexUnit (by omega), unhex_hexUnit (by omega), unhex_hexUnit (by omega),
      unhex_hexUnit (by omega)]
    omega
  rw [unquote.eq_def]
  simp [unicodeEscape, hvalue]

theorem unquote_quoteUnit (u : ℕ) (us : JsString) :
    unquote (quoteUnit u ++ us) = (unquote us).map fun p => (u :: p.1, p.2) := by
  unfold quoteUnit
  cases hletter : escapeLetter u with
  | some e =>
    obtain ⟨hu, he⟩ := unletter_escapeLetter hletter
    rw [List.cons_append, List.singleton_append, unquote_escape he, hu]
  | none =>
    dsimp only
    by_cases hescape : u < 32 ∨ isHigh u ∨ isLow u
    · rw [if_pos hescape]
      apply unquote_unicodeEscape
      simp only [isHigh, isLow, Bool.and_eq_true, decide_eq_true_eq] at hescape
      omega
    · rw [if_neg hescape]
      apply unquote_raw
      · rintro rfl
        cases hletter
      · rintro rfl
        cases hletter

theorem unquote_quoteUnits (s r : JsString) :
    unquote (quoteUnits s ++ 34 :: r) = some (s, r) := by
  induction s using quoteUnits.induct with
  | case1 => exact unquote_close r
  | case2 u =>
    rw [quoteUnits, unquote_quoteUnit, unquote_close]
    rfl
  | case3 u v us hpair ih =>
    have hunits : isHigh u = true ∧ isLow v = true := by simpa using hpair
    simp only [isHigh, isLow, Bool.and_eq_true, decide_eq_true_eq] at hunits
    rw [quoteUnits, if_pos hpair, List.cons_append, List.cons_append,
      unquote_raw (by omega) (by omega), unquote_raw (by omega) (by omega), ih]
    rfl
  | case4 u v us hpair ih =>
    rw [quoteUnits, if_neg hpair, List.append_assoc, unquote_quoteUnit, ih]
    rfl

/-- A quoted string ends in one place. -/
theorem quote_ends {s s' r r' : JsString} (h : quote s ++ r = quote s' ++ r') :
    s = s' ∧ r = r' := by
  have hrest : quoteUnits s ++ [34] ++ r = quoteUnits s' ++ [34] ++ r' := (List.cons.inj h).2
  rw [List.append_assoc, List.append_assoc] at hrest
  have hread := congrArg unquote hrest
  rw [List.singleton_append, List.singleton_append, unquote_quoteUnits,
    unquote_quoteUnits] at hread
  exact Prod.mk.inj (Option.some.inj hread)

/-- Numbers with their texts: `Number.prototype.toString` of finite numbers, of which zero
and minus zero are one. -/
structure Numerals (ν : Type) where
  text : ν → JsString
  text_injective : Function.Injective text
  text_ne_nil : ∀ x, text x ≠ []
  text_units : ∀ x, ∀ u ∈ text x, 48 ≤ u ∧ u ≤ 57 ∨ u ∈ [43, 45, 46, 101]

/-- Natural numbers in decimal. -/
def natNumerals : Numerals ℕ where
  text n := (Nat.repr n).toList.map Char.toNat
  text_injective m n h := by
    have hinjective : Function.Injective Char.toNat := fun c d hcd => Char.toNat_inj.mp hcd
    exact DelimitedText.repr_inj (hinjective.list_map h)
  text_ne_nil n := by
    rw [Nat.toList_repr]
    simp
  text_units n u hu := by
    rw [Nat.toList_repr] at hu
    obtain ⟨c, hc, rfl⟩ := List.mem_map.mp hu
    have hdigit := Nat.isDigit_of_mem_toDigits (by decide) (by decide) hc
    simp only [Char.isDigit, Bool.and_eq_true, decide_eq_true_eq, ge_iff_le,
      UInt32.le_iff_toNat_le] at hdigit
    exact Or.inl hdigit

/-- A value; the members of an object are in the order of their creation. -/
inductive Json (ν : Type) where
  | null
  | bool (b : Bool)
  | number (x : ν)
  | string (s : JsString)
  | array (elems : List (Json ν))
  | object (members : List (JsString × Json ν))

/-- The number of a name that is an array index. -/
def arrayIndex? (name : JsString) : Option ℕ :=
  if name ≠ [] ∧ (∀ u ∈ name, 48 ≤ u ∧ u ≤ 57) ∧ (name = [48] ∨ name.head? ≠ some 48) ∧
      name.foldl (fun n u => n * 10 + (u - 48)) 0 < 4294967295 then
    some (name.foldl (fun n u => n * 10 + (u - 48)) 0)
  else none

/-- Indices come first, by their numbers. -/
def ownBefore (name other : JsString) : Bool :=
  match arrayIndex? name, arrayIndex? other with
  | some i, some j => i < j
  | none, some _ => false
  | _, none => true

/-- A value as the language stores it: the members of an object have different names and
are in its order. -/
inductive Stored {ν : Type} : Json ν → Prop
  | null : Stored .null
  | bool (b : Bool) : Stored (.bool b)
  | number (x : ν) : Stored (.number x)
  | string (s : JsString) : Stored (.string s)
  | array {elems : List (Json ν)} (inner : ∀ e ∈ elems, Stored e) : Stored (.array elems)
  | object {members : List (JsString × Json ν)} (names : (members.map Prod.fst).Nodup)
      (order : (members.map Prod.fst).Pairwise fun a b => ownBefore a b = true)
      (inner : ∀ m ∈ members, Stored m.2) : Stored (.object members)

section Induction

variable {ν : Type} {P : Json ν → Prop}

mutual

/-- What holds of the scalars, and of an array and an object whose parts have it, holds of
every value. -/
theorem Json.induction (null : P .null) (bool : ∀ b, P (.bool b)) (number : ∀ x, P (.number x))
    (string : ∀ s, P (.string s)) (array : ∀ elems, (∀ e ∈ elems, P e) → P (.array elems))
    (object : ∀ members, (∀ m ∈ members, P m.2) → P (.object members)) : ∀ j, P j
  | .null => null
  | .bool b => bool b
  | .number x => number x
  | .string s => string s
  | .array elems =>
    array elems (Json.induction_elems null bool number string array object elems)
  | .object members =>
    object members (Json.induction_members null bool number string array object members)

theorem Json.induction_elems (null : P .null) (bool : ∀ b, P (.bool b))
    (number : ∀ x, P (.number x)) (string : ∀ s, P (.string s))
    (array : ∀ elems, (∀ e ∈ elems, P e) → P (.array elems))
    (object : ∀ members, (∀ m ∈ members, P m.2) → P (.object members)) :
    ∀ elems : List (Json ν), ∀ e ∈ elems, P e
  | [], e, he => by simp at he
  | a :: elems, e, he => by
    have ha := Json.induction null bool number string array object a
    rcases List.mem_cons.mp he with h | he
    · exact h ▸ ha
    · exact Json.induction_elems null bool number string array object elems e he

theorem Json.induction_members (null : P .null) (bool : ∀ b, P (.bool b))
    (number : ∀ x, P (.number x)) (string : ∀ s, P (.string s))
    (array : ∀ elems, (∀ e ∈ elems, P e) → P (.array elems))
    (object : ∀ members, (∀ m ∈ members, P m.2) → P (.object members)) :
    ∀ members : List (JsString × Json ν), ∀ m ∈ members, P m.2
  | [], m, hm => by simp at hm
  | (name, v) :: members, m, hm => by
    have hv := Json.induction null bool number string array object v
    rcases List.mem_cons.mp hm with h | hm
    · exact h ▸ hv
    · exact Json.induction_members null bool number string array object members m hm

end

end Induction

variable {ν : Type} (num : Numerals ν)

mutual

def stringify : Json ν → JsString
  | .null => [110, 117, 108, 108]
  | .bool true => [116, 114, 117, 101]
  | .bool false => [102, 97, 108, 115, 101]
  | .number x => num.text x
  | .string s => quote s
  | .array elems => 91 :: elemsText true elems
  | .object members => 123 :: membersText true members

/-- The elements with commas before all but the first, and the closing bracket. -/
def elemsText (first : Bool) : List (Json ν) → JsString
  | [] => [93]
  | e :: elems => (if first then [] else [44]) ++ (stringify e ++ elemsText false elems)

def membersText (first : Bool) : List (JsString × Json ν) → JsString
  | [] => [125]
  | (name, v) :: members =>
    (if first then [] else [44]) ++ (quote name ++ 58 :: (stringify v ++ membersText false members))

end

/-- The kind of a value. -/
def Json.tag : Json ν → ℕ
  | .null => 0
  | .bool _ => 1
  | .number _ => 2
  | .string _ => 3
  | .array _ => 4
  | .object _ => 5

/-- The kind that a text begins like; six for none. -/
def tagOfUnit (u : ℕ) : ℕ :=
  if u = 110 then 0
  else if u = 116 ∨ u = 102 then 1
  else if 48 ≤ u ∧ u ≤ 57 ∨ u ∈ [43, 45, 46, 101] then 2
  else if u = 34 then 3
  else if u = 91 then 4
  else if u = 123 then 5
  else 6

theorem stringify_head (j : Json ν) : ∃ u t, stringify num j = u :: t ∧ tagOfUnit u = j.tag := by
  cases j with
  | null => exact ⟨_, _, rfl, rfl⟩
  | bool b => cases b <;> exact ⟨_, _, rfl, rfl⟩
  | number x =>
    cases htext : num.text x with
    | nil => exact absurd htext (num.text_ne_nil x)
    | cons u t =>
      have hu := num.text_units x u (by simp [htext])
      refine ⟨u, t, by rw [stringify, htext], ?_⟩
      have hne : u ≠ 110 ∧ ¬(u = 116 ∨ u = 102) := by
        simp only [List.mem_cons, List.not_mem_nil, or_false] at hu
        omega
      rw [tagOfUnit, if_neg hne.1, if_neg hne.2, if_pos hu]
      rfl
  | string s => exact ⟨34, _, rfl, rfl⟩
  | array elems => exact ⟨91, _, rfl, rfl⟩
  | object members => exact ⟨123, _, rfl, rfl⟩

theorem tag_eq {j j' : Json ν} {r r' : JsString}
    (h : stringify num j ++ r = stringify num j' ++ r') : j.tag = j'.tag := by
  obtain ⟨u, t, htext, htag⟩ := stringify_head num j
  obtain ⟨u', t', htext', htag'⟩ := stringify_head num j'
  rw [htext, htext'] at h
  rw [← htag, ← htag', (List.cons.inj h).1]

/-- What may follow a value: nothing, a comma or a closing bracket. -/
def AfterValue (r : JsString) : Prop := ∀ u ∈ r.head?, u = 44 ∨ u = 93 ∨ u = 125

theorem afterValue_elemsText (elems : List (Json ν)) (r : JsString) :
    AfterValue (elemsText num false elems ++ r) := by
  intro u hu
  cases elems with
  | nil =>
    have : 93 = u := by simpa [elemsText] using hu
    omega
  | cons e elems =>
    have : 44 = u := by simpa [elemsText] using hu
    omega

theorem afterValue_membersText (members : List (JsString × Json ν)) (r : JsString) :
    AfterValue (membersText num false members ++ r) := by
  intro u hu
  rcases members with _ | ⟨⟨name, v⟩, members⟩
  · have : 125 = u := by simpa [membersText] using hu
    omega
  · have : 44 = u := by simpa [membersText] using hu
    omega

/-- A numeral ends where a unit comes that no numeral has. -/
theorem numeral_ends {t t' r r' : JsString}
    (ht : ∀ u ∈ t, 48 ≤ u ∧ u ≤ 57 ∨ u ∈ [43, 45, 46, 101])
    (ht' : ∀ u ∈ t', 48 ≤ u ∧ u ≤ 57 ∨ u ∈ [43, 45, 46, 101])
    (hr : AfterValue r) (hr' : AfterValue r') (h : t ++ r = t' ++ r') : t = t' ∧ r = r' := by
  have hstop : ∀ {u : ℕ} {r s : JsString}, AfterValue r → r = u :: s →
      (48 ≤ u ∧ u ≤ 57 ∨ u ∈ [43, 45, 46, 101]) → False := by
    intro u r s hr hs hu
    obtain rfl | rfl | rfl := hr u (by simp [hs]) <;> exact absurd hu (by decide)
  induction t generalizing t' with
  | nil =>
    cases t' with
    | nil => exact ⟨rfl, h⟩
    | cons u t' => exact (hstop hr h (ht' u (by simp))).elim
  | cons u t ih =>
    cases t' with
    | nil => exact (hstop hr' h.symm (ht u (by simp))).elim
    | cons u' t' =>
      obtain ⟨rfl, hrest⟩ := List.cons.inj h
      obtain ⟨rfl, hend⟩ := ih (fun x hx => ht x (by simp [hx])) (fun x hx => ht' x (by simp [hx]))
        hrest
      exact ⟨rfl, hend⟩

/-- A value does not begin like a closing bracket. -/
theorem stringify_ne_closing {u : ℕ} (hu : tagOfUnit u = 6) (j : Json ν) (r s : JsString) :
    u :: r ≠ stringify num j ++ s := by
  intro h
  obtain ⟨u', t, htext, htag⟩ := stringify_head num j
  rw [htext] at h
  have hsame := (List.cons.inj h).1
  rw [← hsame, hu] at htag
  cases j <;> exact absurd htag (by simp [Json.tag])

mutual

/-- The text of a value ends in one place. -/
theorem stringify_ends : ∀ (j j' : Json ν) (r r' : JsString), AfterValue r → AfterValue r' →
    stringify num j ++ r = stringify num j' ++ r' → j = j' ∧ r = r'
  | .null, j', r, r', _, _, h => by
    have htag := tag_eq num h
    cases j' with
    | null => exact ⟨rfl, List.append_cancel_left h⟩
    | _ => exact absurd htag (by simp [Json.tag])
  | .bool b, j', r, r', _, _, h => by
    have htag := tag_eq num h
    cases j' with
    | bool b' =>
      cases b <;> cases b' <;>
        first
        | exact ⟨rfl, List.append_cancel_left h⟩
        | exact absurd (List.cons.inj h).1 (by decide)
    | _ => exact absurd htag (by simp [Json.tag])
  | .number x, j', r, r', hr, hr', h => by
    have htag := tag_eq num h
    cases j' with
    | number x' =>
      obtain ⟨htext, hend⟩ := numeral_ends (num.text_units x) (num.text_units x') hr hr' h
      exact ⟨by rw [num.text_injective htext], hend⟩
    | _ => exact absurd htag (by simp [Json.tag])
  | .string s, j', r, r', _, _, h => by
    have htag := tag_eq num h
    cases j' with
    | string s' =>
      obtain ⟨rfl, hend⟩ := quote_ends h
      exact ⟨rfl, hend⟩
    | _ => exact absurd htag (by simp [Json.tag])
  | .array elems, j', r, r', _, _, h => by
    have htag := tag_eq num h
    cases j' with
    | array elems' =>
      obtain ⟨rfl, hend⟩ := elemsText_ends elems elems' true r r' (List.cons.inj h).2
      exact ⟨rfl, hend⟩
    | _ => exact absurd htag (by simp [Json.tag])
  | .object members, j', r, r', _, _, h => by
    have htag := tag_eq num h
    cases j' with
    | object members' =>
      obtain ⟨rfl, hend⟩ := membersText_ends members members' true r r' (List.cons.inj h).2
      exact ⟨rfl, hend⟩
    | _ => exact absurd htag (by simp [Json.tag])

theorem elemsText_ends : ∀ (elems elems' : List (Json ν)) (first : Bool) (r r' : JsString),
    elemsText num first elems ++ r = elemsText num first elems' ++ r' → elems = elems' ∧ r = r'
  | [], elems', first, r, r', h => by
    cases elems' with
    | nil => exact ⟨rfl, List.append_cancel_left h⟩
    | cons e' elems' =>
      cases first with
      | true =>
        simp only [elemsText, if_true, List.nil_append, List.append_assoc] at h
        exact absurd h (stringify_ne_closing num (by decide) _ _ _)
      | false => exact absurd (List.cons.inj h).1 (by decide)
  | e :: elems, elems', first, r, r', h => by
    cases elems' with
    | nil =>
      cases first with
      | true =>
        simp only [elemsText, if_true, List.nil_append, List.append_assoc] at h
        exact absurd h.symm (stringify_ne_closing num (by decide) _ _ _)
      | false => exact absurd (List.cons.inj h).1 (by decide)
    | cons e' elems' =>
      simp only [elemsText, List.append_assoc] at h
      obtain ⟨rfl, hrest⟩ := stringify_ends e e' _ _ (afterValue_elemsText num _ _)
        (afterValue_elemsText num _ _) (List.append_cancel_left h)
      obtain ⟨rfl, hend⟩ := elemsText_ends elems elems' false r r' hrest
      exact ⟨rfl, hend⟩

theorem membersText_ends : ∀ (members members' : List (JsString × Json ν)) (first : Bool)
    (r r' : JsString), membersText num first members ++ r = membersText num first members' ++ r' →
      members = members' ∧ r = r'
  | [], members', first, r, r', h => by
    rcases members' with _ | ⟨⟨name', v'⟩, members'⟩
    · exact ⟨rfl, List.append_cancel_left h⟩
    · cases first <;> exact absurd (List.cons.inj h).1 (by decide)
  | (name, v) :: members, members', first, r, r', h => by
    rcases members' with _ | ⟨⟨name', v'⟩, members'⟩
    · cases first <;> exact absurd (List.cons.inj h).1 (by decide)
    · simp only [membersText, List.append_assoc] at h
      obtain ⟨rfl, hvalue⟩ := quote_ends (List.append_cancel_left h)
      have htext : stringify num v ++ membersText num false members ++ r =
          stringify num v' ++ membersText num false members' ++ r' := (List.cons.inj hvalue).2
      rw [List.append_assoc, List.append_assoc] at htext
      obtain ⟨rfl, hrest⟩ := stringify_ends v v' _ _ (afterValue_membersText num _ _)
        (afterValue_membersText num _ _) htext
      obtain ⟨rfl, hend⟩ := membersText_ends members members' false r r' hrest
      exact ⟨rfl, hend⟩

end

/-- The text of a value determines it. -/
theorem stringify_injective : Function.Injective (stringify num) := by
  intro j j' h
  refine (stringify_ends num j j' [] [] ?_ ?_ ?_).1
  · exact fun u hu => by simp at hu
  · exact fun u hu => by simp at hu
  · rw [h]

end NexaStays.JsonText
