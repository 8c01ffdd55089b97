import Mathlib.Data.List.Basic
import Mathlib.Tactic.Common

/-!
# The grammar of comma-separated texts

Texts of records as derivations: a field is bare or quoted, fields with commas between them
are a record, and records with line breaks between them are a file, which may end with a line
break. The line break is a parameter. What a derivation reads from a text is unique as
soon as no record of it is a single field.
-/
namespace NexaStays.CsvGrammar

/-- The inside of a quoted field: quotes are doubled. -/
inductive Quoted : List Char → List Char → Prop
  | nil : Quoted [] []
  | char {c : Char} {t v : List Char} (hc : c ≠ '"') (rest : Quoted t v) :
      Quoted (c :: t) (c :: v)
  | quote {t v : List Char} (rest : Quoted t v) : Quoted ('"' :: '"' :: t) ('"' :: v)

/-- The characters of a bare field. -/
def isTextData (c : Char) : Bool := c ≠ '"' && c ≠ ',' && c ≠ '\r' && c ≠ '\n'

inductive Field : List Char → List Char → Prop
  | bare {t : List Char} (text : ∀ c ∈ t, isTextData c = true) : Field t t
  | quoted {t v : List Char} (inside : Quoted t v) : Field ('"' :: (t ++ ['"'])) v

inductive Record : List Char → List (List Char) → Prop
  | one {t v : List Char} (field : Field t v) : Record t [v]
  | more {t v ts : List Char} {vs : List (List Char)} (field : Field t v)
      (rest : Record ts vs) : Record (t ++ ',' :: ts) (v :: vs)

/-- Records with the line break `brk` between them. -/
inductive File (brk : List Char) : List Char → List (List (List Char)) → Prop
  | one {t : List Char} {r : List (List Char)} (record : Record t r) : File brk t [r]
  | last {t : List Char} {r : List (List Char)} (record : Record t r) :
      File brk (t ++ brk) [r]
  | more {t ts : List Char} {r : List (List Char)} {rs : List (List (List Char))}
      (record : Record t r) (rest : File brk ts rs) : File brk (t ++ (brk ++ ts)) (r :: rs)

/-- The line breaks: they begin with a character that no bare field holds. -/
def IsBreak (brk : List Char) : Prop := brk = ['\r', '\n'] ∨ brk = ['\n']

/-- What may follow a record: nothing, or a line break. -/
def AfterRecord (r : List Char) : Prop := ∀ c ∈ r.head?, c = '\r' ∨ c = '\n'

/-- What may follow a field. -/
def AfterField (r : List Char) : Prop := ∀ c ∈ r.head?, c = ',' ∨ c = '\r' ∨ c = '\n'

theorem AfterRecord.afterField {r : List Char} (h : AfterRecord r) : AfterField r :=
  fun c hc => Or.inr (h c hc)

theorem afterRecord_nil : AfterRecord [] := fun c hc => by simp at hc

theorem afterField_comma (r : List Char) : AfterField (',' :: r) := fun c hc => by
  have hcomma : ',' = c := by simpa using hc
  exact Or.inl hcomma.symm

theorem IsBreak.afterRecord {brk : List Char} (h : IsBreak brk) (r : List Char) :
    AfterRecord (brk ++ r) := by
  intro c hc
  obtain rfl | rfl := h
  · have : '\r' = c := by simpa using hc
    exact Or.inl this.symm
  · have : '\n' = c := by simpa using hc
    exact Or.inr this.symm

theorem IsBreak.ne_nil {brk : List Char} (h : IsBreak brk) : brk ≠ [] := by
  obtain rfl | rfl := h <;> simp

theorem Quoted.ends {t v t' v' r r' : List Char} (h : Quoted t v) (h' : Quoted t' v')
    (hr : AfterField r) (hr' : AfterField r')
    (heq : t ++ '"' :: r = t' ++ '"' :: r') : v = v' ∧ r = r' := by
  have hafter : ∀ {r s : List Char}, AfterField r → r = '"' :: s → False := by
    intro r s hr hs
    have := hr '"' (by simp [hs])
    revert this
    decide
  induction h generalizing t' v' with
  | nil =>
    cases h' with
    | nil => exact ⟨rfl, (List.cons.inj heq).2⟩
    | char hc _ => exact absurd (List.cons.inj heq).1.symm hc
    | quote _ => exact (hafter hr (List.cons.inj heq).2).elim
  | char hc _ ih =>
    cases h' with
    | nil => exact absurd (List.cons.inj heq).1 hc
    | char hc' rest' =>
      obtain ⟨rfl, hrest⟩ := List.cons.inj heq
      obtain ⟨rfl, hr⟩ := ih rest' hrest
      exact ⟨rfl, hr⟩
    | quote _ => exact absurd (List.cons.inj heq).1 hc
  | quote _ ih =>
    cases h' with
    | nil => exact (hafter hr' (List.cons.inj heq).2.symm).elim
    | char hc' _ => exact absurd (List.cons.inj heq).1.symm hc'
    | quote rest' =>
      obtain ⟨rfl, hr⟩ := ih rest' (List.cons.inj (List.cons.inj heq).2).2
      exact ⟨rfl, hr⟩

theorem bare_ends {t t' r r' : List Char} (h : ∀ c ∈ t, isTextData c = true)
    (h' : ∀ c ∈ t', isTextData c = true) (hr : AfterField r) (hr' : AfterField r')
    (heq : t ++ r = t' ++ r') : t = t' ∧ r = r' := by
  have hstop : ∀ {c : Char} {r s : List Char}, AfterField r → r = c :: s →
      isTextData c = true → False := by
    intro c r s hr hs hc
    obtain rfl | rfl | rfl := hr c (by simp [hs]) <;> exact absurd hc (by decide)
  induction t generalizing t' with
  | nil =>
    cases t' with
    | nil => exact ⟨rfl, heq⟩
    | cons c t' => exact (hstop hr heq (h' c (by simp))).elim
  | cons c t ih =>
    cases t' with
    | nil => exact (hstop hr' heq.symm (h c (by simp))).elim
    | cons c' t' =>
      obtain ⟨rfl, hrest⟩ := List.cons.inj heq
      obtain ⟨rfl, hend⟩ := ih (fun x hx => h x (by simp [hx])) (fun x hx => h' x (by simp [hx]))
        hrest
      exact ⟨rfl, hend⟩

/-- A bare field is not the beginning of a quoted one. -/
theorem bare_ne_quoted {t r s : List Char} (h : ∀ c ∈ t, isTextData c = true)
    (hr : AfterField r) (heq : t ++ r = '"' :: s) : False := by
  cases t with
  | nil =>
    have := hr '"' (by simp [show r = '"' :: s from heq])
    revert this
    decide
  | cons c t =>
    have hc := h c (by simp)
    rw [(List.cons.inj heq).1] at hc
    exact absurd hc (by decide)

theorem Field.ends {t v t' v' r r' : List Char} (h : Field t v) (h' : Field t' v')
    (hr : AfterField r) (hr' : AfterField r') (heq : t ++ r = t' ++ r') : v = v' ∧ r = r' := by
  cases h with
  | bare text =>
    cases h' with
    | bare text' => exact bare_ends text text' hr hr' heq
    | quoted _ => exact (bare_ne_quoted text hr heq).elim
  | quoted inside =>
    cases h' with
    | bare text' => exact (bare_ne_quoted text' hr' heq.symm).elim
    | quoted inside' =>
      have htail : _ ++ ['"'] ++ r = _ ++ ['"'] ++ r' := (List.cons.inj heq).2
      rw [List.append_assoc, List.append_assoc] at htail
      exact inside.ends inside' hr hr' htail

theorem AfterRecord.ne_comma {r s : List Char} (h : AfterRecord r) (hs : r = ',' :: s) :
    False := by
  have := h ',' (by simp [hs])
  revert this
  decide

theorem Record.ends {t t' r r' : List Char} {vs vs' : List (List Char)} (h : Record t vs)
    (h' : Record t' vs') (hr : AfterRecord r) (hr' : AfterRecord r')
    (heq : t ++ r = t' ++ r') : vs = vs' ∧ r = r' := by
  induction h generalizing t' vs' with
  | one field =>
    cases h' with
    | one field' =>
      obtain ⟨rfl, hrest⟩ := field.ends field' hr.afterField hr'.afterField heq
      exact ⟨rfl, hrest⟩
    | more field' _ =>
      rw [List.append_assoc] at heq
      obtain ⟨-, hrest⟩ := field.ends field' hr.afterField (afterField_comma _) heq
      exact (hr.ne_comma hrest).elim
  | more field _ ih =>
    rw [List.append_assoc] at heq
    cases h' with
    | one field' =>
      obtain ⟨-, hrest⟩ := field.ends field' (afterField_comma _) hr'.afterField heq
      exact (hr'.ne_comma hrest.symm).elim
    | more field' rest' =>
      rw [List.append_assoc] at heq
      obtain ⟨rfl, hrest⟩ := field.ends field' (afterField_comma _) (afterField_comma _) heq
      obtain ⟨rfl, hend⟩ := ih rest' (List.cons.inj hrest).2
      exact ⟨rfl, hend⟩

theorem Record.ne_nil {t : List Char} {vs : List (List Char)} (h : Record t vs)
    (hlength : 2 ≤ vs.length) : t ≠ [] := by
  cases h with
  | one _ => simp at hlength
  | more _ _ => simp

theorem File.ne_nil {brk t : List Char} {rs : List (List (List Char))} (hbrk : IsBreak brk)
    (h : File brk t rs) (hlength : ∀ r ∈ rs, 2 ≤ r.length) : t ≠ [] := by
  cases h with
  | one record => exact record.ne_nil (hlength _ (by simp))
  | last record => simp [hbrk.ne_nil]
  | more record _ => simp [hbrk.ne_nil]

/-- The records of a text that does not end with a line break, and has no record of a
single field, are the only ones. -/
theorem File.unique {brk : List Char} (hbrk : IsBreak brk) {ts : List (List Char)}
    {rs : List (List (List Char))} (hrecords : List.Forall₂ Record ts rs) (hne : ts ≠ [])
    (hlength : ∀ r ∈ rs, 2 ≤ r.length) {rs' : List (List (List Char))}
    (h : File brk (brk.intercalate ts) rs') : rs' = rs := by
  induction hrecords generalizing rs' with
  | nil => exact absurd rfl hne
  | @cons t r ts rs record hrest ih =>
    have hbreak : ∀ s, AfterRecord (brk ++ s) := hbrk.afterRecord
    cases ts with
    | nil =>
      cases hrest
      have htext : brk.intercalate [t] = t ++ [] := by simp [List.intercalate]
      rw [htext] at h
      generalize hwhole : t ++ [] = whole at h
      cases h with
      | one record' =>
        obtain ⟨rfl, -⟩ := record.ends record' afterRecord_nil afterRecord_nil
          (by rw [hwhole, List.append_nil])
        rfl
      | last record' =>
        obtain ⟨-, hnil⟩ := record.ends record' afterRecord_nil
          (by simpa using hbreak []) hwhole
        exact absurd hnil.symm hbrk.ne_nil
      | more record' _ =>
        obtain ⟨-, hnil⟩ := record.ends record' afterRecord_nil (hbreak _) hwhole
        exact absurd hnil.symm (by simp [hbrk.ne_nil])
    | cons u ts =>
      have htext : brk.intercalate (t :: u :: ts) = t ++ (brk ++ brk.intercalate (u :: ts)) := by
        simp [List.intercalate, List.intersperse]
      have hlater : ∀ x ∈ rs, 2 ≤ x.length := fun x hx => hlength x (by simp [hx])
      rw [htext] at h
      generalize hwhole : t ++ (brk ++ brk.intercalate (u :: ts)) = whole at h
      cases h with
      | one record' =>
        obtain ⟨-, hnil⟩ := record.ends record' (hbreak _) afterRecord_nil
          (by rw [hwhole, List.append_nil])
        exact absurd hnil (by simp [hbrk.ne_nil])
      | last record' =>
        obtain ⟨-, hnil⟩ := record.ends record' (hbreak _) (by simpa using hbreak []) hwhole
        cases hrest with
        | cons record'' _ =>
          have hempty : brk.intercalate (u :: ts) = [] := by
            simpa using hnil
          have hu : u ≠ [] := record''.ne_nil (hlater _ (by simp))
          cases ts <;> simp [List.intercalate, List.intersperse, hu] at hempty
      | more record' rest' =>
        obtain ⟨rfl, hrest'⟩ := record.ends record' (hbreak _) (hbreak _) hwhole
        have hlines := List.append_cancel_left hrest'
        rw [← hlines] at rest'
        rw [ih (by simp) hlater rest']

theorem File.of_records {brk : List Char} {ts : List (List Char)}
    {rs : List (List (List Char))} (hrecords : List.Forall₂ Record ts rs) (hne : ts ≠ []) :
    File brk (brk.intercalate ts) rs := by
  induction hrecords with
  | nil => exact absurd rfl hne
  | @cons t r ts rs record hrest ih =>
    cases ts with
    | nil =>
      cases hrest
      simpa [List.intercalate] using File.one record
    | cons u ts =>
      have htext : brk.intercalate (t :: u :: ts) = t ++ (brk ++ brk.intercalate (u :: ts)) := by
        simp [List.intercalate, List.intersperse]
      rw [htext]
      exact File.more record (ih (by simp))

/-- With a line break that begins with a character which the text lacks, one record is
read at most. -/
theorem File.length_le_one {c : Char} {brk t : List Char} {rs : List (List (List Char))}
    (h : File (c :: brk) t rs) (hc : c ∉ t) : rs.length ≤ 1 := by
  cases h with
  | one _ => simp
  | last _ => simp
  | more _ _ => simp at hc

end NexaStays.CsvGrammar
