import NexaStays.IdentityPhones
import NexaStays.SharedProfile
import NexaStays.Snapshots

/-!
# The primary number of an identity

`attachPhoneNumberToIdentity` and `setPrimaryPhoneNumber` take the mark of the primary number
from all numbers of the identity, and give it to one in a later statement. In between there is
no primary number, and a call that stops there leaves none; a call that writes there may leave
two. In runs without either, an identity that has got a primary number has one whenever no
call is running.
-/
namespace NexaStays.PrimaryPhone

open NexaStays.KeyedTable NexaStays.Transactions NexaStays.EntitySave NexaStays.Phases
open NexaStays.Phases.Protocol NexaStays.Snapshots NexaStays.PersonStore NexaStays.IdentityPhones

/-- The numbers of the identity that are marked as primary. -/
def primaries (identityId : ℕ) (s : Store) : List IdentityPhoneNumber :=
  s.phones.rows.filter fun p => p.identityId = identityId ∧ p.isPrimary = true

def unmark (p : IdentityPhoneNumber) : IdentityPhoneNumber := { p with isPrimary := false }

/-- What `clearPrimary` writes. -/
def clears (identityId : ℕ) (s : Store) : List Write :=
  (phonesOf identityId s).map fun p => .phone { p with isPrimary := false }

/-- The number is stored for the identity. -/
def Has (identityId : ℕ) (number : String) (s : Store) : Prop :=
  ∃ p, s.phones.find? number = some p ∧ p.identityId = identityId

section Writes

variable {identityId : ℕ} {s : Store} {number : String}

theorem publish_phones (s : Store) (rows : List IdentityPhoneNumber) :
    publish s (rows.map Write.phone) = { s with phones := s.phones.putAll rows } := by
  induction rows generalizing s with
  | nil => rfl
  | cons row rows ih =>
    rw [List.map_cons, publish_cons, ih]
    rfl

theorem phones_clears : (publish s (clears identityId s)).phones =
    s.phones.putAll ((s.phones.rows.filter fun p => p.identityId = identityId).map unmark) := by
  have hrows : clears identityId s =
      ((s.phones.rows.filter fun p => p.identityId = identityId).map unmark).map Write.phone := by
    rw [List.map_map]
    rfl
  rw [hrows, publish_phones]

theorem find_clears : (publish s (clears identityId s)).phones.find? number =
    (s.phones.find? number).map fun p => if p.identityId = identityId then unmark p else p := by
  rw [phones_clears, Table.find?_update (f := unmark) (fun _ => rfl)]
  simp

theorem primaries_clears : primaries identityId (publish s (clears identityId s)) = [] := by
  rw [primaries, phones_clears, Table.rows_update (f := unmark) (fun _ => rfl),
    List.filter_eq_nil_iff]
  intro p hp
  obtain ⟨q, -, rfl⟩ := List.mem_map.mp hp
  by_cases hq : q.identityId = identityId
  · simp [hq, unmark]
  · simp [hq]

theorem has_clears {i : ℕ} (h : Has i number s) :
    Has i number (publish s (clears identityId s)) := by
  obtain ⟨p, hp, hid⟩ := h
  refine ⟨_, by rw [find_clears, hp, Option.map_some], ?_⟩
  split <;> exact hid

variable {row : IdentityPhoneNumber}

theorem has_put {i : ℕ} (h : Has i number s)
    (hrow : number = row.normalizedPhoneNumber → row.identityId = i) :
    Has i number (publish s [.phone row]) := by
  obtain ⟨p, hp, hid⟩ := h
  have hfind : (publish s [.phone row]).phones.find? number =
      if number = row.normalizedPhoneNumber then some row else s.phones.find? number :=
    Table.find?_put s.phones row number
  by_cases hn : number = row.normalizedPhoneNumber
  · rw [if_pos hn] at hfind
    exact ⟨row, hfind, hrow hn⟩
  · rw [if_neg hn] at hfind
    exact ⟨p, hfind.trans hp, hid⟩

/-- A new number. -/
theorem primaries_insert (h : s.phones.find? row.normalizedPhoneNumber = none)
    (hid : row.identityId = identityId) : primaries identityId (publish s [.phone row]) =
      primaries identityId s ++ (if row.isPrimary then [row] else []) := by
  show (s.phones.put row).rows.filter _ = _
  cases hprimary : row.isPrimary with
  | true =>
    rw [Table.filter_put_of_absent h (by simp [hid, hprimary])]
    rfl
  | false =>
    rw [Table.filter_put_of_neg (by simp [hprimary]) (by simp [h])]
    simp [primaries]

/-- A number that gets the mark where none has it. -/
theorem primaries_mark (hnone : primaries identityId s = [])
    (hid : row.identityId = identityId) (hprimary : row.isPrimary = true) :
    (primaries identityId (publish s [.phone row])).length = 1 := by
  have hnodup : ((primaries identityId (publish s [.phone row])).map
      IdentityPhoneNumber.normalizedPhoneNumber).Nodup := Table.nodup_filter _ _
  have honly : ∀ p ∈ primaries identityId (publish s [.phone row]), p = row := by
    intro p hp
    obtain ⟨hmem, hp⟩ := List.mem_filter.mp hp
    obtain rfl | ⟨hmem, -⟩ := Table.mem_put.mp hmem
    · rfl
    · have hin : p ∈ primaries identityId s := List.mem_filter.mpr ⟨hmem, hp⟩
      rw [hnone] at hin
      cases hin
  have hrow : row ∈ primaries identityId (publish s [.phone row]) :=
    List.mem_filter.mpr ⟨Table.mem_put_self _ _, by simp [hid, hprimary]⟩
  match hrows : primaries identityId (publish s [.phone row]) with
  | [] =>
    rw [hrows] at hrow
    cases hrow
  | [_] =>
    rw [hrows]
    rfl
  | a :: b :: rest =>
    rw [hrows] at honly hnodup
    have ha := honly a (by simp)
    have hb := honly b (by simp)
    simp [ha, hb] at hnodup

end Writes

/-- `managed`: the caller has opened a transaction for the statements. -/
inductive PrimaryCall where
  | attach (managed : Bool) (rawPhone : String) (options : AttachOptions)
  | setPrimary (rawPhone : String)
  deriving DecidableEq, Repr

def program (identityId : ℕ) : PrimaryCall → Personal IdentityPhoneNumber
  | .attach false rawPhone options =>
    attachPhoneNumberToIdentity false identityId rawPhone options
  | .attach true rawPhone options =>
    Personal.transaction (attachPhoneNumberToIdentity true identityId rawPhone options)
  | .setPrimary rawPhone => setPrimaryPhoneNumber identityId rawPhone

/-- The rest of the transaction of a caller. -/
def inTransaction (p : Personal IdentityPhoneNumber) : Personal IdentityPhoneNumber :=
  p.handle (fun a => .commit (.pure a) (.throw .database)) fun e => .rollback (.throw e)

/-- The call has taken the mark from all numbers and is to give it to one. -/
def Cleared (p : Personal IdentityPhoneNumber) : Prop :=
  (∃ row, row.isPrimary = true ∧ p = saveNumber false row) ∨
    ∃ row, Inside (saveEntity (savedPhone row.normalizedPhoneNumber) PersonError.database row) p

/-- The call has yet to commit what it does about the marks. -/
def Uncommitted (p : Personal IdentityPhoneNumber) : Prop :=
  (∃ row, p = inTransaction (saveNumber true row)) ∨
    ∃ row, p = .commit (.pure row) (.throw .database)

/-- Nothing comes between the clearing and the save of a call: it does not stop there, no other
call writes there, and a number that it inserts is not stored when it clears. -/
def Apart (sys : System PrimaryCall Store Key Write PersonError IdentityPhoneNumber) :
    Action → Prop
  | .run i n => (∀ c ws, sys.published (.run i n) = some (c, ws) → ws ≠ [] →
      ∀ j u, j ≠ i → sys.threads[j]? = some u → ¬Cleared u.program ∧ ¬Uncommitted u.program) ∧
    ∀ t row, sys.threads[i]? = some t → t.program = insertNumber false row →
      row.isPrimary = true → sys.store.phones.find? row.normalizedPhoneNumber = none
  | .fail i | .crash i => ∀ t, sys.threads[i]? = some t → ¬Cleared t.program

inductive Phase where
  | out
  | found (number : String)
  | clearing (row : IdentityPhoneNumber)
  | inserting (row : IdentityPhoneNumber)
  | setting (number : String)
  | staged (phones : Table IdentityPhoneNumber.normalizedPhoneNumber) (row : IdentityPhoneNumber)

namespace Phase

def cleared : Phase → Bool
  | .inserting _ | .setting _ => true
  | _ => false

def At : Phase → Personal IdentityPhoneNumber → Prop
  | .out, _ | .found _, _ => True
  | .clearing row, p => p = insertNumber false row
  | .inserting row, p => row.isPrimary = true ∧ p = saveNumber false row
  | .setting _, p => Cleared p
  | .staged _ _, p => Uncommitted p

/-- What the phase of a call says of the store. -/
def Knows (identityId : ℕ) : Phase → Store → Prop
  | .out, _ => True
  | .found number, s => Has identityId number s
  | .clearing row, _ => row.identityId = identityId ∧ row.isPrimary = true
  | .inserting row, s => row.identityId = identityId ∧ row.isPrimary = true ∧
    primaries identityId s = [] ∧ s.phones.find? row.normalizedPhoneNumber = none
  | .setting number, s => primaries identityId s = [] ∧ Has identityId number s
  | .staged phones row, s => s.phones = phones ∧ row.identityId = identityId

inductive Step (identityId : ℕ) : Phase → Store → List Write → Phase → Prop where
  | find {s number} (h : Has identityId number s) : Step identityId .out s [] (.found number)
  | aim {s row} (hid : row.identityId = identityId) (hprimary : row.isPrimary = true) :
      Step identityId .out s [] (.clearing row)
  | clear {s row} : Step identityId (.clearing row) s (clears identityId s) (.inserting row)
  | clearFound {s number} :
      Step identityId (.found number) s (clears identityId s) (.setting number)
  | insert {s row} : Step identityId (.inserting row) s [.phone row] .out
  | mark {s number row} (hid : row.identityId = identityId) (hprimary : row.isPrimary = true) :
      Step identityId (.setting number) s [.phone row] .out
  | add {s row} (hnew : s.phones.find? row.normalizedPhoneNumber = none)
      (hid : row.identityId = identityId) (hprimary : row.isPrimary = false) :
      Step identityId .out s [.phone row] .out
  | stage {s row} (hid : row.identityId = identityId) :
      Step identityId .out s [] (.staged s.phones row)
  | unstage {s phones row} : Step identityId (.staged phones row) s [] .out
  | commit {s phones row} (hnew : phones.find? row.normalizedPhoneNumber = none) :
      Step identityId (.staged phones row) s
        ((if row.isPrimary then clears identityId s else []) ++ [.phone row]) .out

end Phase

def protocol (identityId : ℕ) :
    Protocol Store Key Write PersonError IdentityPhoneNumber Phase where
  At := Phase.At
  Knows := Phase.Knows identityId
  Step := Phase.Step identityId
  Fail _ g := g = .out
  dead := .out

section Follows

variable {identityId : ℕ} {s : Store} {number : String}
  {ctx : Personal IdentityPhoneNumber → Personal IdentityPhoneNumber}
  {R : Except PersonError IdentityPhoneNumber → Session Key Write → Phase → Prop}

theorem fails_out {g : Phase} {T : Phase → Prop} (h : T .out) : (protocol identityId).Fails g T :=
  .step rfl h

theorem refines_read {α : Type} {f : Store → α} {k : α → Personal IdentityPhoneNumber}
    {ses : Session Key Write} (herror : R (.error .database) ses .out)
    (h : ∀ s, (protocol identityId).Refines ctx R (k (f (ses.view s))) ses .out) :
    (protocol identityId).Refines ctx R (Personal.read f >>= k) ses .out :=
  ⟨trivial, fun s _ => .stay (h s), fails_out herror⟩

/-- The part of the calls before a number is inserted. -/
theorem refines_attach {managed : Bool} {rawPhone : String} {options : AttachOptions}
    {ses : Session Key Write}
    (hok : ∀ row, R (.ok row) ses .out) (herror : ∀ e, R (.error e) ses .out)
    (hinsert : ∀ row s, row.identityId = identityId → (protocol identityId).Goes .out s []
      ((protocol identityId).Refines ctx R (insertNumber managed row) ses)) :
    (protocol identityId).Refines ctx R
      (attachPhoneNumberToIdentity managed identityId rawPhone options) ses .out := by
  refine refines_read (herror _) fun s => Refines.expect (fun _ _ => ?_) fun _ => herror _
  cases hnormal : normalizedOrError rawPhone with
  | error e => exact herror e
  | ok normalized =>
    refine refines_read (herror _) fun s => ?_
    cases (ses.view s).phones.find? normalized with
    | some existing =>
      exact Refines.require (fun _ => hok existing) fun _ => herror _
    | none =>
      refine refines_read (herror _) fun s => ?_
      exact ⟨trivial, fun s n _ => hinsert _ s rfl⟩

/-- What follows a number that was stored in the meantime. -/
theorem refines_recover {row : IdentityPhoneNumber} {managed : Bool} {ses : Session Key Write}
    (hok : ∀ row, R (.ok row) ses .out) (herror : ∀ e, R (.error e) ses .out) :
    (protocol identityId).Refines ctx R (recoverAttached managed row) ses .out := by
  refine Refines.require (fun _ => ?_) fun _ => herror _
  refine refines_read (herror _) fun s => Refines.expect (fun _ _ => ?_) fun _ => herror _
  exact Refines.require (fun _ => hok _) fun _ => herror _

theorem refines_attachDirect (rawPhone : String) (options : AttachOptions) :
    (protocol identityId).Refines id (protocol identityId).Done
      (attachPhoneNumberToIdentity false identityId rawPhone options) .idle .out := by
  refine refines_attach (fun _ => trivial) (fun _ => trivial) fun row s hid => ?_
  cases hprimary : row.isPrimary with
  | true =>
    refine .step (.aim hid hprimary) ?_
    have hinsert : insertNumber false row =
        clearPrimary row.identityId >>= fun _ => saveNumber false row := if_pos hprimary
    rw [hinsert]
    refine ⟨hinsert.symm, fun s hk => ?_, fails_out trivial⟩
    rw [hid]
    refine .step .clear ⟨⟨hprimary, rfl⟩, fun t ht => ?_, fails_out trivial⟩
    obtain ⟨-, -, -, hnew⟩ := ht
    simp only [Session.view, Session.stage, Session.idle, publish_nil, Bool.false_eq_true, if_false,
      Session.visible, hnew, Option.isSome_none]
    exact .step .insert trivial
  | false =>
    have hinsert : insertNumber false row = saveNumber false row := if_neg (by simp [hprimary])
    rw [hinsert]
    refine .stay ⟨trivial, fun t _ => ?_, fails_out trivial⟩
    cases hfound : t.phones.find? row.normalizedPhoneNumber with
    | none =>
      simp only [Session.view, Session.stage, Session.idle, publish_nil, Bool.false_eq_true,
        if_false, Session.visible, hfound, Option.isSome_none]
      exact .step (.add hfound hid hprimary) trivial
    | some existing =>
      simp only [Session.view, Session.stage, Session.idle, publish_nil, Bool.false_eq_true,
        if_false, Session.visible, hfound, Option.isSome_some, if_true]
      exact .stay (refines_recover (fun _ => trivial) fun _ => trivial)

/-- The transaction is committed, or rolled back. -/
def Closes (identityId : ℕ) :
    Except PersonError IdentityPhoneNumber → Session Key Write → Phase → Prop :=
  (protocol identityId).Then id (protocol identityId).Done
    (fun a => .commit (.pure a) (.throw .database)) fun e => .rollback (.throw e)

theorem closes_error (e : PersonError) (ses : Session Key Write) :
    Closes identityId (.error e) ses .out :=
  ⟨trivial, fun _ _ => .stay trivial⟩

theorem clears_congr {s t : Store} (h : s.phones = t.phones) :
    clears identityId s = clears identityId t := by
  rw [clears, clears, phonesOf, phonesOf, h]

theorem find_pending {row : IdentityPhoneNumber} :
    ((publish s (if row.isPrimary then clears identityId s else [])).phones.find?
      number).isSome = (s.phones.find? number).isSome := by
  cases row.isPrimary with
  | true =>
    rw [if_pos rfl, find_clears, Option.isSome_map]
  | false => rfl

/-- The writes of the transaction are made of the numbers that were stored when it cleared. -/
theorem refines_saveManaged {row : IdentityPhoneNumber} {t : Store} {ses : Session Key Write}
    (hactive : ses.active = true)
    (hpending : ses.pending = if row.isPrimary then clears identityId t else []) :
    (protocol identityId).Refines (fun q => id (inTransaction q)) (Closes identityId)
      (saveNumber true row) ses (.staged t.phones row) := by
  refine ⟨.inl ⟨row, rfl⟩, fun u hu => ?_, fails_out (closes_error _ _)⟩
  obtain ⟨hphones, -⟩ := hu
  have hsome : ((ses.view u).phones.find? row.normalizedPhoneNumber).isSome =
      (t.phones.find? row.normalizedPhoneNumber).isSome := by
    rw [Session.view, hpending, ← clears_congr hphones, find_pending, hphones]
  simp only [hsome, Session.visible, hactive, if_true]
  cases hfound : t.phones.find? row.normalizedPhoneNumber with
  | none =>
    simp only [Option.isSome_none, Bool.false_eq_true, if_false]
    refine .stay ⟨.inr ⟨row, rfl⟩, fun w hw => ?_, fails_out trivial⟩
    have hwrites : (ses.stage (σ := Store) [.phone row]).pending =
        (if row.isPrimary then clears identityId w else []) ++ [.phone row] := by
      rw [Session.stage, if_pos hactive, hpending, clears_congr hw.1]
    rw [hwrites]
    exact .step (.commit hfound) trivial
  | some existing =>
    simp only [Option.isSome_some, if_true]
    exact .step .unstage (closes_error _ _)

theorem refines_attachManaged (rawPhone : String) (options : AttachOptions) :
    (protocol identityId).Refines id (protocol identityId).Done
      (Personal.transaction (attachPhoneNumberToIdentity true identityId rawPhone options))
      .idle .out := by
  refine ⟨trivial, fun s _ => .stay (Refines.handle ?_)⟩
  refine refines_attach (R := Closes identityId) (fun existing => ?_) (fun e => closes_error e _)
    fun row s hid => ?_
  · exact ⟨trivial, fun s _ => .stay trivial, fails_out trivial⟩
  cases hprimary : row.isPrimary with
  | true =>
    have hinsert : insertNumber true row =
        clearPrimary row.identityId >>= fun _ => saveNumber true row := if_pos hprimary
    rw [hinsert]
    refine .stay ⟨trivial, fun t _ => ?_, fails_out (closes_error _ _)⟩
    have hstage : (protocol identityId).Step .out t [] (.staged t.phones row) := .stage hid
    refine .step hstage (refines_saveManaged rfl ?_)
    rw [hid, hprimary]
    rfl
  | false =>
    have hinsert : insertNumber true row = saveNumber true row := if_neg (by simp [hprimary])
    rw [hinsert]
    have hstage : (protocol identityId).Step .out s [] (.staged s.phones row) := .stage hid
    refine .step hstage (refines_saveManaged rfl ?_)
    simp [hprimary, Session.opened]

/-- No number has the mark, so the row differs from the entity that is saved. -/
theorem unmarked {number : String} {s : Store} {p : IdentityPhoneNumber}
    (hnone : primaries identityId s = []) (hp : s.phones.find? number = some p)
    (hid : p.identityId = identityId) : p.isPrimary = false := by
  by_contra hprimary
  have hmem : p ∈ primaries identityId s :=
    List.mem_filter.mpr ⟨Table.mem_of_find? hp, by simp [hid, hprimary]⟩
  rw [hnone] at hmem
  cases hmem

theorem refines_mark {row : IdentityPhoneNumber} (hid : row.identityId = identityId)
    (hprimary : row.isPrimary = true) :
    (loose (protocol identityId) fun g => ∃ number, g = .setting number).Refines id
      (fun _ _ g => g = .out)
      (saveEntity (savedPhone row.normalizedPhoneNumber) PersonError.database row) .idle
      (.setting row.normalizedPhoneNumber) := by
  refine ⟨⟨_, rfl⟩, fun s hs => .stay ?_, .step rfl rfl⟩
  obtain ⟨hnone, old, hold, hidOld⟩ := hs
  have hunmarked := unmarked hnone hold hidOld
  have hview : (savedPhone row.normalizedPhoneNumber).find (Session.view (ω := Write) .idle s) =
      some old := hold
  simp only [hview]
  have hdiffers : ¬old = row := by
    intro heq
    rw [heq, hprimary] at hunmarked
    cases hunmarked
  simp only [Program.handle, if_neg hdiffers]
  refine ⟨⟨_, rfl⟩, fun t ht => ?_, .step rfl rfl⟩
  obtain ⟨-, current, hcurrent, hidCurrent⟩ := ht
  have hview' : (savedPhone row.normalizedPhoneNumber).find (Session.view (ω := Write) .idle t) =
      some current := hcurrent
  simp only [hview', Option.toList_some, List.map_cons, List.map_nil]
  refine .step (.mark ?_ ?_) rfl
  · show column old.identityId row.identityId current.identityId = identityId
    rw [hidOld, hid, column_same, hidCurrent]
  · show column old.isPrimary row.isPrimary current.isPrimary = true
    rw [hunmarked, hprimary]
    rfl

theorem refines_setPrimary (rawPhone : String) :
    (protocol identityId).Refines id (protocol identityId).Done
      (setPrimaryPhoneNumber identityId rawPhone) .idle .out := by
  unfold setPrimaryPhoneNumber
  cases normalizedOrError rawPhone with
  | error e => trivial
  | ok normalized =>
    refine ⟨trivial, fun s _ => ?_, fails_out trivial⟩
    show (protocol identityId).Goes _ _ _ ((protocol identityId).Refines _ _
      (Program.expect ((s.phones.find? normalized).filter fun p => p.identityId = identityId)
        (.notFound "Phone number not found for this identity") >>= _) _)
    cases hfound : (s.phones.find? normalized).filter fun p => p.identityId = identityId with
    | none => exact .stay trivial
    | some row =>
      obtain ⟨hrow, hid⟩ := Option.filter_eq_some_iff.mp hfound
      have hid : row.identityId = identityId := of_decide_eq_true hid
      have hnumber : row.normalizedPhoneNumber = normalized := Table.key_of_find? hrow
      have hprimary : ({ row with isPrimary := true } : IdentityPhoneNumber).isPrimary = true := rfl
      refine .step (.find ⟨row, hrow, hid⟩) ⟨trivial, fun t ht => ?_, fails_out trivial⟩
      refine .step .clearFound ?_
      rw [← hnumber]
      show (protocol identityId).Refines id _
        (saveEntity (savedPhone row.normalizedPhoneNumber) PersonError.database
          { row with isPrimary := true } >>= fun _ => pure { row with isPrimary := true })
        .idle (.setting row.normalizedPhoneNumber)
      refine Refines.bind (Q := fun _ _ g => g = .out) (refines_located (fun q g hres hq hg => ?_)
        (refines_mark hid hprimary)) ?_ ?_
      · obtain ⟨number, rfl⟩ := hg
        exact .inr ⟨{ row with isPrimary := true }, inside_of_residue hres hq⟩
      · rintro b ses g rfl
        trivial
      · rintro e ses g rfl
        trivial

theorem refines_program (c : PrimaryCall) :
    (protocol identityId).Refines id (protocol identityId).Done (program identityId c) .idle
      .out := by
  cases c with
  | attach managed rawPhone options =>
    cases managed with
    | false => exact refines_attachDirect rawPhone options
    | true => exact refines_attachManaged rawPhone options
  | setPrimary rawPhone => exact refines_setPrimary rawPhone

end Follows

/-- Where no call has taken the mark away, one number has it, if it was ever given. -/
structure Marked (identityId : ℕ) (given : Prop) (gs : List Phase) (s : Store) : Prop where
  knows : ∀ g ∈ gs, g.Knows identityId s
  most : (∀ g ∈ gs, g.cleared = false) → (primaries identityId s).length ≤ 1
  least : given → (∀ g ∈ gs, g.cleared = false) → primaries identityId s ≠ []

section Runs

variable {identityId : ℕ} {given : Prop} {gs : List Phase}
  {sys sys' : System PrimaryCall Store Key Write PersonError IdentityPhoneNumber} {i n : ℕ}

/-- What another call knows stays true. -/
theorem knows_others (hok : Apart sys (.run i n)) {g g' : Phase} {ws : List Write}
    (hm : (protocol identityId).Moved sys sys' (.run i n) gs g ws g')
    (hknows : ∀ g ∈ gs, g.Knows identityId sys.store)
    (hhas : ∀ number, Has identityId number sys.store →
      Has identityId number (publish sys.store ws)) {j : ℕ} {other : Phase} (hj : j ≠ i)
    (hother : gs[j]? = some other) : other.Knows identityId (publish sys.store ws) := by
  obtain ⟨t, p, ses, ws', ht, hmove, hsys⟩ := System.step_eq_some.mp hm.step
  have hstore : publish sys.store ws = publish sys.store ws' := by
    rw [← hm.store, hsys]
  have hbefore := hknows other (List.mem_of_getElem? hother)
  by_cases hws : ws' = []
  · rw [hstore, hws]
    exact hbefore
  · have hpublished : sys.published (.run i n) = some (t.call, ws') :=
      System.published_eq_some.mpr ⟨t, p, ses, ht, rfl, hmove⟩
    obtain ⟨u, hu, hfollows⟩ := forall₂_getElem?' hm.before hother
    obtain ⟨hcleared, huncommitted⟩ := hok.1 _ _ hpublished hws j u hj hu
    have hat : other.At u.program ∨ other = .out := hfollows.at.imp id fun h => h.2
    cases other with
    | out => trivial
    | found number => exact hhas number hbefore
    | clearing row => exact hbefore
    | inserting row =>
      obtain ⟨hprimary, hp⟩ | hout := hat
      · exact absurd (.inl ⟨row, hprimary, hp⟩) hcleared
      · cases hout
    | setting number =>
      obtain hat | hout := hat
      · exact absurd hat hcleared
      · cases hout
    | staged phones row =>
      obtain hat | hout := hat
      · exact absurd hat huncommitted
      · cases hout

/-- The phases before a step have no cleared one, if those after it have none and the call that
takes the step was in none. -/
theorem cleared_before {g g' : Phase} (hg : gs[i]? = some g) (hcleared : g.cleared = false)
    (h : ∀ x ∈ gs.set i g', x.cleared = false) : ∀ x ∈ gs, x.cleared = false := by
  intro x hx
  obtain ⟨j, hj⟩ := List.mem_iff_getElem?.mp hx
  by_cases hji : j = i
  · subst hji
    rw [hg] at hj
    obtain rfl := Option.some.inj hj
    exact hcleared
  · refine h x (List.mem_of_getElem? (i := j) ?_)
    rw [List.getElem?_set_ne (Ne.symm hji)]
    exact hj

theorem Marked.of_step (hJ : Marked identityId given gs sys.store) (hok : Apart sys (.run i n))
    {g g' : Phase} {ws : List Write}
    (hm : (protocol identityId).Moved sys sys' (.run i n) gs g ws g')
    (hhas : ∀ number, Has identityId number sys.store →
      Has identityId number (publish sys.store ws))
    (hknows : g'.Knows identityId (publish sys.store ws))
    (hmost : (∀ x ∈ gs.set i g', x.cleared = false) →
      (primaries identityId (publish sys.store ws)).length ≤ 1)
    (hleast : given → (∀ x ∈ gs.set i g', x.cleared = false) →
      primaries identityId (publish sys.store ws) ≠ []) :
    Marked identityId given (gs.set i g') (publish sys.store ws) := by
  refine ⟨fun x hx => ?_, hmost, hleast⟩
  obtain rfl | ⟨j, hj, hx⟩ := mem_set_cases hx
  · exact hknows
  · exact knows_others hok hm hJ.knows hhas hj hx

theorem mem_set_of_phase {g g' : Phase} (hg : gs[i]? = some g) : g' ∈ gs.set i g' := by
  refine List.mem_of_getElem? (i := i) ?_
  rw [List.getElem?_set_self (List.getElem?_eq_some_iff.mp hg).1]

/-- What a call that has not stopped is about. -/
theorem at_of_moved {a : Action} {g g' : Phase} {ws : List Write}
    (hm : (protocol identityId).Moved sys sys' a gs g ws g') (hg : g ≠ .out) :
    ∃ t, sys.threads[System.mover a]? = some t ∧ g.At t.program := by
  obtain ⟨t, ht, hfollows⟩ := forall₂_getElem?' hm.before hm.phase
  obtain hat | ⟨-, hout⟩ := hfollows.at
  · exact ⟨t, ht, hat⟩
  · exact absurd hout hg

theorem Marked.stop (hJ : Marked identityId given gs sys.store) {a : Action} {g g' : Phase}
    {ws : List Write} (hm : (protocol identityId).Moved sys sys' a gs g ws g')
    (hok : ∀ t, sys.threads[System.mover a]? = some t → ¬Cleared t.program) :
    Marked identityId given (gs.set (System.mover a) .out) sys.store := by
  have hcleared : g.cleared = false := by
    cases g with
    | inserting row =>
      obtain ⟨t, ht, hat⟩ := at_of_moved hm (fun h => nomatch h)
      exact absurd (.inl ⟨row, hat⟩) (hok t ht)
    | setting number =>
      obtain ⟨t, ht, hat⟩ := at_of_moved hm (fun h => nomatch h)
      exact absurd hat (hok t ht)
    | _ => rfl
  refine ⟨fun x hx => ?_, fun h => hJ.most (cleared_before hm.phase hcleared h),
    fun hgiven h => hJ.least hgiven (cleared_before hm.phase hcleared h)⟩
  obtain rfl | ⟨j, -, hx⟩ := mem_set_cases hx
  · trivial
  · exact hJ.knows x (List.mem_of_getElem? hx)

/-- A number that was not stored is not among the numbers of any call. -/
theorem has_insert {s : Store} {row : IdentityPhoneNumber}
    (hnew : s.phones.find? row.normalizedPhoneNumber = none) (number : String)
    (h : Has identityId number s) : Has identityId number (publish s [.phone row]) := by
  refine has_put h fun heq => ?_
  obtain ⟨p, hp, -⟩ := h
  rw [heq, hnew] at hp
  cases hp

theorem keeps_marked (given : Prop) :
    (protocol identityId).Keeps Apart (Marked identityId given) := by
  refine ⟨fun hJ hg => hJ.knows _ hg, ?_, ?_, ?_⟩
  · intro sys sys' i n gs g ws g' hok hJ hm hs
    have hself := hJ.knows _ (List.mem_of_getElem? hm.phase)
    cases hs with
    | find h =>
      exact hJ.of_step hok hm (fun _ h => h) h (fun h => hJ.most (cleared_before hm.phase rfl h))
        fun hgiven h => hJ.least hgiven (cleared_before hm.phase rfl h)
    | aim hid hprimary =>
      exact hJ.of_step hok hm (fun _ h => h) ⟨hid, hprimary⟩
        (fun h => hJ.most (cleared_before hm.phase rfl h))
        fun hgiven h => hJ.least hgiven (cleared_before hm.phase rfl h)
    | @clear _ row =>
      obtain ⟨t, ht, hat⟩ := at_of_moved hm (fun h => nomatch h)
      have hnew := hok.2 t row ht hat hself.2
      have hknows : (Phase.inserting row).Knows identityId
          (publish sys.store (clears identityId sys.store)) :=
        ⟨hself.1, hself.2, primaries_clears, by rw [find_clears, hnew, Option.map_none]⟩
      exact hJ.of_step hok hm (fun _ => has_clears) hknows
        (fun h => nomatch h _ (mem_set_of_phase hm.phase))
        fun _ h => nomatch h _ (mem_set_of_phase hm.phase)
    | clearFound =>
      exact hJ.of_step hok hm (fun _ => has_clears) ⟨primaries_clears, has_clears hself⟩
        (fun h => nomatch h _ (mem_set_of_phase hm.phase))
        fun _ h => nomatch h _ (mem_set_of_phase hm.phase)
    | @insert _ row =>
      obtain ⟨hid, hprimary, hnone, hnew⟩ := hself
      have hrows : primaries identityId (publish sys.store [.phone row]) = [row] := by
        rw [primaries_insert hnew hid, hnone, if_pos hprimary, List.nil_append]
      refine hJ.of_step hok hm (has_insert hnew) trivial (fun _ => ?_) fun _ _ => ?_
      · rw [hrows]
        exact Nat.le_refl 1
      · rw [hrows]
        exact List.cons_ne_nil _ _
    | @mark _ number row hid hprimary =>
      have hone := primaries_mark hself.1 hid hprimary
      refine hJ.of_step hok hm (fun _ h => has_put h fun _ => hid) trivial (fun _ => Nat.le_of_eq hone)
        fun _ _ hnil => ?_
      rw [hnil] at hone
      cases hone
    | @add _ row hnew hid hprimary =>
      have hrows : primaries identityId (publish sys.store [.phone row]) =
          primaries identityId sys.store := by
        rw [primaries_insert hnew hid, hprimary]
        simp
      refine hJ.of_step hok hm (has_insert hnew) trivial (fun h => ?_) fun hgiven h => ?_
      · rw [hrows]
        exact hJ.most (cleared_before hm.phase rfl h)
      · rw [hrows]
        exact hJ.least hgiven (cleared_before hm.phase rfl h)
    | stage hid =>
      exact hJ.of_step hok hm (fun _ h => h) ⟨rfl, hid⟩
        (fun h => hJ.most (cleared_before hm.phase rfl h))
        fun hgiven h => hJ.least hgiven (cleared_before hm.phase rfl h)
    | unstage =>
      exact hJ.of_step hok hm (fun _ h => h) trivial
        (fun h => hJ.most (cleared_before hm.phase rfl h))
        fun hgiven h => hJ.least hgiven (cleared_before hm.phase rfl h)
    | @commit _ phones row hnew =>
      obtain ⟨hphones, hid⟩ := hself
      rw [← hphones] at hnew
      cases hprimary : row.isPrimary with
      | true =>
        simp only [hprimary, if_true] at hm ⊢
        have hnew' : (publish sys.store (clears identityId sys.store)).phones.find?
            row.normalizedPhoneNumber = none := by
          rw [find_clears, hnew, Option.map_none]
        have hrows : primaries identityId (publish sys.store
            (clears identityId sys.store ++ [.phone row])) = [row] := by
          rw [publish_append, primaries_insert hnew' hid, primaries_clears, if_pos hprimary,
            List.nil_append]
        refine hJ.of_step hok hm (fun number h => ?_) trivial (fun _ => ?_) fun _ _ => ?_
        · rw [publish_append]
          exact has_insert hnew' number (has_clears h)
        · rw [hrows]
          exact Nat.le_refl 1
        · rw [hrows]
          exact List.cons_ne_nil _ _
      | false =>
        simp only [hprimary, Bool.false_eq_true, if_false, List.nil_append] at hm ⊢
        have hrows : primaries identityId (publish sys.store [.phone row]) =
            primaries identityId sys.store := by
          rw [primaries_insert hnew hid, hprimary]
          simp
        refine hJ.of_step hok hm (has_insert hnew) trivial (fun h => ?_) fun hgiven h => ?_
        · rw [hrows]
          exact hJ.most (cleared_before hm.phase rfl h)
        · rw [hrows]
          exact hJ.least hgiven (cleared_before hm.phase rfl h)
  · intro sys sys' i gs g g' hok hJ hm hf
    obtain rfl := hf
    exact hJ.stop hm hok
  · intro sys sys' i gs g hok hJ hm
    exact hJ.stop hm hok

/-- No call is running. -/
def Quiet (sys : System PrimaryCall Store Key Write PersonError IdentityPhoneNumber) : Prop :=
  ∀ t ∈ sys.threads, ¬Active t.program

theorem not_cleared_of_quiet (h : (protocol identityId).Consistent sys gs) (hquiet : Quiet sys) :
    ∀ g ∈ gs, g.cleared = false := by
  intro g hg
  obtain ⟨i, hi⟩ := List.mem_iff_getElem?.mp hg
  obtain ⟨t, ht, hfollows⟩ := forall₂_getElem?' h hi
  have hended := hquiet t (List.mem_of_getElem? ht)
  obtain hat | ⟨-, rfl⟩ := hfollows.at
  · cases g with
    | inserting row =>
      obtain ⟨-, hp⟩ := hat
      rw [hp] at hended
      exact absurd trivial hended
    | setting number =>
      obtain ⟨row, -, hp⟩ | ⟨row, hinside⟩ := hat
      · rw [hp] at hended
        exact absurd trivial hended
      · exact absurd hinside.active hended
    | _ => rfl
  · rfl

/-- In runs in which nothing comes between the clearing and the save of a call, an identity
that has got a primary number has exactly one whenever no call is running. -/
theorem one_primary {s : Store} {calls : List PrimaryCall}
    (hs : (primaries identityId s).length ≤ 1)
    (hrun : System.Run Apart (launch (program identityId) s calls) sys)
    (hgiven : primaries identityId sys.store ≠ []) (hrest : System.Run Apart sys sys')
    (hquiet : Quiet sys') : (primaries identityId sys'.store).length = 1 := by
  have hstart : Marked identityId False (calls.map fun _ => .out) s := by
    refine ⟨fun g hg => ?_, fun _ => hs, fun h => h.elim⟩
    obtain ⟨c, -, rfl⟩ := List.mem_map.mp hg
    trivial
  obtain ⟨gs, hgs, hJ⟩ := (keeps_marked False).run hrun
    (consistent_launch s refines_program) hstart
  have hgiven' : Marked identityId True gs sys.store := ⟨hJ.knows, hJ.most, fun _ _ => hgiven⟩
  obtain ⟨gs', hgs', hJ'⟩ := (keeps_marked True).run hrest hgs hgiven'
  have hcleared := not_cleared_of_quiet hgs' hquiet
  have hpos := List.length_pos_of_ne_nil (hJ'.least trivial hcleared)
  have hmost := hJ'.most hcleared
  omega

end Runs

/-- The program clears and then inserts. -/
def insertsNext (s : Store) : Personal IdentityPhoneNumber → Bool
  | Program.update _ k _ =>
    match k s with
    | Program.update _ _ _ => true
    | _ => false
  | _ => false

/-- One call runs, which inserts no primary number. -/
def SetsOnly (sys : System PrimaryCall Store Key Write PersonError IdentityPhoneNumber) :
    Action → Prop
  | .run i _ => i = 0 ∧ sys.threads.length = 1 ∧
    ∀ t ∈ sys.threads, insertsNext sys.store t.program = false
  | _ => False

instance (sys : System PrimaryCall Store Key Write PersonError IdentityPhoneNumber) (a : Action) :
    Decidable (SetsOnly sys a) :=
  match a with
  | .run i _ => inferInstanceAs (Decidable (i = 0 ∧ sys.threads.length = 1 ∧
      ∀ t ∈ sys.threads, insertsNext sys.store t.program = false))
  | .fail _ | .crash _ => .isFalse id

instance (p : Personal IdentityPhoneNumber) : Decidable (Active p) :=
  match p with
  | .pure _ | .throw _ | .halt => .isFalse id
  | .select _ _ | .lock _ _ _ | Program.update _ _ _ | Program.insert _ _ _ | .choose _ | .emit _ _
  | .start _ | .commit _ _ | .rollback _ => .isTrue trivial

instance (sys : System PrimaryCall Store Key Write PersonError IdentityPhoneNumber) :
    Decidable (Quiet sys) :=
  inferInstanceAs (Decidable (∀ t ∈ sys.threads, ¬Active t.program))

theorem apart_of_setsOnly
    (sys : System PrimaryCall Store Key Write PersonError IdentityPhoneNumber) (a : Action)
    (h : SetsOnly sys a) : Apart sys a := by
  cases a with
  | run i n =>
    obtain ⟨rfl, hlone, hsets⟩ := h
    constructor
    · intro c ws _ _ j u hj hu
      have hlt := (List.getElem?_eq_some_iff.mp hu).1
      omega
    · intro t row ht hp hprimary
      have hnot := hsets t (List.mem_of_getElem? ht)
      have hinsert : insertNumber false row =
          clearPrimary row.identityId >>= fun _ => saveNumber false row := if_pos hprimary
      rw [hp, hinsert] at hnot
      cases hnot
  | fail i => exact h.elim
  | crash i => exact h.elim

def numbered (number : String) (isPrimary : Bool) : IdentityPhoneNumber :=
  ⟨1, number, number, isPrimary, true, some 0⟩

/-- A person with a primary number and a second one. -/
def twoNumbers : Store :=
  { Store.blank with
    identities := .ofRows [SharedProfile.amal]
    phones := .ofRows [numbered "+212600000001" true, numbered "+212600000002" false] }

/-- The second number becomes the primary one. -/
def makeSecond : PrimaryCall := .setPrimary "+212600000002"

theorem one_primary_moved :
    let start := launch (program 1) twoNumbers [makeSecond]
    let moved := (System.exec SetsOnly start (System.turns 0 0 4)).getD start
    (primaries 1 moved.store).length = 1 := by
  intro start moved
  have hrun : System.Run SetsOnly start moved := by
    have hexec : (System.exec SetsOnly start (System.turns 0 0 4)).isSome = true := by
      decide +kernel
    obtain ⟨sys', hsys⟩ := Option.isSome_iff_exists.mp hexec
    have hmoved : moved = sys' := by simp only [moved, hsys, Option.getD_some]
    rw [hmoved]
    exact System.run_of_exec hsys
  exact one_primary (by decide +kernel) (.refl start) (by decide +kernel)
    (hrun.mono apart_of_setsOnly) (by decide +kernel)

/-- A call that fails after it has cleared leaves no primary number. -/
theorem no_primary_left :
    let start := launch (program 1) twoNumbers [makeSecond]
    let failed := after start [.run 0 0, .run 0 1, .fail 0]
    System.Run (fun _ _ => True) start failed ∧ (primaries 1 start.store).length = 1 ∧
      Quiet failed ∧ primaries 1 failed.store = [] := by
  intro start failed
  exact ⟨run_after (by decide +kernel), by decide +kernel, by decide +kernel, by decide +kernel⟩

end NexaStays.PrimaryPhone
