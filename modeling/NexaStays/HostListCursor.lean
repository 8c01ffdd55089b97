import NexaStays.Database
import NexaStays.Keyset
import NexaStays.SampleCodec
import NexaStays.SqlText
import Mathlib.Algebra.Order.Ring.Rat
import Mathlib.Tactic.DeriveEncodable

/-!
# Cursors of the host's lists

`host-list-cursor.util`: a cursor is the text of its payload with a signature, and is
bound to the host and the query it was made for.
-/
namespace NexaStays.HostListCursor

open NexaStays.Database NexaStays.SampleCodec NexaStays.SqlText

inductive ListKind where
  | bookings | listings
  deriving DecidableEq, Repr

/-- A sort key of a cursor. Texts that are a date or an instant are given by what they
say, instants in milliseconds. -/
inductive CursorValue where
  | text (s : String)
  | number (x : ℚ)
  | instant (ms : ℤ)
  | day (d : ℤ)
  | null
  deriving DecidableEq, Repr

structure HostListCursorContext where
  kind : ListKind
  hostId : ℕ
  sort : String
  filter : String
  search : String
  listingId : Option ℕ
  status : String
  deriving DecidableEq, Repr

structure HostListCursorPayload extends HostListCursorContext where
  v : ℤ
  keys : List (String × CursorValue)
  id : ℕ
  deriving DecidableEq, Repr

/-- The sort key of a name. -/
def HostListCursorPayload.key (p : HostListCursorPayload) (name : String) : CursorValue :=
  (p.keys.lookup name).getD .null

/-- The database's text of an id, lower case and collation, which is deterministic; the
lower case of the language, which leaves a lower-case text alone; the JSON text of a
payload in base64, and its signature. -/
structure ListPlatform where
  idText : ℕ → String
  sqlLower : String → String
  toLowerCase : String → String
  toLowerCase_sqlLower : ∀ s, toLowerCase (sqlLower s) = sqlLower s
  collationKey : String → List ℕ
  collationKey_injective : Function.Injective collationKey
  write : HostListCursorPayload → String
  read : String → Option HostListCursorPayload
  read_write : ∀ p, read (write p) = some p
  write_noDot : ∀ p, '.' ∉ (write p).toList
  signBody : String → String
  signBody_noDot : ∀ s, '.' ∉ (signBody s).toList

variable {pf : ListPlatform} {ctx : HostListCursorContext}

def normalizeContext (pf : ListPlatform) (ctx : HostListCursorContext) : HostListCursorContext :=
  { ctx with search := pf.toLowerCase (trim ctx.search) }

def encodeHostListCursor (pf : ListPlatform) (ctx : HostListCursorContext)
    (keys : List (String × CursorValue)) (id : ℕ) : String :=
  let body := pf.write { normalizeContext pf ctx with v := 1, keys, id }
  body ++ "." ++ pf.signBody body

def invalidCursor : StaysError := .badRequest "Invalid cursor"

def decodeHostListCursor (pf : ListPlatform) (cursor : Option String)
    (ctx : HostListCursorContext) : Except StaysError (Option HostListCursorPayload) :=
  match cursor with
  | none => .ok none
  | some cursor =>
    if cursor = "" then .ok none
    else
      match cursor.toList.splitOn '.' with
      | [body, sig] =>
        if String.ofList sig = pf.signBody (String.ofList body) then
          match pf.read (String.ofList body) with
          | none => .error invalidCursor
          | some payload =>
            if payload.v ≠ 1 then .error invalidCursor
            else if payload.toHostListCursorContext = normalizeContext pf ctx then
              .ok (some payload)
            else .error (.badRequest "Cursor does not match the current list query context")
        else .error invalidCursor
      | _ => .error invalidCursor

/-- A cursor under a query: accepted for the query that it was made for. -/
theorem decodeHostListCursor_encode (c₁ c₂ : HostListCursorContext)
    (keys : List (String × CursorValue)) (id : ℕ) :
    decodeHostListCursor pf (some (encodeHostListCursor pf c₁ keys id)) c₂ =
      if normalizeContext pf c₁ = normalizeContext pf c₂ then
        .ok (some { normalizeContext pf c₁ with v := 1, keys, id })
      else .error (.badRequest "Cursor does not match the current list query context") := by
  let payload : HostListCursorPayload := { normalizeContext pf c₁ with v := 1, keys, id }
  have htext : (encodeHostListCursor pf c₁ keys id).toList =
      (pf.write payload).toList ++ '.' :: (pf.signBody (pf.write payload)).toList := by
    simp [encodeHostListCursor, payload]
  have hne : encodeHostListCursor pf c₁ keys id ≠ "" := by
    intro h
    rw [h] at htext
    simp at htext
  have hparts : (encodeHostListCursor pf c₁ keys id).toList.splitOn '.' =
      [(pf.write payload).toList, (pf.signBody (pf.write payload)).toList] := by
    rw [htext, List.splitOn_append_cons_self, List.splitOn_eq_singleton (pf.write_noDot payload),
      List.splitOn_eq_singleton (pf.signBody_noDot _), List.singleton_append]
  have hread : pf.read (pf.write payload) = some payload := pf.read_write payload
  simp only [decodeHostListCursor, if_neg hne, hparts, String.ofList_toList, hread, if_true]
  rw [if_neg (by simp [payload])]

theorem decode_encode (keys : List (String × CursorValue)) (id : ℕ) :
    decodeHostListCursor pf (some (encodeHostListCursor pf ctx keys id)) ctx =
      .ok (some { normalizeContext pf ctx with v := 1, keys, id }) := by
  rw [decodeHostListCursor_encode, if_pos rfl]

section Samples

deriving instance Encodable for CursorValue, ListKind, HostListCursorContext
deriving instance Encodable for HostListCursorPayload

def asciiLower (s : String) : String := String.ofList (s.toList.map Char.toLower)

theorem toLower_toLower (c : Char) : c.toLower.toLower = c.toLower := by
  have hself : ∀ c : Char, ¬(c.val ≥ 'A'.val ∧ c.val ≤ 'Z'.val) → c.toLower = c :=
    fun c h => dif_neg h
  by_cases h : c.val ≥ 'A'.val ∧ c.val ≤ 'Z'.val
  · have hval : c.toLower.val = c.val + ('a'.val - 'A'.val) := congrArg Char.val (dif_pos h)
    apply hself
    rw [hval]
    grind
  · rw [hself c h, hself c h]

theorem asciiLower_asciiLower (s : String) : asciiLower (asciiLower s) = asciiLower s := by
  simp only [asciiLower, String.toList_ofList, List.map_map, Function.comp_def, toLower_toLower]

theorem sampleSignature_noDot : '.' ∉ "9f86d081884c7d65".toList := by decide

/-- A platform with ASCII texts, the text of one payload and a signature. -/
def samplePlatform (text : String) (payload : HostListCursorPayload) (signature : String)
    (hdot : '.' ∉ text.toList) (hletter : 'e' ∈ text.toList)
    (hsignature : '.' ∉ signature.toList) : ListPlatform where
  idText id := toString id
  sqlLower := asciiLower
  toLowerCase := asciiLower
  toLowerCase_sqlLower := asciiLower_asciiLower
  collationKey s := s.toList.map Char.toNat
  collationKey_injective s t h := String.toList_inj.mp
    (List.map_injective_iff.mpr (fun _ _ => Char.toNat_inj.mp) h)
  write := writeSample text payload
  read := readSample text payload
  read_write := read_writeSample (by decide) hletter
  write_noDot p hp := by
    rcases mem_writeSample hp with htext | hA
    · exact hdot htext
    · exact absurd hA (by decide)
  signBody _ := signature
  signBody_noDot _ := hsignature

end Samples

end NexaStays.HostListCursor
