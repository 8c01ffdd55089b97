import NexaStays.CursorContexts
import NexaStays.HostListCursor

/-!
# Cursors as records and as texts

The lists take the payload of a cursor for a record; `host-list-cursor.util` makes a text of its
members. In both readings a cursor is made, accepted and refused alike.
-/
namespace NexaStays.CursorTexts

open NexaStays.Database NexaStays.JsonText
open NexaStays.HostListCursor (ListPlatform ListKind CursorValue HostListCursorPayload)
open NexaStays.CursorContexts (CursorPlatform HostListCursorKind NormalizedContext SortKeys
  payloadOf contextMismatch)

theorem units_append (a b : String) : units (a ++ b) = units a ++ units b := by
  simp [units]

theorem units_inj {a b : String} : units a = units b ↔ a = b := by
  refine ⟨fun h => ?_, fun h => h ▸ rfl⟩
  exact String.toList_inj.mp (List.map_injective_iff.mpr (fun _ _ => Char.toNat_inj.mp) h)

def kind : ListKind → HostListCursorKind
  | .bookings => .bookings
  | .listings => .listings

theorem kind_inj {a b : ListKind} : kind a = kind b ↔ a = b := by
  cases a <;> cases b <;> decide

/-- The query of a list, with the texts of its ids. -/
def context (lp : ListPlatform) (ctx : HostListCursor.HostListCursorContext) :
    CursorContexts.HostListCursorContext where
  kind := kind ctx.kind
  hostId := units (lp.idText ctx.hostId)
  sort := units ctx.sort
  filter := some (units ctx.filter)
  search := some (units ctx.search)
  listingId := ctx.listingId.map fun id => units (lp.idText id)
  status := some (units ctx.status)

/-- A query that is normalized already. -/
def normalized (lp : ListPlatform) (ctx : HostListCursor.HostListCursorContext) :
    NormalizedContext where
  kind := kind ctx.kind
  hostId := units (lp.idText ctx.hostId)
  sort := units ctx.sort
  filter := units ctx.filter
  search := units ctx.search
  listingId := (ctx.listingId.map fun id => units (lp.idText id)).getD []
  status := units ctx.status

variable {ν : Type} {num : Numerals ν} [One ν]

/-- The text of a payload, with the sort keys as they are written. -/
def payload (lp : ListPlatform) (keys : List (String × CursorValue) → SortKeys ν)
    (p : HostListCursorPayload) : Json ν :=
  payloadOf (normalized lp p.toHostListCursorContext) (keys p.keys) (units (lp.idText p.id))

/-- The platform of the lists writes and signs records as the platform of the texts does. -/
structure Writes (lp : ListPlatform) (cp : CursorPlatform num)
    (keys : List (String × CursorValue) → SortKeys ν) : Prop where
  idText_ne : ∀ id, lp.idText id ≠ ""
  idText_inj : ∀ a b, lp.idText a = lp.idText b → a = b
  search : ∀ s, units (lp.toLowerCase (SqlText.trim s)) = cp.toLowerCase (cp.trim (units s))
  write : ∀ p, p.v = 1 → units (lp.write p) = cp.b64urlEncode (stringify num (payload lp keys p))
  signBody : ∀ s, units (lp.signBody s) = cp.signBody (units s)

variable {lp : ListPlatform} {cp : CursorPlatform num}
  {keys : List (String × CursorValue) → SortKeys ν}

theorem normalizeContext_context (w : Writes lp cp keys)
    (ctx : HostListCursor.HostListCursorContext) :
    CursorContexts.normalizeContext cp (context lp ctx) =
      normalized lp (HostListCursor.normalizeContext lp ctx) := by
  rw [CursorContexts.normalizeContext, normalized, HostListCursor.normalizeContext]
  simp only [context, Option.getD_some, w.search]

theorem normalized_inj (w : Writes lp cp keys) {a b : HostListCursor.HostListCursorContext} :
    normalized lp a = normalized lp b ↔ a = b := by
  refine ⟨fun h => ?_, fun h => h ▸ rfl⟩
  have hid : ∀ a b, units (lp.idText a) = units (lp.idText b) ↔ a = b := fun a b =>
    ⟨fun h => w.idText_inj a b (units_inj.mp h), fun h => h ▸ rfl⟩
  have hne : ∀ id, units (lp.idText id) ≠ [] := fun id h =>
    w.idText_ne id (units_inj.mp (h.trans rfl))
  have hlisting : ∀ a b : Option ℕ, (a.map fun id => units (lp.idText id)).getD [] =
      (b.map fun id => units (lp.idText id)).getD [] → a = b := by
    rintro (_ | a) (_ | b) h
    · rfl
    · exact absurd h.symm (hne b)
    · exact absurd h (hne a)
    · exact congrArg some ((hid a b).mp h)
  obtain ⟨k, hostId, sort, filter, search, listingId, status⟩ := a
  obtain ⟨k', hostId', sort', filter', search', listingId', status'⟩ := b
  simp only [normalized, NormalizedContext.mk.injEq, kind_inj, hid, units_inj] at h
  obtain ⟨rfl, rfl, rfl, rfl, rfl, h, rfl⟩ := h
  obtain rfl := hlisting _ _ h
  rfl

/-- Both make the same text of a query, its sort keys and an id. -/
theorem encode_units (w : Writes lp cp keys) (ctx : HostListCursor.HostListCursorContext)
    (ks : List (String × CursorValue)) (id : ℕ) :
    units (HostListCursor.encodeHostListCursor lp ctx ks id) =
      CursorContexts.encodeHostListCursor cp (context lp ctx) (keys ks)
        (units (lp.idText id)) := by
  have hbody : units (lp.write { HostListCursor.normalizeContext lp ctx with
      v := 1, keys := ks, id }) =
      CursorContexts.cursorBody cp (context lp ctx) (keys ks) (units (lp.idText id)) := by
    rw [w.write _ rfl, CursorContexts.cursorBody, normalizeContext_context w]
    rfl
  have hdot : units "." = [46] := rfl
  rw [HostListCursor.encodeHostListCursor, units_append, units_append, w.signBody, hbody, hdot,
    CursorContexts.encodeHostListCursor, List.append_assoc]
  rfl

variable [Zero ν] [DecidableEq ν]

/-- A cursor comes back with a query: both accept it, with the same payload, or refuse it with the
same error. -/
theorem decode_units (w : Writes lp cp keys) (c₁ c₂ : HostListCursor.HostListCursorContext)
    (ks : List (String × CursorValue)) (id : ℕ) :
    CursorContexts.decodeHostListCursor cp
        (some (units (HostListCursor.encodeHostListCursor lp c₁ ks id))) (context lp c₂) =
      (HostListCursor.decodeHostListCursor lp
        (some (HostListCursor.encodeHostListCursor lp c₁ ks id)) c₂).map
          (Option.map (payload lp keys)) := by
  have hid : units (lp.idText id) ≠ [] := fun h => w.idText_ne id (units_inj.mp (h.trans rfl))
  rw [encode_units w, CursorContexts.decode_encode, if_neg hid, normalizeContext_context w,
    normalizeContext_context w, HostListCursor.decodeHostListCursor_encode]
  by_cases hsame : HostListCursor.normalizeContext lp c₁ = HostListCursor.normalizeContext lp c₂
  · rw [if_pos hsame, if_pos ((normalized_inj w).mpr hsame)]
    rfl
  · rw [if_neg hsame, if_neg (mt (normalized_inj w).mp hsame)]
    rfl

end NexaStays.CursorTexts
