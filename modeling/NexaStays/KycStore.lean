import NexaStays.Embedding
import NexaStays.PersonStore

/-!
# The tables of the reviews

The tables of a person, with the verifications that other services reuse and the cache of the
identity snapshots. An entry of the cache is gone when its time is over.
-/
namespace NexaStays.KycStore

open NexaStays.KeyedTable NexaStays.Transactions NexaStays.Embedding
open NexaStays.PersonStore (PersonError Personal)

/-- One row for an identity. The columns that stem from documents are left out. -/
structure ReusableIdentityVerification where
  unifiedIdentityId : ℕ
  kycProvider : Option String
  verificationReference : Option String
  kycStatus : String
  verificationStatus : String
  identityVerified : Bool
  verificationLevel : Option String
  documentType : Option String
  firstVerifiedAt : Option ℤ
  lastVerifiedAt : Option ℤ
  expiryDate : Option String
  reusableAcrossServices : Bool
  reuseBlockReason : Option String
  deriving DecidableEq, Repr

structure IdentitySnapshot where
  userId : ℕ
  unifiedIdentityId : Option ℕ
  kycStatus : String
  kycLevel : ℕ
  kycTier : String
  kycProvider : Option String
  updatedAt : Option ℤ
  deriving DecidableEq, Repr

structure Store where
  person : PersonStore.Store
  reusable : Table ReusableIdentityVerification.unifiedIdentityId
  snapshots : Table IdentitySnapshot.userId

inductive Key where
  | person (key : PersonStore.Key)
  | reusable (unifiedIdentityId : ℕ)
  | snapshot (userId : ℕ)
  deriving DecidableEq, Repr

inductive Write where
  | person (write : PersonStore.Write)
  | reusable (row : ReusableIdentityVerification)
  | snapshot (entry : IdentitySnapshot)
  | forget (userId : ℕ)
  deriving DecidableEq, Repr

def Write.key : Write → Key
  | .person w => .person w.key
  | .reusable r => .reusable r.unifiedIdentityId
  | .snapshot e => .snapshot e.userId
  | .forget userId => .snapshot userId

namespace Store

def write (s : Store) : Write → Store
  | .person w => { s with person := s.person.write w }
  | .reusable r => { s with reusable := s.reusable.put r }
  | .snapshot e => { s with snapshots := s.snapshots.put e }
  | .forget userId => { s with snapshots := s.snapshots.delete userId }

def present (s : Store) : Key → Bool
  | .person key => s.person.present key
  | .reusable unifiedIdentityId => (s.reusable.find? unifiedIdentityId).isSome
  | .snapshot userId => (s.snapshots.find? userId).isSome

/-- The store of the tables of a person, with nothing to reuse and nothing cached. -/
def of (person : PersonStore.Store) : Store :=
  { person
    reusable := .empty
    snapshots := .empty }

end Store

instance : Storage Store Key Write where
  write := Store.write
  keyOf := Write.key
  present := Store.present

@[simp] theorem storage_write (s : Store) (w : Write) : Storage.write s w = s.write w := rfl

@[simp] theorem storage_keyOf (w : Write) : Storage.keyOf Store w = w.key := rfl

@[simp] theorem storage_present (s : Store) (k : Key) : Storage.present s k = s.present k := rfl

/-- The programs of the reviews. -/
abbrev Review := Program Store Key Write PersonError

/-- The tables of a person, as a part of the store. -/
def personal : Part PersonStore.Store Store PersonStore.Key Key PersonStore.Write Write PersonError
    PersonError where
  get := Store.person
  write := .person
  key := .person
  error := id
  get_write _ _ := rfl
  keyOf_write _ := rfl
  present_key _ _ := rfl

namespace Review

abbrev read {α : Type} (f : Store → α) : Review α := Program.query .database f

abbrev update (ws : Store → List Write) : Review (List Write) := Program.writeRows .database ws

/-- What the process has in memory. -/
abbrev remembered {α : Type} (f : Store → α) : Review α := Program.send (fun _ => []) f

/-- What the process keeps in memory from now on. -/
abbrev memorise (ws : List Write) : Review Unit := Program.send (fun _ => ws) fun _ => ()

/-- A service that works on the tables of a person. -/
abbrev onPerson {α : Type} (p : Personal α) : Review α := within personal p

end Review

end NexaStays.KycStore
