import NexaStays.SqlText

/-!
# Stored secrets

The hashes of PINs and passwords. A secret is stored as a hash of the text as it was given;
`verifyPasswordSecret` compares the submitted text without the blanks around it.
-/
namespace NexaStays.Secrets

open NexaStays.SqlText

/-- The hash functions. A hash that they cannot read belongs to no text. -/
structure Hashes where
  /-- `argon2.hash` of a text; the number stands for its random salt. -/
  argon2Hash : ℕ → String → String
  /-- `argon2.verify` of a hash and a text. -/
  argon2Verify : String → String → Bool
  argon2NeedsRehash : String → Bool
  /-- `bcrypt.compare` of a text and a hash. -/
  bcryptCompare : String → String → Bool

structure VerifyResult where
  valid : Bool
  needsRehash : Bool
  deriving DecidableEq, Repr

def startsWith (text head : String) : Bool := head.toList.isPrefixOf text.toList

def isArgon2Hash (hash : String) : Bool :=
  startsWith hash "$argon2id$" || startsWith hash "$argon2i$"

def verifyPinHash (hashes : Hashes) (pin storedHash : String) : VerifyResult :=
  if storedHash = "" then ⟨false, false⟩
  else if isArgon2Hash storedHash then
    ⟨hashes.argon2Verify storedHash pin,
      hashes.argon2Verify storedHash pin && hashes.argon2NeedsRehash storedHash⟩
  else ⟨hashes.bcryptCompare pin storedHash, hashes.bcryptCompare pin storedHash⟩

def verifyPasswordSecret (hashes : Hashes) (submitted stored : String) (allowPlaintext : Bool) :
    Bool :=
  let plain := trim submitted
  let configured := trim stored
  if plain = "" ∨ configured = "" then false
  else if isArgon2Hash configured then (verifyPinHash hashes plain configured).valid
  else if allowPlaintext then plain = configured
  else false

theorem trim_append_space (text : String) : trim (text ++ " ") = trim text := by
  have hspace : isSpace ' ' = true := by decide
  have hdrop : ∀ l : List Char, ((l ++ [' ']).dropWhile isSpace).reverse.dropWhile isSpace =
      (l.dropWhile isSpace).reverse.dropWhile isSpace := by
    intro l
    induction l with
    | nil => simp [hspace]
    | cons c l ih =>
      by_cases hc : isSpace c = true
      · simpa [hc] using ih
      · simp [hc, hspace]
  rw [trim, trim, String.toList_append]
  exact congrArg (fun l => String.ofList l.reverse) (hdrop text.toList)

/-- A blank behind the submitted text makes no difference. -/
theorem verifyPasswordSecret_space (hashes : Hashes) (submitted stored : String)
    (allowPlaintext : Bool) :
    verifyPasswordSecret hashes (submitted ++ " ") stored allowPlaintext =
      verifyPasswordSecret hashes submitted stored allowPlaintext := by
  rw [verifyPasswordSecret, verifyPasswordSecret, trim_append_space]

end NexaStays.Secrets
