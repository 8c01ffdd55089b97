import NexaStays.SampleCodec
import Mathlib.Tactic.Common

/-!
# Encrypted columns

`pii-encryption`: the transformer of the columns with personal data. A stored text that
was encrypted is told from a legacy text by its prefix, on both sides.
-/
namespace NexaStays.PiiEncryption

open NexaStays.SampleCodec

/-- What the decryption throws: a part of the text is missing, or the tag is wrong. -/
inductive DecryptError where
  | missingPart
  | notAuthentic
  deriving DecidableEq, Repr

/-- The three parts of an encrypted text, in base64url. -/
structure Sealed where
  iv : String
  tag : String
  ciphertext : String
  deriving DecidableEq, Repr

def Sealed.parts (s : Sealed) : List (List Char) :=
  [s.iv.toList, s.tag.toList, s.ciphertext.toList]

/-- AES-256-GCM with the key of the process. The initialisation vectors are numbers. -/
structure Gcm where
  encrypt : ℕ → String → Sealed
  decrypt : Sealed → Option String
  decrypt_encrypt : ∀ iv v, decrypt (encrypt iv v) = some v
  base64url : ∀ iv v, ∀ part ∈ (encrypt iv v).parts, ':' ∉ part

/-- `PREFIX` with the colon that follows it. -/
def marker : List Char := "enc:v1:".toList

variable (gcm : Gcm)

def encryptPii (iv : ℕ) (value : String) : String :=
  if value = "" ∨ marker <+: value.toList then value
  else
    let parts := (gcm.encrypt iv value).parts
    String.ofList ([':'].intercalate ("enc".toList :: "v1".toList :: parts))

def decryptPii (value : String) : Except DecryptError String :=
  if value = "" ∨ ¬marker <+: value.toList then .ok value
  else
    match value.toList.splitOn ':' with
    | _ :: _ :: ivText :: tagText :: cipherText :: _ =>
      match gcm.decrypt ⟨String.ofList ivText, String.ofList tagText, String.ofList cipherText⟩ with
      | some plain => .ok plain
      | none => .error .notAuthentic
    | _ => .error .missingPart

/-- `piiTransformer.to`: what a save stores. -/
def transformerTo (iv : ℕ) (value : Option String) : Option String :=
  value.map (encryptPii gcm iv)

/-- `piiTransformer.from`: what a load reads. -/
def transformerFrom : Option String → Except DecryptError (Option String)
  | none => .ok none
  | some stored => (decryptPii gcm stored).map some

/-- Loads and saves of the column in turn, each save with an initialisation vector of its
own. -/
def cycles (stored : Option String) : List ℕ → Except DecryptError (Option String)
  | [] => .ok stored
  | iv :: ivs => do
    let value ← transformerFrom gcm stored
    cycles (transformerTo gcm iv value) ivs

variable {gcm} {iv : ℕ} {v : String}

theorem splitOn_encrypted (iv : ℕ) (v : String) :
    ([':'].intercalate ("enc".toList :: "v1".toList :: (gcm.encrypt iv v).parts)).splitOn ':' =
      "enc".toList :: "v1".toList :: (gcm.encrypt iv v).parts := by
  apply List.splitOn_intercalate
  · intro part hpart
    simp only [List.mem_cons] at hpart
    obtain rfl | rfl | hpart := hpart
    · decide
    · decide
    · exact gcm.base64url iv v part (by simpa [Sealed.parts] using hpart)
  · simp

theorem marker_prefix_encrypted (iv : ℕ) (v : String) :
    marker <+: [':'].intercalate ("enc".toList :: "v1".toList :: (gcm.encrypt iv v).parts) := by
  refine ⟨[':'].intercalate (gcm.encrypt iv v).parts, ?_⟩
  delta marker
  simp [Sealed.parts, List.intercalate]

theorem encryptPii_of_plain (hne : v ≠ "") (hplain : ¬marker <+: v.toList) :
    encryptPii gcm iv v =
      String.ofList ([':'].intercalate
        ("enc".toList :: "v1".toList :: (gcm.encrypt iv v).parts)) := by
  have hguard : ¬(v = "" ∨ marker <+: v.toList) := by
    rintro (h | h)
    · exact hne h
    · exact hplain h
  rw [encryptPii, if_neg hguard]

theorem marker_prefix_encryptPii (gcm : Gcm) (iv : ℕ) (hne : v ≠ "") (hplain : ¬marker <+: v.toList) :
    marker <+: (encryptPii gcm iv v).toList := by
  rw [encryptPii_of_plain hne hplain, String.toList_ofList]
  exact marker_prefix_encrypted iv v

theorem decryptPii_encryptPii (hplain : ¬marker <+: v.toList) :
    decryptPii gcm (encryptPii gcm iv v) = .ok v := by
  by_cases hne : v = ""
  · subst hne
    simp [encryptPii, decryptPii]
  · have hmarker := marker_prefix_encryptPii gcm iv hne hplain
    have hstored : encryptPii gcm iv v ≠ "" := by
      intro h
      rw [h] at hmarker
      exact absurd (List.IsPrefix.length_le hmarker) (by decide)
    have hguard : ¬(encryptPii gcm iv v = "" ∨ ¬marker <+: (encryptPii gcm iv v).toList) := by
      rintro (h | h)
      · exact hstored h
      · exact h hmarker
    rw [decryptPii, if_neg hguard, encryptPii_of_plain hne hplain, String.toList_ofList,
      splitOn_encrypted]
    simp [Sealed.parts, gcm.decrypt_encrypt]

/-- What is written is read, and a text that is not empty is stored as another text. -/
theorem reads_transformerTo (hplain : ¬marker <+: v.toList) :
    transformerFrom gcm (transformerTo gcm iv (some v)) = .ok (some v) := by
  simp only [transformerTo, Option.map_some, transformerFrom, decryptPii_encryptPii hplain]
  rfl

theorem transformerTo_ne (hne : v ≠ "") (hplain : ¬marker <+: v.toList) :
    transformerTo gcm iv (some v) ≠ some v := by
  intro h
  have hmarker := marker_prefix_encryptPii gcm iv hne hplain
  have hsame : encryptPii gcm iv v = v := by simpa [transformerTo] using h
  rw [hsame] at hmarker
  exact hplain hmarker

/-- The column holds the encrypted text after any number of cycles. -/
theorem cycles_transformerTo (gcm : Gcm) (hplain : ¬marker <+: v.toList) (iv : ℕ)
    (ivs : List ℕ) :
    ∃ last, cycles gcm (transformerTo gcm iv (some v)) ivs =
      .ok (transformerTo gcm last (some v)) := by
  induction ivs generalizing iv with
  | nil => exact ⟨iv, rfl⟩
  | cons next ivs ih =>
    obtain ⟨last, hlast⟩ := ih next
    refine ⟨last, ?_⟩
    rw [cycles, reads_transformerTo hplain]
    exact hlast

/-- After every number of cycles the column reads the text that was written, and holds
another text if that is not empty. -/
def ReadsBack (gcm : Gcm) (v : String) : Prop :=
  ∀ iv ivs, ∃ stored, cycles gcm (transformerTo gcm iv (some v)) ivs = .ok stored ∧
    transformerFrom gcm stored = .ok (some v) ∧ (v ≠ "" → stored ≠ some v)

theorem readsBack_iff (gcm : Gcm) (v : String) : ReadsBack gcm v ↔ ¬marker <+: v.toList := by
  constructor
  · intro hreads hmarker
    -- the guard against a second encryption leaves the text as it is
    have hsame : encryptPii gcm 0 v = v := by rw [encryptPii, if_pos (Or.inr hmarker)]
    obtain ⟨stored, hcycles, -, hother⟩ := hreads 0 []
    have hstored : stored = some v := by
      have := Except.ok.inj hcycles
      rw [← this, transformerTo, Option.map_some, hsame]
    have hne : v ≠ "" := by
      rintro rfl
      exact absurd (List.IsPrefix.length_le hmarker) (by decide)
    exact hother hne hstored
  · intro hplain iv ivs
    obtain ⟨last, hlast⟩ := cycles_transformerTo gcm hplain iv ivs
    exact ⟨_, hlast, reads_transformerTo hplain, fun hne => transformerTo_ne hne hplain⟩

/-- A cipher whose ciphertexts are the texts of a codec, for a sample text. -/
def sampleGcm : Gcm where
  encrypt _ v := ⟨"aXY", "dGFn", writeSample "c2Vjcme0" "secret" v⟩
  decrypt s :=
    if s.iv = "aXY" ∧ s.tag = "dGFn" then readSample "c2Vjcme0" "secret" s.ciphertext else none
  decrypt_encrypt _ v := by
    rw [if_pos ⟨rfl, rfl⟩]
    exact read_writeSample (c := 'e') (by decide) (by decide) v
  base64url _ v part hpart hcolon := by
    simp only [Sealed.parts, List.mem_cons, List.not_mem_nil, or_false] at hpart
    obtain rfl | rfl | rfl := hpart
    · exact absurd hcolon (by decide)
    · exact absurd hcolon (by decide)
    · rcases mem_writeSample hcolon with htext | hA
      · exact absurd htext (by decide)
      · exact absurd hA (by decide)

/-- A name that begins like an encrypted text is stored as it is, and cannot be read. -/
theorem marked_text_unreadable :
    ¬ReadsBack sampleGcm "enc:v1:atlas" ∧
      transformerTo sampleGcm 0 (some "enc:v1:atlas") = some "enc:v1:atlas" ∧
      transformerFrom sampleGcm (some "enc:v1:atlas") = .error .missingPart := by
  have hmarker : marker <+: "enc:v1:atlas".toList := by decide
  have hsplit : "enc:v1:atlas".toList.splitOn ':' =
      ["enc".toList, "v1".toList, "atlas".toList] := by decide
  refine ⟨fun h => (readsBack_iff _ _).mp h hmarker, ?_, ?_⟩
  · rw [transformerTo, Option.map_some, encryptPii, if_pos (Or.inr hmarker)]
  · have hguard : ¬("enc:v1:atlas" = "" ∨ ¬marker <+: "enc:v1:atlas".toList) := by decide
    rw [transformerFrom, decryptPii, if_neg hguard, hsplit]
    rfl

end NexaStays.PiiEncryption
