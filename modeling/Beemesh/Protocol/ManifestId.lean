import Beemesh.Basic
import Beemesh.Lib.Document
import Beemesh.Lib.Outcome
import Beemesh.Lib.Table
import Beemesh.Lib.Text

/-!
# Manifest ids

A manifest id is the hash of a name, or of the manifest, in sixteen hexadecimal digits. The id is
computed in five places: the two functions of the protocol, `create_task`, and the `apply_file` and
`delete_file` of the client. The client pads the digits before it cuts them to sixteen; the others
cut what there is. The hasher of the standard library is any function into 64-bit words.

## Main definitions

* `Hashed`: what is written into a hasher
* `extractManifestName`, `computeManifestId`, `computeManifestIdFromContent`, `createTaskIds`
* `applyFileManifestId`, `deleteFileManifestId`: the ids of the client
* `IdCall`: the computations of the machine

## Main results

* `manifestId_law_iff`: when an id of the machine is sixteen digits, and that the client's are
-/

namespace Beemesh

open Outcome Text

/-- What is written into a `DefaultHasher`. -/
inductive Hashed
  | str (s : String)
  | u64 (v : U64)
  | bytes (bs : Bytes)
  deriving DecidableEq

/-! ## The computations -/

/-- The loop of `extract_manifest_name` over the lines. -/
def nameInLines : List String → Option String
  | [] => none
  | line :: lines =>
    if startsWith (trim line) "name:" then (secondPiece (trim line) ":").map trim
    else nameInLines lines

/-- `extract_manifest_name`. -/
def extractManifestName (manifestData : Bytes) : Option String :=
  match String.fromUTF8? ⟨⟨manifestData⟩⟩ with
  | some text => nameInLines (lines text)
  | none => none

/-- `format!("{:x}", hash)[..16]`. -/
def cutId {ε : Type} (hash : U64) : Outcome ε String :=
  strTo (String.ofList (lowerHex hash.toNat)) 16

/-- `format!("{:016x}", hash)[..16]`. -/
def paddedId {ε : Type} (hash : U64) : Outcome ε String :=
  strTo (String.ofList (lowerHexPadded 16 hash.toNat)) 16

variable (finish : List Hashed → U64)

/-- `compute_manifest_id`. There are no errors for it to return. -/
def computeManifestId (name : String) (version : U64) : Outcome Empty String :=
  cutId (finish [.str name, .u64 version])

/-- `compute_manifest_id_from_content`. -/
def computeManifestIdFromContent (manifestData : Bytes) : Outcome Empty String :=
  cutId (finish [.bytes manifestData])

/-- What `create_task` hashes of its body: the name, and else all of it. -/
def taskHashed (body : Bytes) : List Hashed :=
  match extractManifestName body with
  | some name => [.str name]
  | none => [.bytes body]

/-- The manifest id and the operation id of `create_task`. The fresh id it may draw is an
argument. -/
def createTaskIds (uuid : String) (params : Table String String) (body : Bytes) :
    Outcome Empty (String × String) :=
  match params.lookup "manifest_id" with
  | some id => ok (id, (params.lookup "operation_id").getD uuid)
  | none =>
    match params.lookup "operation_id" with
    | some operationId => do
      let manifestId ← cutId (finish (taskHashed body))
      return (manifestId, operationId)
    | none => do
      let operationId := uuid
      let manifestId ← cutId (finish (taskHashed body))
      return (manifestId, operationId)

/-- `extract_manifest_name_from_json`. -/
def extractManifestNameFromJson (manifest : Json) : Option String :=
  ((manifest.get "metadata").bind (·.get "name")).bind Json.asStr

/-- The id of the client, for a purpose that its error names. -/
def clientManifestId (purpose : String) (pkBytes : Bytes) (manifest : Json) :
    Outcome AnyhowError String :=
  match extractManifestNameFromJson manifest with
  | some name => paddedId (finish [.bytes pkBytes, .str name])
  | none => err ["Manifest must have a name field in metadata for " ++ purpose]

/-- The manifest id of `apply_file`. -/
def applyFileManifestId : Bytes → Json → Outcome AnyhowError String :=
  clientManifestId finish "deployment"

/-- The manifest id of `delete_file`. -/
def deleteFileManifestId : Bytes → Json → Outcome AnyhowError String :=
  clientManifestId finish "deletion"

/-! ## Digits -/

variable {ε : Type}

/-- Sixteen hexadecimal digits. -/
def SixteenDigits (id : String) : Prop :=
  id.toList.length = 16 ∧ ∀ c ∈ id.toList, isLowerHex c = true

instance (id : String) : Decidable (SixteenDigits id) := inferInstanceAs (Decidable (_ ∧ _))

theorem utf8Size_of_isLowerHex {c : Char} (h : isLowerHex c = true) : c.utf8Size = 1 := by
  have hval : c.val ≤ 0x7F := by
    simp only [isLowerHex, Bool.or_eq_true, Bool.and_eq_true, decide_eq_true_eq, Char.le_def] at h
    rcases h with h | h
    · exact UInt32.le_trans h.2 (by decide)
    · exact UInt32.le_trans h.2 (by decide)
  simp [Char.utf8Size, hval]

/-- Digits, cut at sixteen. -/
theorem strTo_sixteen {digits : List Char} (h : ∀ c ∈ digits, isLowerHex c = true) :
    (strTo (String.ofList digits) 16 : Outcome ε String) =
      if 16 ≤ digits.length then ok (String.ofList (digits.take 16)) else panic := by
  have hascii : ∀ c ∈ (String.ofList digits).toList, c.utf8Size = 1 := by
    rw [String.toList_ofList]
    exact fun c hc => utf8Size_of_isLowerHex (h c hc)
  rw [strTo_of_ascii hascii, String.toList_ofList]

/-- A hash has at most sixteen digits, and all of them when its first is not zero. -/
theorem length_lowerHex_hash (hash : U64) :
    (lowerHex hash.toNat).length ≤ 16 ∧
      (16 ≤ (lowerHex hash.toNat).length ↔ 2 ^ 60 ≤ hash.toNat) := by
  have hshort : (lowerHex hash.toNat).length ≤ 15 ↔ hash.toNat < 16 ^ 15 :=
    length_lowerHex_le_iff (by decide)
  refine ⟨(length_lowerHex_le_iff (by decide)).mpr hash.isLt, ?_⟩
  omega

/-- An id is cut from a hash that fills its sixteen digits, and is all of them. -/
theorem cutId_eq (hash : U64) :
    (cutId hash : Outcome ε String) =
      if 2 ^ 60 ≤ hash.toNat then ok (String.ofList (lowerHex hash.toNat)) else panic := by
  obtain ⟨hle, hfull⟩ := length_lowerHex_hash hash
  rw [cutId, strTo_sixteen (isLowerHex_of_mem_lowerHex _), List.take_of_length_le hle]
  simp only [hfull]

/-- A padded id always is sixteen digits. -/
theorem paddedId_eq (hash : U64) :
    (paddedId hash : Outcome ε String) = ok (String.ofList (lowerHexPadded 16 hash.toNat)) := by
  have hlength : (lowerHexPadded 16 hash.toNat).length = 16 :=
    length_lowerHexPadded (by decide) hash.isLt
  rw [paddedId, strTo_sixteen (isLowerHex_of_mem_lowerHexPadded _ _), if_pos hlength.ge,
    List.take_of_length_le hlength.le]

/-- Cut ids are equal only for equal hashes. -/
theorem cutId_injective {hash hash' : U64} {id : String}
    (h : (cutId hash : Outcome ε String) = ok id) (h' : (cutId hash' : Outcome ε String) = ok id) :
    hash = hash' := by
  rw [cutId_eq] at h h'
  split_ifs at h h'
  have hdigits := String.ofList_injective ((ok.inj h).trans (ok.inj h').symm)
  exact BitVec.eq_of_toNat_eq (by rw [← ofHex_lowerHex hash.toNat, hdigits, ofHex_lowerHex])

/-- Padded ids are equal only for equal hashes. -/
theorem paddedId_injective {hash hash' : U64} {id : String}
    (h : (paddedId hash : Outcome ε String) = ok id)
    (h' : (paddedId hash' : Outcome ε String) = ok id) : hash = hash' := by
  rw [paddedId_eq] at h h'
  have hdigits := String.ofList_injective ((ok.inj h).trans (ok.inj h').symm)
  exact BitVec.eq_of_toNat_eq
    (by rw [← ofHex_lowerHexPadded 16 hash.toNat, hdigits, ofHex_lowerHexPadded])

/-! ## The law -/

/-- A computation of an id on the machine. -/
inductive IdCall
  | fromName (name : String) (version : U64)
  | fromContent (manifestData : Bytes)
  | createTask (uuid : String)
      (params : {params : Table String String // params.lookup "manifest_id" = none})
      (body : Bytes)

namespace IdCall

def id : IdCall → Outcome Empty String
  | fromName name version => computeManifestId finish name version
  | fromContent manifestData => computeManifestIdFromContent finish manifestData
  | createTask uuid params body => do
    let (manifestId, _) ← createTaskIds finish uuid params body
    return manifestId

/-- What the computation hashes. -/
def hashed : IdCall → List Hashed
  | fromName name version => [.str name, .u64 version]
  | fromContent manifestData => [.bytes manifestData]
  | createTask _ _ body => taskHashed body

/-- Every computation of the machine cuts its hash. -/
theorem id_eq (call : IdCall) : call.id finish = cutId (finish call.hashed) := by
  cases call with
  | fromName name version => rfl
  | fromContent manifestData => rfl
  | createTask uuid params body =>
    simp only [id, hashed, createTaskIds, params.2]
    cases params.1.lookup "operation_id" with
    | none => cases (cutId (finish (taskHashed body)) : Outcome Empty String) <;> rfl
    | some operationId => cases (cutId (finish (taskHashed body)) : Outcome Empty String) <;> rfl

/-- The id is sixteen digits, and no other computation has it unless the hashes are equal. -/
def Lawful (call : IdCall) : Prop :=
  (∃ id, call.id finish = ok id ∧ SixteenDigits id) ∧
    ∀ (call' : IdCall) (id : String), call.id finish = ok id → call'.id finish = ok id →
      finish call.hashed = finish call'.hashed

theorem lawful_iff (call : IdCall) :
    call.Lawful finish ↔ 2 ^ 60 ≤ (finish call.hashed).toNat := by
  obtain ⟨hle, hfull⟩ := length_lowerHex_hash (finish call.hashed)
  rw [Lawful, call.id_eq, cutId_eq]
  constructor
  · rintro ⟨⟨id, hid, -⟩, -⟩
    by_contra hshort
    rw [if_neg hshort] at hid
    cases hid
  · intro h
    rw [if_pos h]
    refine ⟨⟨_, rfl, ?_, ?_⟩, ?_⟩
    · rw [String.toList_ofList]
      exact le_antisymm hle (hfull.mpr h)
    · rw [String.toList_ofList]
      exact isLowerHex_of_mem_lowerHex _
    · intro call' id hid hid'
      rw [call'.id_eq] at hid'
      exact cutId_injective (by rw [cutId_eq, if_pos h, hid]) hid'

end IdCall

/-- The law for the client: `clientId` gives sixteen digits for every manifest with a name, and no
other name or key has them unless the hashes are equal. -/
def ClientLawful (clientId : Bytes → Json → Outcome AnyhowError String) : Prop :=
  ∀ pkBytes manifest name, extractManifestNameFromJson manifest = some name →
    ∃ id, clientId pkBytes manifest = ok id ∧ SixteenDigits id ∧
      ∀ pkBytes' manifest' name', extractManifestNameFromJson manifest' = some name' →
        clientId pkBytes' manifest' = ok id →
          finish [.bytes pkBytes, .str name] = finish [.bytes pkBytes', .str name']

theorem clientLawful (purpose : String) :
    ClientLawful finish (clientManifestId finish purpose) := by
  intro pkBytes manifest name hname
  have hid : clientManifestId finish purpose pkBytes manifest =
      paddedId (finish [.bytes pkBytes, .str name]) := by
    simp only [clientManifestId, hname]
  rw [hid]
  refine ⟨_, paddedId_eq _, ⟨?_, ?_⟩, ?_⟩
  · rw [String.toList_ofList]
    exact length_lowerHexPadded (by decide) (finish _).isLt
  · rw [String.toList_ofList]
    exact isLowerHex_of_mem_lowerHexPadded _ _
  · intro pkBytes' manifest' name' hname' hid'
    simp only [clientManifestId, hname'] at hid'
    exact paddedId_injective (paddedId_eq _) hid'

/-- **The law of manifest ids**: the ids of the machine meet it exactly for hashes whose first
hexadecimal digit is not zero, and those of the client always. -/
theorem manifestId_law_iff (finish : List Hashed → U64) :
    (∀ call : IdCall, call.Lawful finish ↔ 2 ^ 60 ≤ (finish call.hashed).toNat) ∧
      ClientLawful finish (applyFileManifestId finish) ∧
      ClientLawful finish (deleteFileManifestId finish) :=
  ⟨IdCall.lawful_iff finish, clientLawful finish "deployment", clientLawful finish "deletion"⟩

/-- The task of a manifest named `nginx`, and the hash that the standard library has for it. -/
theorem createTask_nginx_panics :
    let finish (hashed : List Hashed) : U64 :=
      if hashed = [.str "nginx"] then 0x027f279e3cf0d2de else 0
    let call := IdCall.createTask "uuid" ⟨∅, rfl⟩ "name: nginx".toUTF8.data.toList
    call.id finish = panic ∧ ¬ call.Lawful finish := by
  intro finish call
  have hhashed : call.hashed = [.str "nginx"] := by decide
  have hsmall : ¬ 2 ^ 60 ≤ (finish call.hashed).toNat := by
    rw [hhashed]
    decide
  refine ⟨?_, fun h => hsmall ((call.lawful_iff finish).mp h)⟩
  rw [call.id_eq, cutId_eq, if_neg hsmall]

end Beemesh
