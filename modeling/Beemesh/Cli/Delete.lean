import Beemesh.Protocol.ManifestId
import Beemesh.Rest.Control

/-!
# The force flag of a deletion

`delete_file` puts the flag into the delete request that it sends, as a field of the table.
`delete_task` gets these bytes as the body of a request, and looks for the text `force=true` in
them. The text is where a string of the table has it, and a flag is no string.

## Main definitions

* `deleteFile`: the request of the command line
* `deleteTaskForcing`: what `delete_task` does once it has a value for the flag
* `MentionsForce`, `DeleteRequestText`: where the text occurs

## Main results

* `forceRequested_iff`: the server's search, on the text it reads
* `force_survives_iff`: when the flag of the client is the flag of the server
-/

namespace Beemesh

variable {H : Type} (P : MachinePlatform)

/-! ## The client -/

/-- The manifest that `delete_file` makes of a file: the parsed text, or else the text itself. -/
def deleteFileManifest (parsed : Except String Json) (contents : String) : Json :=
  match parsed with
  | .ok v => v
  | .error _ => .object [("raw", .string contents)]

/-- `delete_file`, up to the request that it sends: the manifest id, which becomes part of the URL,
and the body. -/
def deleteFile (finish : List Hashed → U64) (parsed : Except String Json) (contents : String)
    (keypair : Except String (Bytes × Bytes)) (uuid : String) (force : Bool) :
    Outcome AnyhowError (String × Bytes) := do
  let keys ← Outcome.ofResult (anyhow keypair)
  let manifestId ← deleteFileManifestId finish keys.1 (deleteFileManifest parsed contents)
  return (manifestId, P.buildDeleteRequest manifestId uuid "" force)

/-! ## The server -/

/-- `delete_task`, with a value for the flag. -/
def deleteTaskForcing (call : DeleteCall) (n : Node H) (taskId : String)
    (metadata : EnvelopeMetadata) (force : Bool) : Answered H :=
  let operationId := call.operationId taskId
  let originPeer := metadata.peerId.getD "unknown"
  let answer (n : Node H) (ok : Bool) (message : String) (removed : List String)
      (sent : List (String × Bytes)) : Answered H :=
    { node := n, sent := sent, response := .deleteResponse ok operationId message taskId removed }
  if call.providers = [] then answer n true "No providers found for task" [] []
  else
    -- The flag goes into the request for the other providers, and to the local deletion.
    let deleteRequest := P.buildDeleteRequest taskId operationId originPeer force
    match call.localPeer with
    | .refused e => answer n false s!"Failed to get local peer ID: {e}" [] []
    | .closed | .timedOut => answer n false "Timeout getting local peer ID" [] []
    | .handled =>
      let r := call.providers.foldl (DeleteRun.provider P taskId force deleteRequest) { node := n }
      let successful := r.successfulDeletes.length
      let total := successful + r.failedDeletes.length
      let failures := P.debugStrings r.failedDeletes
      let message :=
        if r.successfulDeletes ≠ [] then
          if r.failedDeletes = [] then s!"Delete requests sent to {successful} providers"
          else s!"Delete requests sent to {successful}/{total} providers. Failures: {failures}"
        else s!"Failed to send delete requests to any providers: {failures}"
      answer r.node (decide (r.successfulDeletes ≠ [])) message r.removedWorkloads r.sent

/-- The flag is what the search in the body says. -/
theorem deleteTask_eq_forcing (call : DeleteCall) (n : Node H) (taskId : String)
    (metadata : EnvelopeMetadata) (body : Bytes) :
    deleteTask P call n taskId metadata body =
      deleteTaskForcing P call n taskId metadata (forceRequested body) :=
  rfl

/-- The search for the text, in what is read of the body. -/
theorem forceRequested_eq (body : Bytes) :
    forceRequested body = Text.contains (Text.fromUtf8Lossy body) "force=true" := by
  have hbytes : ("force=true".toUTF8.data.toList).map UInt8.toNat =
      "force=true".toList.map Char.toNat := by decide
  have hascii : ∀ c ∈ "force=true".toList, c.toNat < 0x80 := by
    have hall : "force=true".toList.all (fun c => c.toNat < 0x80) = true := by decide
    exact fun c hc => of_decide_eq_true (List.all_eq_true.mp hall c hc)
  rw [Bool.eq_iff_iff, Text.contains_fromUtf8Lossy_iff (by decide) hascii, ← hbytes,
    forceRequested, decide_eq_true_eq]
  constructor
  · exact fun h => h.map UInt8.toNat
  · intro h
    obtain ⟨bytes, hbytes, heq⟩ := List.infix_map_iff.mp h
    exact (List.map_injective_iff.mpr fun _ _ => UInt8.toNat_inj.mp) heq ▸ hbytes

/-! ## The text in a delete request -/

def MentionsForce (s : String) : Prop := "force=true".toList <:+: s.toList

instance (s : String) : Decidable (MentionsForce s) := inferInstanceAs (Decidable (_ <:+: _))

/-- Where the text is in a delete request: FlatBuffers writes a string as its UTF-8 bytes, with zero
bytes around them, and nothing else of the table is text. -/
def MachinePlatform.DeleteRequestText (P : MachinePlatform)
    (manifestId operationId originPeer : String) (force : Bool) : Prop :=
  "force=true".toUTF8.data.toList <:+:
      P.buildDeleteRequest manifestId operationId originPeer force ↔
    MentionsForce manifestId ∨ MentionsForce operationId ∨ MentionsForce originPeer

/-- The text of a UUID: hexadecimal digits and hyphens. -/
def UuidText (s : String) : Prop := ∀ c ∈ s.toList, Text.isLowerHex c = true ∨ c = '-'

variable {P}

/-- What has no `o` in it does not mention the text. -/
theorem not_mentionsForce {s : String} (h : 'o' ∉ s.toList) : ¬ MentionsForce s := fun hforce =>
  h (hforce.subset (by decide))

theorem not_mentionsForce_of_digits {id : String} (h : SixteenDigits id) : ¬ MentionsForce id :=
  not_mentionsForce fun ho => absurd (h.2 'o' ho) (by decide)

theorem not_mentionsForce_of_uuid {s : String} (h : UuidText s) : ¬ MentionsForce s :=
  not_mentionsForce fun ho => absurd (h 'o' ho) (by decide)

/-- What `delete_file` sends: the id is sixteen digits, and the flag is in the table. -/
theorem deleteFile_eq_ok {finish : List Hashed → U64} {parsed : Except String Json}
    {contents : String} {keypair : Except String (Bytes × Bytes)} {uuid m : String} {force : Bool}
    {body : Bytes} (h : deleteFile P finish parsed contents keypair uuid force = .ok (m, body)) :
    SixteenDigits m ∧ body = P.buildDeleteRequest m uuid "" force := by
  simp only [deleteFile, Outcome.bind_eq_ok_iff, Outcome.pure_eq_ok, Outcome.ok.injEq,
    Prod.mk.injEq] at h
  obtain ⟨keys, -, id, hid, rfl, rfl⟩ := h
  refine ⟨?_, rfl⟩
  cases hname : extractManifestNameFromJson (deleteFileManifest parsed contents) with
  | none => simp [deleteFileManifestId, clientManifestId, hname] at hid
  | some name =>
    obtain ⟨id', hid', hdigits, -⟩ := clientLawful finish "deletion" keys.1 _ name hname
    obtain rfl : id = id' := Outcome.ok.inj (hid.symm.trans hid')
    exact hdigits

/-- **The search finds the strings**, and not the flag. -/
theorem forceRequested_iff {m op : String} {force : Bool}
    (htext : P.DeleteRequestText m op "" force) :
    forceRequested (P.buildDeleteRequest m op "" force) = true ↔
      MentionsForce m ∨ MentionsForce op := by
  have hempty : ¬ MentionsForce "" := by decide
  rw [forceRequested, decide_eq_true_eq]
  exact Iff.trans htext (or_congr_right (or_iff_left hempty))

/-- **When the flag survives.** The flag with which `delete_task` deletes, from the delete request
of a client, is the flag of the client exactly when the ids of the request mention `force=true` for
a deletion with force, and do not for one without. The ids of `delete_file` never mention it, so
that its flag survives exactly when it is not set. -/
theorem force_survives_iff (P : MachinePlatform) (m op : String) (force : Bool)
    (htext : P.DeleteRequestText m op "" force) (call : DeleteCall) (n : Node H)
    (metadata : EnvelopeMetadata) :
    let body := P.buildDeleteRequest m op "" force
    deleteTask P call n m metadata body =
        deleteTaskForcing P call n m metadata (forceRequested body) ∧
      (forceRequested body = force ↔ (force = true ↔ MentionsForce m ∨ MentionsForce op)) ∧
      ∀ finish parsed contents keypair,
        deleteFile P finish parsed contents keypair op force = .ok (m, body) → UuidText op →
          (forceRequested body = force ↔ force = false) := by
  intro body
  have hiff : forceRequested body = force ↔
      (force = true ↔ MentionsForce m ∨ MentionsForce op) := by
    rw [Bool.eq_iff_iff, forceRequested_iff htext]
    exact iff_comm
  refine ⟨deleteTask_eq_forcing P call n m metadata body, hiff, ?_⟩
  intro finish parsed contents keypair hfile huuid
  have hmentions : ¬ (MentionsForce m ∨ MentionsForce op) := not_or.mpr
    ⟨not_mentionsForce_of_digits (deleteFile_eq_ok hfile).1, not_mentionsForce_of_uuid huuid⟩
  rw [hiff, iff_false_right hmentions, Bool.not_eq_true]

/-! ## On the reference machine -/

/-- Digits, hashed from anything. -/
def someHash (_ : List Hashed) : U64 := 0x0123456789abcdef

def nginxManifest : Json := .object [("metadata", .object [("name", .string "nginx")])]

/-- The body of a deletion of that manifest. -/
def nginxDeletion (force : Bool) : Bytes :=
  (referenceMachine trusting).buildDeleteRequest "0123456789abcdef" "1-f" "" force

theorem deleteFile_nginx (force : Bool) :
    deleteFile (referenceMachine trusting) someHash (.ok nginxManifest) "" (.ok ([7], [7])) "1-f"
      force = .ok ("0123456789abcdef", nginxDeletion force) := by
  rfl

theorem nginxDeletion_text (force : Bool) :
    (referenceMachine trusting).DeleteRequestText "0123456789abcdef" "1-f" "" force := by
  cases force <;> (unfold MachinePlatform.DeleteRequestText; decide)

/-- A deletion without force keeps its flag. -/
theorem nginx_keeps_no_force :
    let P := referenceMachine trusting
    deleteFile P someHash (.ok nginxManifest) "" (.ok ([7], [7])) "1-f" false =
        .ok ("0123456789abcdef", nginxDeletion false) ∧
      forceRequested (nginxDeletion false) = false := by
  intro P
  have huuid : UuidText "1-f" := by
    have hall : "1-f".toList.all (fun c => Text.isLowerHex c = true ∨ c = '-') = true := by decide
    exact fun c hc => of_decide_eq_true (List.all_eq_true.mp hall c hc)
  have hfile := deleteFile_nginx false
  have h := (force_survives_iff P "0123456789abcdef" "1-f" false (nginxDeletion_text false)
    ⟨0, .handled, []⟩ referenceNode ⟨none, []⟩).2.2 someHash _ _ _ hfile huuid
  exact ⟨hfile, h.mpr rfl⟩

/-- A deletion with force goes on without it, at whatever node it is asked for. -/
theorem nginx_loses_force :
    let P := referenceMachine trusting
    deleteFile P someHash (.ok nginxManifest) "" (.ok ([7], [7])) "1-f" true =
        .ok ("0123456789abcdef", nginxDeletion true) ∧
      ∀ (call : DeleteCall) (n : Node Pods) (metadata : EnvelopeMetadata),
        deleteTask P call n "0123456789abcdef" metadata (nginxDeletion true) =
          deleteTaskForcing P call n "0123456789abcdef" metadata false := by
  refine ⟨deleteFile_nginx true, fun call n metadata => ?_⟩
  have hnone : ¬ (MentionsForce "0123456789abcdef" ∨ MentionsForce "1-f") := by decide
  have hforce : forceRequested (nginxDeletion true) = false := by
    rw [← Bool.not_eq_true]
    exact fun h => hnone ((forceRequested_iff (nginxDeletion_text true)).mp h)
  rw [deleteTask_eq_forcing, hforce]

end Beemesh
