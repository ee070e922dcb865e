import Beemesh.Engine.Command

/-!
# The replicas of a manifest

A client reads the number of replicas out of a manifest, and selects as many nodes; each node sets
the number to one before it deploys the manifest. Both look under `spec` first and then at the top,
but not in the same way: the client goes on to the top where it finds no number under `spec`, and
the node where there is no `spec`.

## Main definitions

* `modifyReplicas`, `modifyManifestReplicas`: what a node makes of a manifest
* `manifestReplicas`: the number that a client reads
* `RewritesReplicas`: the number is one, and nothing else has changed
* `OverlooksReplicas`: the number is at the top, beside a `spec` that is no mapping

## Main results

* `manifestReplicas_modifyReplicas_iff`: when the number is one
* `rewritesReplicas_iff`: when a node rewrites a manifest as it should
* `replicas_overlooked`: a manifest that keeps its number
-/

namespace Beemesh

/-! ## Reading and writing -/

/-- The change that `modify_manifest_replicas` makes to a document. -/
def modifyReplicas (doc : Yaml) : Yaml :=
  match doc.get "spec" with
  | some _ => doc.getMut "spec" (Yaml.insert "replicas" (.number "1"))
  | none =>
    if (doc.get "replicas").isSome then Yaml.insert "replicas" (.number "1") doc else doc

/-- `modify_manifest_replicas`. -/
def modifyManifestReplicas (serde : Serde) (content : Bytes) : Except String Bytes :=
  match serde.fromYaml (Text.fromUtf8Lossy content) with
  | .ok doc =>
    match serde.toYaml (modifyReplicas doc) with
    | .ok text => .ok text.toUTF8.data.toList
    | .error err => .error err
  | .error _ => .ok content

/-- The number of replicas that `apply_file` reads. It reads the document as JSON; the text of one
that does not read so is taken as it is, and has no number. -/
def manifestReplicas (doc : Yaml) : ℕ :=
  if doc.readsAsJson then
    (((doc.get "spec").bind (Yaml.get "replicas")).bind Yaml.asU64 <|>
      (doc.get "replicas").bind Yaml.asU64).getD 1
  else 1

/-- A document without its numbers of replicas, under `spec` and at the top. -/
def withoutReplicas (doc : Yaml) : Yaml :=
  (doc.getMut "spec" (Yaml.erase "replicas")).erase "replicas"

/-- A document is printed, and read again. -/
def Serde.PrintsBack (serde : Serde) (doc : Yaml) : Prop :=
  ∃ text, serde.toYaml doc = .ok text ∧ serde.fromYaml text = .ok doc

/-- The document that was written has one replica, and differs in its numbers of replicas only;
writing it again changes nothing. -/
structure RewritesReplicas (serde : Serde) (doc : Yaml) (written : Bytes) (doc' : Yaml) : Prop where
  one : manifestReplicas doc' = 1
  rest : withoutReplicas doc' = withoutReplicas doc
  again : modifyManifestReplicas serde written = .ok written

/-- In a document that the client reads there is a number at the top, beside a `spec` that is no
mapping. -/
def OverlooksReplicas (doc : Yaml) : Prop :=
  doc.readsAsJson = true ∧ (∃ spec, doc.get "spec" = some spec ∧ spec.asMapping = none) ∧
    ∃ n, (doc.get "replicas").bind Yaml.asU64 = some n ∧ n ≠ 1

/-! ## The change of a document -/

variable {doc spec : Yaml}

theorem asU64_one : Yaml.asU64 (.number "1") = some 1 := by decide

theorem modifyReplicas_of_spec (h : doc.get "spec" = some spec) :
    modifyReplicas doc = doc.getMut "spec" (Yaml.insert "replicas" (.number "1")) := by
  rw [modifyReplicas, h]

/-- A `spec` that is no mapping is left as it is, and so is the document. -/
theorem modifyReplicas_of_not_mapping (h : doc.get "spec" = some spec)
    (hspec : spec.asMapping = none) : modifyReplicas doc = doc := by
  rw [modifyReplicas_of_spec h]
  refine Yaml.getMut_eq_self fun sub hsub => ?_
  rw [h, Option.some.injEq] at hsub
  rw [← hsub]
  refine Yaml.insert_eq_self fun hsome => ?_
  rw [hspec] at hsome
  exact absurd hsome (by decide)

theorem get_spec_modifyReplicas (h : doc.get "spec" = some spec) :
    (modifyReplicas doc).get "spec" = some (Yaml.insert "replicas" (.number "1") spec) := by
  rw [modifyReplicas_of_spec h, Yaml.get_getMut, h, Option.map_some]

theorem get_spec_modifyReplicas_of_none (h : doc.get "spec" = none) :
    (modifyReplicas doc).get "spec" = none := by
  rw [modifyReplicas, h]
  dsimp only
  split_ifs
  · rw [Yaml.get_insert_ne (by decide), h]
  · exact h

/-- A document with an entry is a mapping. -/
theorem exists_asMapping_of_get {key : String} {v : Yaml} (h : doc.get key = some v) :
    ∃ entries, doc.asMapping = some entries := by
  rw [Yaml.get] at h
  obtain ⟨entries, hentries, -⟩ := Option.bind_eq_some_iff.mp h
  exact ⟨entries, hentries⟩

/-- **When the number is one**, as the client reads it: unless it is overlooked. -/
theorem manifestReplicas_modifyReplicas_iff (doc : Yaml) :
    manifestReplicas (modifyReplicas doc) = 1 ↔ ¬ OverlooksReplicas doc := by
  rcases hspec : doc.get "spec" with _ | spec
  · -- Without a `spec` the number is read where it is written.
    refine iff_of_true ?_ ?_
    · rw [manifestReplicas, get_spec_modifyReplicas_of_none hspec]
      split_ifs
      · rw [Option.bind_none, Option.bind_none, modifyReplicas, hspec]
        dsimp only
        rcases htop : doc.get "replicas" with _ | n
        · rw [if_neg (by simp), htop]
          rfl
        · obtain ⟨entries, hentries⟩ := exists_asMapping_of_get htop
          rw [if_pos (by simp), Yaml.get_insert _ _ hentries, Option.bind_some, asU64_one]
          rfl
      · rfl
    · rintro ⟨-, ⟨spec, hsome, -⟩, -⟩
      rw [hspec] at hsome
      cases hsome
  · rcases hmapping : spec.asMapping with _ | entries
    · -- The document is as it was.
      have hunder : spec.get "replicas" = none := by rw [Yaml.get, hmapping, Option.bind_none]
      rw [modifyReplicas_of_not_mapping hspec hmapping, manifestReplicas, hspec, Option.bind_some,
        hunder, Option.bind_none, OverlooksReplicas, hspec]
      split_ifs with hreads
      · rcases htop : (doc.get "replicas").bind Yaml.asU64 with _ | n
        · exact iff_of_true rfl fun h => by simp at h
        · simp [hmapping, hreads]
      · exact iff_of_true rfl fun h => hreads h.1
    · refine iff_of_true ?_ ?_
      · rw [manifestReplicas, get_spec_modifyReplicas hspec, Option.bind_some,
          Yaml.get_insert _ _ hmapping, Option.bind_some, asU64_one]
        split_ifs
        · rfl
        · rfl
      · rintro ⟨-, ⟨spec', hsome, hnone⟩, -⟩
        rw [hspec, Option.some.injEq] at hsome
        rw [← hsome, hmapping] at hnone
        cases hnone

/-- **Nothing else changes.** -/
theorem withoutReplicas_modifyReplicas (doc : Yaml) :
    withoutReplicas (modifyReplicas doc) = withoutReplicas doc := by
  rw [modifyReplicas]
  split
  · -- What is put under `spec` is erased there.
    have herase : Yaml.erase "replicas" ∘ Yaml.insert "replicas" (.number "1") =
        Yaml.erase "replicas" := funext fun v => Yaml.erase_insert _ _ v
    rw [withoutReplicas, Yaml.getMut_getMut, herase, withoutReplicas]
  · split_ifs
    · rw [withoutReplicas, Yaml.getMut_insert (by decide), Yaml.erase_insert, withoutReplicas]
    · rfl

/-- **Changing a document again** changes nothing. -/
theorem modifyReplicas_modifyReplicas (doc : Yaml) :
    modifyReplicas (modifyReplicas doc) = modifyReplicas doc := by
  rcases hspec : doc.get "spec" with _ | spec
  · have hnone := get_spec_modifyReplicas_of_none hspec
    rw [modifyReplicas, hnone]
    dsimp only
    split_ifs with hsome
    · refine Yaml.insert_eq_self fun _ => ?_
      rw [modifyReplicas, hspec] at hsome ⊢
      dsimp only at hsome ⊢
      split_ifs at hsome ⊢ with htop
      · obtain ⟨v, hv⟩ := Option.isSome_iff_exists.mp htop
        obtain ⟨entries, hentries⟩ := exists_asMapping_of_get hv
        exact Yaml.get_insert _ _ hentries
      · exact absurd hsome htop
    · rfl
  · have hsome := get_spec_modifyReplicas hspec
    rw [modifyReplicas_of_spec hsome]
    -- The number under `spec` is there already, if `spec` can hold one.
    refine Yaml.getMut_eq_self fun sub hsub => Yaml.insert_eq_self fun hmapping => ?_
    rw [hsome, Option.some.injEq] at hsub
    rw [← hsub, Yaml.asMapping_insert, Option.isSome_map] at hmapping
    obtain ⟨entries, hentries⟩ := Option.isSome_iff_exists.mp hmapping
    rw [← hsub, Yaml.get_insert _ _ hentries]

/-! ## The text -/

/-- **When a node rewrites a manifest as it should**: unless the number is overlooked. -/
theorem rewritesReplicas_iff (serde : Serde) {content : Bytes} {doc : Yaml}
    (hread : serde.fromYaml (Text.fromUtf8Lossy content) = .ok doc)
    (hprint : serde.PrintsBack (modifyReplicas doc)) :
    ∃ written doc', modifyManifestReplicas serde content = .ok written ∧
      serde.fromYaml (Text.fromUtf8Lossy written) = .ok doc' ∧
      (RewritesReplicas serde doc written doc' ↔ ¬ OverlooksReplicas doc) := by
  obtain ⟨text, htext, hback⟩ := hprint
  have hwritten : modifyManifestReplicas serde content = .ok text.toUTF8.data.toList := by
    rw [modifyManifestReplicas, hread]
    dsimp only
    rw [htext]
  have hread' : serde.fromYaml (Text.fromUtf8Lossy text.toUTF8.data.toList) =
      .ok (modifyReplicas doc) := by
    rw [Text.fromUtf8Lossy_toUTF8, hback]
  refine ⟨_, _, hwritten, hread', ?_⟩
  rw [← manifestReplicas_modifyReplicas_iff]
  refine ⟨fun h => h.one, fun hone => ⟨hone, withoutReplicas_modifyReplicas doc, ?_⟩⟩
  rw [modifyManifestReplicas, hread']
  dsimp only
  rw [modifyReplicas_modifyReplicas, htext]

/-- A library that reads these texts as these documents, and prints every document as one text. -/
def textSerde (texts : List (String × Yaml)) (printed : String) : Serde where
  fromYaml text := match texts.lookup text with
    | some doc => .ok doc
    | none => .error "did not find expected node content"
  toYaml _ := .ok printed
  fromJson _ := .error "expected value"

/-- A manifest that asks for replicas under `spec`. -/
def specDoc (n : String) : Yaml :=
  .mapping [(.string "spec", .mapping [(.string "replicas", .number n)])]

/-- Three replicas under `spec` become one. -/
theorem rewritesReplicas_spec :
    let serde := textSerde [("spec: \x7breplicas: 3\x7d\n", specDoc "3"),
      ("spec:\n  replicas: 1\n", specDoc "1")] "spec:\n  replicas: 1\n"
    ∃ written doc', modifyManifestReplicas serde
        "spec: \x7breplicas: 3\x7d\n".toUTF8.data.toList = .ok written ∧
      serde.fromYaml (Text.fromUtf8Lossy written) = .ok doc' ∧
      (RewritesReplicas serde (specDoc "3") written doc' ↔ ¬ OverlooksReplicas (specDoc "3")) := by
  intro serde
  refine rewritesReplicas_iff serde ?_ ⟨"spec:\n  replicas: 1\n", rfl, rfl⟩
  rw [Text.fromUtf8Lossy_toUTF8]
  rfl

/-- A manifest with an empty `spec`, and the number at the top. -/
def topDoc : Yaml := .mapping [(.string "spec", .null), (.string "replicas", .number "3")]

/-- **A manifest keeps its number**: a node finds a `spec`, and does not look at the top. -/
theorem replicas_overlooked :
    ¬ ∀ (serde : Serde) (content : Bytes) (doc : Yaml),
      serde.fromYaml (Text.fromUtf8Lossy content) = .ok doc →
      serde.PrintsBack (modifyReplicas doc) →
      ∃ written doc', modifyManifestReplicas serde content = .ok written ∧
        serde.fromYaml (Text.fromUtf8Lossy written) = .ok doc' ∧
        RewritesReplicas serde doc written doc' := by
  intro h
  let serde := textSerde [("spec:\nreplicas: 3\n", topDoc), ("spec: null\nreplicas: 3\n", topDoc)]
    "spec: null\nreplicas: 3\n"
  have hread : serde.fromYaml (Text.fromUtf8Lossy "spec:\nreplicas: 3\n".toUTF8.data.toList) =
      .ok topDoc := by
    rw [Text.fromUtf8Lossy_toUTF8]
    rfl
  obtain ⟨written, doc', hwritten, hread', hrewrites⟩ :=
    h serde _ topDoc hread ⟨"spec: null\nreplicas: 3\n", rfl, rfl⟩
  rw [modifyManifestReplicas, hread] at hwritten
  obtain rfl := Except.ok.inj hwritten
  rw [Text.fromUtf8Lossy_toUTF8] at hread'
  obtain rfl := Except.ok.inj hread'
  exact absurd hrewrites.one (by decide)

end Beemesh
