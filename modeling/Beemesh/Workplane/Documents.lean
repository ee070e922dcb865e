import Beemesh.Lib.Pieces
import Beemesh.Workplane.SelfHeal

/-!
# Manifests of several documents

A manifest may hold several YAML documents with separator lines between them, and the name of a
workload is that of the first document of the requested kind.

The manifest is cut wherever three dashes stand, in a separator line or not. A document with three
dashes inside comes apart: a part of it may be passed over, or be read as a document of its own.
White space around a part is cut off, the indentation of its first line too.

## Main definitions

* `Document`, `joinDocuments`: documents, and the manifest that they make
* `requestedName`: the name that a manifest is asked for
* `Whole`: a text that gets through the cut as it is

## Main results

* `splitYAMLDocuments_joinDocuments`: the documents of a manifest are cut each on its own
* `parseManifestName_toOption`: the name is that of the first part which reads as a workload
* `parseManifestName_joinDocuments`: the manifests whose names are found
-/

namespace Beemesh.Workplane

/-- A YAML document, with the kind and the name that it says. -/
structure Document where
  text : String
  kind : String
  name : String

/-- The YAML library reads a document as what it says. -/
structure ManifestReader.Parses (Y : ManifestReader) (d : Document) : Prop where
  kind : Y.kind d.text = .ok d.kind
  deploymentName : toLower d.kind = "deployment" → Y.deploymentName d.text = .ok d.name
  statefulSetName : toLower d.kind = "statefulset" → Y.statefulSetName d.text = .ok d.name

/-- A text whose last line is closed. -/
def closeLine (text : String) : String :=
  if text = "" ∨ Text.endsWith text "\n" = true then text else text ++ "\n"

/-- The documents with separator lines between them. -/
def joinDocuments : List String → String
  | [] => ""
  | [text] => text
  | text :: texts => closeLine text ++ "---" ++ ("\n" ++ joinDocuments texts)

/-- A document of this kind is one that is asked for. The kinds of workloads are compared without
case, and no kind stands for all of them. -/
def isRequested (targetKind kind : String) : Bool :=
  if targetKind = "Deployment" then toLower kind = "deployment"
  else if targetKind = "StatefulSet" then toLower kind = "statefulset"
  else if targetKind = "" then toLower kind = "deployment" ∨ toLower kind = "statefulset"
  else kind = targetKind

/-- The name of the first document of the requested kind, if it has one. -/
def requestedName (kind : String) (docs : List Document) : Option String :=
  ((docs.find? fun d => isRequested (normalizeKind kind) d.kind).map Document.name).filter (· ≠ "")

/-! ## The cut -/

theorem splitYAMLDocuments_eq (s : String) :
    splitYAMLDocuments s =
      ((Text.splitFrom "---".toList 0 [] s.toList).map fun part =>
        Text.trim (String.ofList part)).filter (· ≠ "") := by
  rw [splitYAMLDocuments, Text.split, List.map_map]
  rfl

theorem splitYAMLDocuments_append_newline (s : String) :
    splitYAMLDocuments (s ++ "\n") = splitYAMLDocuments s := by
  -- The line feed ends up in the last part, and is cut off there.
  have hdash : '\n' ∉ "---".toList := by decide
  obtain ⟨front, last, hsplit, happend⟩ :=
    Text.exists_splitFrom_cons hdash (by decide) (Nat.zero_le s.toList.length) []
  have hlast := Text.trim_concat (x := '\n') rfl last
  rw [splitYAMLDocuments_eq, splitYAMLDocuments_eq, String.toList_append, hsplit,
    show "\n".toList = ['\n'] from rfl, happend, Text.splitFrom, List.map_append, List.map_append,
    List.map_singleton, List.map_singleton, hlast]

theorem splitYAMLDocuments_newline_append (s : String) :
    splitYAMLDocuments ("\n" ++ s) = splitYAMLDocuments s := by
  obtain ⟨head, tail, hsplit⟩ := Text.exists_splitFrom_piece "---".toList s.toList 0
  -- The line feed opens the first part.
  have hhead := Text.trim_cons (x := '\n') rfl head
  have hfeed : Text.splitFrom "---".toList 0 [] ('\n' :: s.toList) =
      Text.splitFrom "---".toList 0 ['\n'] s.toList := rfl
  rw [splitYAMLDocuments_eq, splitYAMLDocuments_eq, String.toList_append,
    show "\n".toList = ['\n'] from rfl, List.singleton_append, hfeed, hsplit, hsplit,
    List.map_cons, List.map_cons, List.singleton_append, hhead, List.nil_append]

/-- Dashes behind a closed line cut there. -/
theorem splitYAMLDocuments_closeLine_append (text s : String) :
    splitYAMLDocuments (closeLine text ++ "---" ++ s) =
      splitYAMLDocuments text ++ splitYAMLDocuments s := by
  have hclosed : (closeLine text).toList = [] ∨
      ∃ r x, (closeLine text).toList = r ++ [x] ∧ x ∉ "---".toList := by
    rw [closeLine]
    split_ifs with h
    · rcases h with rfl | hend
      · exact .inl rfl
      · obtain ⟨r, rfl⟩ := Text.endsWith_iff.mp hend
        exact .inr ⟨r.toList, '\n', String.toList_append, by decide⟩
    · exact .inr ⟨text.toList, '\n', String.toList_append, by decide⟩
  have htext : splitYAMLDocuments (closeLine text) = splitYAMLDocuments text := by
    rw [closeLine]
    split_ifs
    · rfl
    · exact splitYAMLDocuments_append_newline text
  rw [← htext, splitYAMLDocuments_eq, splitYAMLDocuments_eq, splitYAMLDocuments_eq,
    String.toList_append, String.toList_append,
    Text.splitFrom_append_sep_append (by decide) hclosed, List.map_append, List.filter_append]

/-- **The documents of a manifest are cut each on its own.** -/
theorem splitYAMLDocuments_joinDocuments (texts : List String) :
    splitYAMLDocuments (joinDocuments texts) = texts.flatMap splitYAMLDocuments := by
  induction texts with
  | nil => rfl
  | cons text texts ih =>
    cases texts with
    | nil => rw [joinDocuments, List.flatMap_singleton]
    | cons next texts =>
      rw [joinDocuments, splitYAMLDocuments_closeLine_append, splitYAMLDocuments_newline_append, ih]
      · exact List.flatMap_cons.symm
      · exact List.cons_ne_nil next texts

/-! ## The name that is found -/

variable (Y : ManifestReader)

/-- The name that a part of a manifest is read for. Other parts are passed over. -/
def partName (targetKind part : String) : Option String :=
  match Y.kind part with
  | .error _ => none
  | .ok kind =>
    if toLower kind = "deployment" ∧ (targetKind = "Deployment" ∨ targetKind = "") then
      (Y.deploymentName part).toOption
    else if toLower kind = "statefulset" ∧ (targetKind = "StatefulSet" ∨ targetKind = "") then
      (Y.statefulSetName part).toOption
    else none

theorem toOption_documentName (name message : String) :
    (documentName name message).toOption = (some name).filter (· ≠ "") := by
  rw [documentName, Option.filter_some]
  by_cases hname : name = ""
  · rw [if_neg (not_not_intro hname), if_neg (by simpa using hname)]
    rfl
  · rw [if_pos hname, if_pos (by simpa using hname)]
    rfl

/-- The loop stops at the first part that has a name to be read. -/
theorem nameInDocuments_toOption (targetKind : String) (parts : List String) :
    (nameInDocuments Y targetKind parts).toOption =
      (parts.findSome? (partName Y targetKind)).filter (· ≠ "") := by
  induction parts with
  | nil => rfl
  | cons part parts ih =>
    rw [nameInDocuments, List.findSome?_cons, partName]
    cases Y.kind part with
    | error e => exact ih
    | ok kind =>
      dsimp only
      split_ifs with hdeployment hstateful
      · cases Y.deploymentName part with
        | error e => exact ih
        | ok name => exact toOption_documentName name _
      · cases Y.statefulSetName part with
        | error e => exact ih
        | ok name => exact toOption_documentName name _
      · exact ih

/-- **The name of a manifest** is that of the first part which reads as a workload of the kind. -/
theorem parseManifestName_toOption (manifest kind : String) :
    (parseManifestName Y manifest kind).toOption =
      ((splitYAMLDocuments manifest).findSome? (partName Y (normalizeKind kind))).filter
        (· ≠ "") := by
  rw [parseManifestName]
  dsimp only
  split_ifs with hempty hnone
  · rw [hempty]
    rfl
  · rw [hnone]
    rfl
  · exact nameInDocuments_toOption Y (normalizeKind kind) (splitYAMLDocuments manifest)

/-! ## Documents that get through the cut -/

/-- The name of a document, if it is of the requested kind. -/
def Document.nameFor (targetKind : String) (d : Document) : Option String :=
  if isRequested targetKind d.kind = true then some d.name else none

theorem requestedName_eq (kind : String) (docs : List Document) :
    requestedName kind docs =
      (docs.findSome? (Document.nameFor (normalizeKind kind))).filter (· ≠ "") := by
  suffices hfind : (docs.find? fun d => isRequested (normalizeKind kind) d.kind).map
      Document.name = docs.findSome? (Document.nameFor (normalizeKind kind)) by
    rw [requestedName, hfind]
  induction docs with
  | nil => rfl
  | cons d docs ih =>
    rw [List.find?_cons, List.findSome?_cons, Document.nameFor]
    cases isRequested (normalizeKind kind) d.kind with
    | true => rfl
    | false => exact ih

/-- The kinds that names are looked up for. -/
def IsWorkloadKind (targetKind : String) : Prop :=
  targetKind = "Deployment" ∨ targetKind = "StatefulSet" ∨ targetKind = ""

/-- A text gets through the cut as it is: no dashes cut it, and without the white space around it
it reads the same. -/
structure Whole (text : String) : Prop where
  uncut : Text.contains text "---" = false
  kind : Y.kind (Text.trim text) = Y.kind text
  deploymentName : Y.deploymentName (Text.trim text) = Y.deploymentName text
  statefulSetName : Y.statefulSetName (Text.trim text) = Y.statefulSetName text

theorem splitYAMLDocuments_of_uncut {text : String} (h : Text.contains text "---" = false) :
    splitYAMLDocuments text = [Text.trim text].filter (· ≠ "") := by
  have hinfix : ¬ "---".toList <:+: text.toList := fun hinfix =>
    Bool.false_ne_true (h.symm.trans (Text.contains_iff.mpr hinfix))
  rw [splitYAMLDocuments_eq, Text.splitFrom_eq_singleton hinfix, List.nil_append,
    List.map_singleton, String.ofList_toList]

theorem isRequested_iff {targetKind kind : String} (hkind : IsWorkloadKind targetKind) :
    isRequested targetKind kind = true ↔
      (toLower kind = "deployment" ∧ (targetKind = "Deployment" ∨ targetKind = "")) ∨
        (toLower kind = "statefulset" ∧ (targetKind = "StatefulSet" ∨ targetKind = "")) := by
  rcases hkind with rfl | rfl | rfl
  · simp [isRequested]
  · simp [isRequested]
  · simp [isRequested]

/-- A workload is read as what the document says. -/
theorem partName_of_parses {targetKind : String} (hkind : IsWorkloadKind targetKind)
    {d : Document} (hparses : Y.Parses d) :
    partName Y targetKind d.text = d.nameFor targetKind := by
  rw [partName, hparses.kind, Document.nameFor]
  dsimp only
  by_cases hdeployment :
      toLower d.kind = "deployment" ∧ (targetKind = "Deployment" ∨ targetKind = "")
  · rw [if_pos hdeployment, if_pos ((isRequested_iff hkind).mpr (.inl hdeployment)),
      hparses.deploymentName hdeployment.1]
    rfl
  · rw [if_neg hdeployment]
    by_cases hstateful :
        toLower d.kind = "statefulset" ∧ (targetKind = "StatefulSet" ∨ targetKind = "")
    · rw [if_pos hstateful, if_pos ((isRequested_iff hkind).mpr (.inr hstateful)),
        hparses.statefulSetName hstateful.1]
      rfl
    · -- A document of another kind is passed over, and not asked for.
      rw [if_neg hstateful,
        if_neg fun h => ((isRequested_iff hkind).mp h).elim hdeployment hstateful]

theorem partName_empty (hempty : Y.kind "" = .ok "") (targetKind : String) :
    partName Y targetKind "" = none := by
  have hdeployment : toLower "" ≠ "deployment" := by decide
  have hstateful : toLower "" ≠ "statefulset" := by decide
  rw [partName, hempty]
  dsimp only
  rw [if_neg fun h => hdeployment h.1, if_neg fun h => hstateful h.1]

theorem partName_trim {text : String} (hwhole : Whole Y text) (targetKind : String) :
    partName Y targetKind (Text.trim text) = partName Y targetKind text := by
  rw [partName, partName, hwhole.kind, hwhole.deploymentName, hwhole.statefulSetName]

/-- A document that gets through is found as what it is. -/
theorem findSome?_splitYAMLDocuments (hempty : Y.kind "" = .ok "") {targetKind : String}
    (hkind : IsWorkloadKind targetKind) {d : Document} (hparses : Y.Parses d)
    (hwhole : Whole Y d.text) :
    (splitYAMLDocuments d.text).findSome? (partName Y targetKind) = d.nameFor targetKind := by
  have hname : partName Y targetKind (Text.trim d.text) = d.nameFor targetKind := by
    rw [partName_trim Y hwhole, partName_of_parses Y hkind hparses]
  rw [splitYAMLDocuments_of_uncut hwhole.uncut, ← hname]
  by_cases hblank : Text.trim d.text = ""
  · -- A blank document is dropped, and says no kind.
    rw [hblank, partName_empty Y hempty]
    rfl
  · rw [List.filter_cons_of_pos (by simpa using hblank), List.findSome?_cons]
    cases partName Y targetKind (Text.trim d.text) with
    | none => rfl
    | some name => rfl

/-- The first name among the parts of the documents is the first name among the documents, if the
documents up to the first that has one are read as what they are. -/
theorem findSome?_flatMap_eq {α β γ : Type*} {f : β → Option γ} {g : α → Option γ}
    {parts : α → List β} {l : List α}
    (h : ∀ before a after, l = before ++ a :: after → (∀ b ∈ before, g b = none) →
      (parts a).findSome? f = g a) : (l.flatMap parts).findSome? f = l.findSome? g := by
  induction l with
  | nil => rfl
  | cons a l ih =>
    have hhead := h [] a l rfl (fun b hb => absurd hb List.not_mem_nil)
    rw [List.flatMap_cons, List.findSome?_append, hhead, List.findSome?_cons]
    cases hname : g a with
    | some name => rfl
    | none =>
      -- The head has no name, so that a first name further on is the first of all.
      refine ih fun before b after hl hbefore => ?_
      refine h (a :: before) b after (congrArg (a :: ·) hl) fun c hc => ?_
      rcases List.mem_cons.mp hc with rfl | hc
      · exact hname
      · exact hbefore c hc

/-- Other kinds are never found. -/
theorem parseManifestName_of_not_isWorkloadKind {kind : String}
    (hkind : ¬ IsWorkloadKind (normalizeKind kind)) (manifest : String) :
    (parseManifestName Y manifest kind).toOption = none := by
  have hpart (part : String) : partName Y (normalizeKind kind) part = none := by
    rw [partName]
    cases Y.kind part with
    | error e => rfl
    | ok k =>
      dsimp only
      rw [if_neg fun h => hkind (h.2.imp_right .inr), if_neg fun h => hkind (.inr h.2)]
  rw [parseManifestName_toOption, List.findSome?_eq_none_iff.mpr fun part _ => hpart part]
  rfl

/-- **The manifests whose names are found.** A workload is found if the documents up to the first of
its kind get through the cut; of any other kind there has to be no name to find. -/
theorem parseManifestName_joinDocuments (hempty : Y.kind "" = .ok "") (kind : String)
    (docs : List Document) (hparses : ∀ d ∈ docs, Y.Parses d) :
    (IsWorkloadKind (normalizeKind kind) →
      (∀ before d after, docs = before ++ d :: after →
        (∀ e ∈ before, isRequested (normalizeKind kind) e.kind = false) → Whole Y d.text) →
        (parseManifestName Y (joinDocuments (docs.map Document.text)) kind).toOption =
          requestedName kind docs) ∧
      (¬ IsWorkloadKind (normalizeKind kind) →
        ((parseManifestName Y (joinDocuments (docs.map Document.text)) kind).toOption =
          requestedName kind docs ↔ requestedName kind docs = none)) := by
  constructor
  · intro hkind hwhole
    rw [parseManifestName_toOption, splitYAMLDocuments_joinDocuments, requestedName_eq,
      List.flatMap_map]
    refine congrArg _ (findSome?_flatMap_eq fun before d after hdocs hbefore => ?_)
    have hd : d ∈ docs := hdocs ▸ List.mem_append_right before List.mem_cons_self
    refine findSome?_splitYAMLDocuments Y hempty hkind (hparses d hd)
      (hwhole before d after hdocs ?_)
    intro e he
    have hnone := hbefore e he
    rw [Document.nameFor] at hnone
    exact Bool.eq_false_of_not_eq_true fun hrequested => nomatch (if_pos hrequested).symm.trans hnone
  · intro hkind
    rw [parseManifestName_of_not_isWorkloadKind Y hkind, eq_comm]

/-! ## Manifests of two lines and a name -/

/-- What follows on the first line that starts so. -/
def lineValue (front text : String) : String :=
  ((Text.lines text).findSome? fun line => Text.stripPrefix line front).getD ""

/-- Reads documents whose fields have a line each. -/
def lineReader : ManifestReader where
  kind doc := .ok (lineValue "kind: " doc)
  deploymentName doc := .ok (lineValue "  name: " doc)
  statefulSetName doc := .ok (lineValue "  name: " doc)
  quote s := "\"" ++ s ++ "\""

def frontDocument : Document := ⟨"kind: Service\nmetadata:\n  name: front", "Service", "front"⟩

def webDocument : Document := ⟨webManifest, "Deployment", "web"⟩

/-- A name with three dashes. -/
def dashedDocument : Document :=
  ⟨"kind: Deployment\nmetadata:\n  name: a---b", "Deployment", "a---b"⟩

theorem whole_of_trim_eq {text : String} (htrim : Text.trim text = text)
    (huncut : Text.contains text "---" = false) : Whole Y text where
  uncut := huncut
  kind := by rw [htrim]
  deploymentName := by rw [htrim]
  statefulSetName := by rw [htrim]

theorem parses_frontDocument : lineReader.Parses frontDocument where
  kind := by decide +kernel
  deploymentName h := absurd h (by decide)
  statefulSetName h := absurd h (by decide)

theorem parses_webDocument : lineReader.Parses webDocument where
  kind := by decide +kernel
  deploymentName _ := by decide +kernel
  statefulSetName h := absurd h (by decide)

theorem parses_dashedDocument : lineReader.Parses dashedDocument where
  kind := by decide +kernel
  deploymentName _ := by decide +kernel
  statefulSetName h := absurd h (by decide)

/-- The workload behind a service is found. -/
theorem parseManifestName_web :
    (parseManifestName lineReader (joinDocuments [frontDocument.text, webDocument.text])
        "StatelessWorkload").toOption =
      requestedName "StatelessWorkload" [frontDocument, webDocument] := by
  have hdocs : ∀ d ∈ [frontDocument, webDocument],
      lineReader.Parses d ∧ Whole lineReader d.text := by
    intro d hd
    rcases List.mem_pair.mp hd with rfl | rfl
    · exact ⟨parses_frontDocument, whole_of_trim_eq lineReader (by decide +kernel)
        (by decide +kernel)⟩
    · exact ⟨parses_webDocument, whole_of_trim_eq lineReader (by decide +kernel)
        (by decide +kernel)⟩
  -- The service is passed over: it is of another kind.
  refine (parseManifestName_joinDocuments lineReader rfl "StatelessWorkload"
    [frontDocument, webDocument] fun d hd => (hdocs d hd).1).1 (.inl (by decide)) ?_
  intro before d after hsplit _
  exact (hdocs d (hsplit ▸ List.mem_append_right before List.mem_cons_self)).2

/-- No line of the document is a separator, and the workload is found under another name. -/
theorem parseManifestName_dashed :
    ¬ ∀ (docs : List Document) (kind : String), (∀ d ∈ docs, lineReader.Parses d) →
      (∀ d ∈ docs, "---" ∉ Text.lines d.text) →
        (parseManifestName lineReader (joinDocuments (docs.map Document.text)) kind).toOption =
          requestedName kind docs := by
  intro hclaim
  have hlines : ∀ d ∈ [dashedDocument], "---" ∉ Text.lines d.text := by decide +kernel
  have hname := hclaim [dashedDocument] "StatelessWorkload"
    (List.forall_mem_singleton.mpr parses_dashedDocument) hlines
  -- The second part of the document is never looked at.
  have hfound : (parseManifestName lineReader dashedDocument.text "StatelessWorkload").toOption =
      some "a" := by decide +kernel
  have hrequested : requestedName "StatelessWorkload" [dashedDocument] = some "a---b" := by
    decide +kernel
  exact absurd (hfound.symm.trans (hname.trans hrequested)) (by decide)

end Beemesh.Workplane
