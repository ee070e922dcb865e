import Beemesh.Engine.Found

/-!
# What a removal leaves

A workload has one of two names as a pod. `remove_workload` tries both and stops at the first that
works; when neither does, it goes for every pod whose name has the workload id in it. So it leaves a
pod behind where both names are taken, and takes pods of other workloads where its own is not there.

## Main definitions

* `Pods`: the pods of podman by name, and which commands fail
* `Pods.rm`, `Pods.ls`: the two commands
* `Pods.removeWorkload`: the removal on these
* `Acts`: what the commands of the engine do to the pods
* `Removed`: the pods of a workload are gone, and no others
* `Pods.Removable`: when a removal that succeeds is one of this workload only

## Main results

* `Acts.removeWorkload`: the engine removes as on its pods
* `Acts.removed_iff`: when a removal that succeeds is complete and confined
-/

namespace Beemesh

namespace PodmanEngine

/-! ## Pods -/

/-- The pods by name, and for each command to come whether podman fails. -/
@[ext] structure Pods where
  names : List String
  nodup : names.Nodup
  fails : ℕ → Bool

namespace Pods

/-- One command later. -/
def next (s : Pods) : Pods := { s with fails := fun n => s.fails (n + 1) }

def without (s : Pods) (name : String) : Pods where
  names := s.names.filter (· ≠ name)
  nodup := s.nodup.filter _
  fails := s.fails

/-- `pod rm -f name`: it fails where there is no such pod, and whenever podman does. -/
def rm (s : Pods) (name : String) : Bool × Pods :=
  if s.fails 0 = false ∧ name ∈ s.names then (true, s.next.without name) else (false, s.next)

/-- `pod ls --filter name=text`: every pod whose name has the text in it. -/
def ls (s : Pods) (text : String) : Option (List String) × Pods :=
  (if s.fails 0 then none else some (s.names.filter (Text.contains · text)), s.next)

/-- Removing one pod after the other, failures left aside. -/
def rmAll (s : Pods) (names : List String) : Pods := names.foldl (fun s name => (s.rm name).2) s

/-- `remove_workload`, and whether it succeeds. -/
def removeWorkload (s : Pods) (workloadId : String) : Bool × Pods :=
  match s.rm (workloadId ++ "-pod") with
  | (true, s) => (true, s)
  | (false, s) =>
    match s.rm workloadId with
    | (true, s) => (true, s)
    | (false, s) =>
      match s.ls workloadId with
      | (none, s) => (false, s)
      | (some listed, s) => (true, s.rmAll listed)

/-- The pods of the workload are gone, and no others. -/
structure Removed (s s' : Pods) (workloadId : String) : Prop where
  complete : workloadId ∉ s'.names ∧ workloadId ++ "-pod" ∉ s'.names
  confined : ∀ name ∈ s.names, name ≠ workloadId → name ≠ workloadId ++ "-pod" → name ∈ s'.names

/-- The pods that the last resort goes for. -/
def matching (s : Pods) (workloadId : String) : List String :=
  s.names.filter (Text.contains · workloadId)

/-- Where the first name is removed the second is not taken, and the other way round; and where
neither is, the listing fails, or of the pods it finds those of the workload are removed, and all
others withstand. -/
def Removable (s : Pods) (workloadId : String) : Prop :=
  if s.fails 0 = false ∧ workloadId ++ "-pod" ∈ s.names then workloadId ∉ s.names
  else if s.fails 1 = false ∧ workloadId ∈ s.names then workloadId ++ "-pod" ∉ s.names
  else s.fails 2 = true ∨ ∀ i name, (s.matching workloadId)[i]? = some name →
    (s.fails (3 + i) = false ↔ name = workloadId ∨ name = workloadId ++ "-pod")

/-! ## What is left -/

variable {s : Pods} {name w : String}

theorem rm_eq_next (h : ¬ (s.fails 0 = false ∧ name ∈ s.names)) : s.rm name = (false, s.next) :=
  if_neg h

theorem rm_eq_without (h : s.fails 0 = false ∧ name ∈ s.names) :
    s.rm name = (true, s.next.without name) :=
  if_pos h

theorem mem_without {other : String} : name ∈ (s.without other).names ↔
    name ∈ s.names ∧ name ≠ other := by
  simp [without]

theorem fails_rm (s : Pods) (name : String) (n : ℕ) : (s.rm name).2.fails n = s.fails (n + 1) := by
  unfold rm
  split_ifs <;> rfl

theorem mem_rm {other : String} : name ∈ (s.rm other).2.names ↔
    name ∈ s.names ∧ (name = other → s.fails 0 = true) := by
  by_cases h : s.fails 0 = false ∧ other ∈ s.names
  · rw [rm_eq_without h, mem_without]
    refine and_congr_right fun _ => ⟨fun hne heq => absurd heq hne, fun hkept heq => ?_⟩
    exact absurd (hkept heq) (by simp [h.1])
  · rw [rm_eq_next h]
    refine ⟨fun hmem => ⟨hmem, ?_⟩, And.left⟩
    rintro rfl
    by_contra hfails
    exact h ⟨by simpa using hfails, hmem⟩

/-- What withstands a removal of all: the pods that are not in the list, and those at whose places
podman fails. -/
theorem mem_rmAll {names : List String} : name ∈ (s.rmAll names).names ↔
    name ∈ s.names ∧ ∀ i, names[i]? = some name → s.fails i = true := by
  induction names generalizing s with
  | nil => simp [rmAll]
  | cons other names ih =>
    change name ∈ ((s.rm other).2.rmAll names).names ↔ _
    rw [ih, mem_rm, and_assoc]
    refine and_congr_right fun _ => ?_
    simp only [fails_rm]
    constructor
    · rintro ⟨hfirst, hrest⟩ i hi
      cases i with
      | zero => exact hfirst (Option.some.inj hi).symm
      | succ i => exact hrest i hi
    · intro h
      exact ⟨fun heq => h 0 (congrArg some heq.symm), fun i hi => h (i + 1) hi⟩

theorem ne_append_pod (w : String) : w ≠ w ++ "-pod" := by
  intro h
  have hlength := congrArg (fun s => s.toList.length) h
  simp [String.toList_append] at hlength

/-- Both names of a workload have its id in them. -/
theorem mem_matching (hname : name = w ∨ name = w ++ "-pod") :
    name ∈ s.matching w ↔ name ∈ s.names := by
  rw [matching, List.mem_filter, and_iff_left]
  rw [Text.contains_iff]
  rcases hname with rfl | rfl
  · exact List.infix_rfl
  · rw [String.toList_append]
    exact (List.prefix_append _ _).isInfix

/-- In the list a pod has one place, and it withstands if podman fails there. -/
theorem mem_rmAll_matching {s' : Pods} (hnames : s'.names = s.names) {i : ℕ}
    (hi : (s.matching w)[i]? = some name) :
    name ∈ (s'.rmAll (s.matching w)).names ↔ s'.fails i = true := by
  have hlt : i < (s.matching w).length := (List.getElem?_eq_some_iff.mp hi).1
  have hmem : name ∈ s'.names :=
    hnames ▸ (List.mem_filter.mp (List.mem_of_getElem? hi)).1
  rw [mem_rmAll, and_iff_right hmem]
  refine ⟨fun h => h i hi, fun h j hj => ?_⟩
  obtain rfl := (List.getElem?_inj hlt (s.nodup.filter _)).mp (hi.trans hj.symm)
  exact h

/-- The last resort takes the pods of the workload only, where podman fails at the places of all
others and at none of theirs. -/
theorem removed_rmAll_iff {s' : Pods} (hnames : s'.names = s.names) :
    Removed s (s'.rmAll (s.matching w)) w ↔ ∀ i name, (s.matching w)[i]? = some name →
      (s'.fails i = false ↔ name = w ∨ name = w ++ "-pod") := by
  constructor
  · intro h i name hi
    have hplace := mem_rmAll_matching hnames hi
    have hmem : name ∈ s.names := (List.mem_filter.mp (List.mem_of_getElem? hi)).1
    constructor
    · intro hfails
      have hgone : name ∉ (s'.rmAll (s.matching w)).names := by
        rw [hplace, hfails]
        decide
      by_contra hother
      obtain ⟨hne, hne'⟩ := not_or.mp hother
      exact hgone (h.confined name hmem hne hne')
    · intro hown
      have hgone : name ∉ (s'.rmAll (s.matching w)).names := by
        rcases hown with rfl | rfl
        · exact h.complete.1
        · exact h.complete.2
      simpa using mt hplace.mpr hgone
  · intro h
    -- A pod of the workload that is there has a place in the list.
    have hgone (name : String) (hown : name = w ∨ name = w ++ "-pod") :
        name ∉ (s'.rmAll (s.matching w)).names := by
      intro hleft
      have hmem : name ∈ s.matching w := (mem_matching hown).mpr (hnames ▸ (mem_rmAll.mp hleft).1)
      obtain ⟨i, hi⟩ := List.getElem?_of_mem hmem
      have hfails := (mem_rmAll_matching hnames hi).mp hleft
      exact absurd ((h i name hi).mpr hown) (by simp [hfails])
    refine ⟨⟨hgone w (.inl rfl), hgone _ (.inr rfl)⟩, fun name hmem hne hne' => ?_⟩
    rw [mem_rmAll]
    refine ⟨hnames ▸ hmem, fun i hi => ?_⟩
    by_contra hfails
    exact not_or.mpr ⟨hne, hne'⟩ ((h i name hi).mp (by simpa using hfails))

/-- A removal of one name leaves the other, if it is there. -/
theorem removed_without_iff {s' : Pods} (hnames : s'.names = s.names) {other : String}
    (hpair : name = w ∧ other = w ++ "-pod" ∨ name = w ++ "-pod" ∧ other = w) :
    Removed s (s'.without name) w ↔ other ∉ s.names := by
  have hmem (x : String) : x ∈ (s'.without name).names ↔ x ∈ s.names ∧ x ≠ name := by
    rw [mem_without, hnames]
  have hdiffer := ne_append_pod w
  constructor
  · rintro ⟨⟨hfirst, hsecond⟩, -⟩ hthere
    rcases hpair with ⟨rfl, rfl⟩ | ⟨rfl, rfl⟩
    · exact hsecond ((hmem _).mpr ⟨hthere, hdiffer.symm⟩)
    · exact hfirst ((hmem _).mpr ⟨hthere, hdiffer⟩)
  · intro hnot
    refine ⟨?_, fun x hx hne hne' => (hmem x).mpr ⟨hx, ?_⟩⟩
    · rcases hpair with ⟨rfl, rfl⟩ | ⟨rfl, rfl⟩
      · exact ⟨fun h => ((hmem _).mp h).2 rfl, fun h => hnot ((hmem _).mp h).1⟩
      · exact ⟨fun h => hnot ((hmem _).mp h).1, fun h => ((hmem _).mp h).2 rfl⟩
    · rcases hpair with ⟨rfl, -⟩ | ⟨rfl, -⟩
      · exact hne
      · exact hne'

/-- Where the first name can be removed, nothing else is tried. -/
theorem removeWorkload_of_suffix (h : s.fails 0 = false ∧ w ++ "-pod" ∈ s.names) :
    s.removeWorkload w = (true, s.next.without (w ++ "-pod")) := by
  simp only [removeWorkload, rm_eq_without h]

/-- Where only the second name can be removed, the last resort is not reached. -/
theorem removeWorkload_of_plain (hsuffix : ¬ (s.fails 0 = false ∧ w ++ "-pod" ∈ s.names))
    (hplain : s.fails 1 = false ∧ w ∈ s.names) :
    s.removeWorkload w = (true, s.next.next.without w) := by
  simp only [removeWorkload, rm_eq_next hsuffix,
    rm_eq_without (show s.next.fails 0 = false ∧ w ∈ s.next.names from hplain)]

/-- Where one of its names can be removed, a removal takes no pod of another name. -/
theorem mem_removeWorkload (h : s.fails 0 = false ∧ w ++ "-pod" ∈ s.names ∨
    s.fails 1 = false ∧ w ∈ s.names) (hmem : name ∈ s.names) (hne : name ≠ w)
    (hne' : name ≠ w ++ "-pod") : name ∈ (s.removeWorkload w).2.names := by
  by_cases hsuffix : s.fails 0 = false ∧ w ++ "-pod" ∈ s.names
  · rw [removeWorkload_of_suffix hsuffix]
    exact mem_without.mpr ⟨hmem, hne'⟩
  · rw [removeWorkload_of_plain hsuffix (h.resolve_left hsuffix)]
    exact mem_without.mpr ⟨hmem, hne⟩

/-- **When a removal that succeeds is complete and confined.** -/
theorem removed_removeWorkload_iff (s : Pods) (w : String) :
    ((s.removeWorkload w).1 = true → Removed s (s.removeWorkload w).2 w) ↔ s.Removable w := by
  unfold Removable
  by_cases hsuffix : s.fails 0 = false ∧ w ++ "-pod" ∈ s.names
  · rw [if_pos hsuffix, removeWorkload_of_suffix hsuffix, forall_prop_of_true rfl]
    exact removed_without_iff (show s.next.names = s.names from rfl) (.inr ⟨rfl, rfl⟩)
  rw [if_neg hsuffix]
  by_cases hplain : s.fails 1 = false ∧ w ∈ s.names
  · rw [if_pos hplain, removeWorkload_of_plain hsuffix hplain, forall_prop_of_true rfl]
    exact removed_without_iff (show s.next.next.names = s.names from rfl) (.inl ⟨rfl, rfl⟩)
  rw [if_neg hplain]
  have hthird : s.removeWorkload w = if s.fails 2 then (false, s.next.next.next)
      else (true, s.next.next.next.rmAll (s.matching w)) := by
    simp only [removeWorkload, rm_eq_next hsuffix,
      rm_eq_next (show ¬ (s.next.fails 0 = false ∧ w ∈ s.next.names) from hplain), ls]
    cases hfails : s.fails 2 with
    | true => simp only [show s.next.next.fails 0 = true from hfails, if_true]
    | false =>
      simp only [show s.next.next.fails 0 = false from hfails, Bool.false_eq_true, if_false]
      rfl
  rw [hthird]
  cases hfails : s.fails 2 with
  | true => simp
  | false =>
    simp only [Bool.false_eq_true, if_false, forall_true_left, false_or]
    rw [removed_rmAll_iff (show s.next.next.next.names = s.names from rfl)]
    have hlater (i : ℕ) : s.next.next.next.fails i = s.fails (3 + i) := by
      rw [Nat.add_comm]
      rfl
    simp only [hlater]

end Pods

/-! ## The engine on these pods -/

section Engine

variable {T : Type} (e : PodmanEngine) (cli : Cli T)

/-- The command that removes a pod. -/
def podRm (name : String) : List Arg := words ["pod", "rm", "-f", name]

/-- The command that lists the pods with a text in their names. -/
def podLsNamed (text : String) : List Arg :=
  words ["pod", "ls", "-q", "--filter", "name=" ++ text]

/-- What is read of a listing, line by line. -/
def listedPods (output : String) : List String :=
  ((Text.lines output).map Text.trim).filter (· ≠ "")

/-- The commands of the engine act on the pods that a view shows. -/
structure Acts (view : T → Pods) : Prop where
  rm (t : T) (name : String) : (view t).rm name =
    ((e.executeCommand cli t (podRm name)).1.isOk, view (e.executeCommand cli t (podRm name)).2)
  ls (t : T) (text : String) : (view t).ls text =
    ((e.executeCommand cli t (podLsNamed text)).1.toOption.map listedPods,
      view (e.executeCommand cli t (podLsNamed text)).2)

variable {e cli} {view : T → Pods}

/-- The loop over the lines of a listing removes the pods that it lists. -/
theorem Acts.foldl_lines (h : e.Acts cli view) (lines : List String) (t : T) :
    view (lines.foldl (fun t line =>
      let podId := Text.trim line
      if podId = "" then t
      else (e.executeCommand cli t (words ["pod", "rm", "-f", podId])).2) t) =
    (view t).rmAll ((lines.map Text.trim).filter (· ≠ "")) := by
  induction lines generalizing t with
  | nil => rfl
  | cons line lines ih =>
    rw [List.foldl_cons, ih, List.map_cons]
    by_cases hblank : Text.trim line = ""
    · simp [hblank]
    · rw [List.filter_cons_of_pos (by simpa using hblank)]
      have hrm := congrArg Prod.snd (h.rm t (Text.trim line))
      simp only [hblank, if_false]
      exact congrArg (Pods.rmAll · _) hrm.symm

/-- **The engine removes a workload as on its pods.** -/
theorem Acts.removeWorkload (h : e.Acts cli view) (t : T) (w : String) :
    (view t).removeWorkload w =
      ((e.removeWorkload cli t w).1.isOk, view (e.removeWorkload cli t w).2) := by
  rcases hsuffix : e.executeCommand cli t (words ["pod", "rm", "-f", w ++ "-pod"])
    with ⟨result, t₁⟩
  have hrm := h.rm t (w ++ "-pod")
  rw [podRm, hsuffix] at hrm
  cases result with
  | ok output =>
    simp only [Pods.removeWorkload, PodmanEngine.removeWorkload, hrm, hsuffix, Except.isOk,
      Except.toBool]
  | error err =>
    rcases hplain : e.executeCommand cli t₁ (words ["pod", "rm", "-f", w]) with ⟨result, t₂⟩
    have hrm' := h.rm t₁ w
    rw [podRm, hplain] at hrm'
    cases result with
    | ok output =>
      simp only [Pods.removeWorkload, PodmanEngine.removeWorkload, hrm, hsuffix, hrm', hplain,
        Except.isOk, Except.toBool]
    | error err' =>
      rcases hlisting : e.executeCommand cli t₂
        (words ["pod", "ls", "-q", "--filter", "name=" ++ w]) with ⟨result, t₃⟩
      have hls := h.ls t₂ w
      rw [podLsNamed, hlisting] at hls
      cases result with
      | error err'' =>
        simp only [Pods.removeWorkload, PodmanEngine.removeWorkload, hrm, hsuffix, hrm', hplain,
          hls, hlisting, Except.isOk, Except.toBool, Except.toOption, Option.map_none]
      | ok output =>
        have hloop := h.foldl_lines (Text.lines output) t₃
        simp only [Pods.removeWorkload, PodmanEngine.removeWorkload, hrm, hsuffix, hrm', hplain,
          hls, hlisting, Except.isOk, Except.toBool, Except.toOption, Option.map_some, hloop,
          listedPods]

/-- **When a removal that succeeds is complete and confined**: when the pods are removable. -/
theorem Acts.removed_iff (h : e.Acts cli view) (t : T) (w : String) :
    (∀ t', e.removeWorkload cli t w = (.ok (), t') → Pods.Removed (view t) (view t') w) ↔
      (view t).Removable w := by
  rw [← Pods.removed_removeWorkload_iff, h.removeWorkload t w]
  rcases e.removeWorkload cli t w with ⟨result, t'⟩
  cases result with
  | error err =>
    exact iff_of_true (fun _ hres => nomatch (Prod.mk.inj hres).1) fun hres => nomatch hres
  | ok u =>
    constructor
    · exact fun hremoved _ => hremoved t' rfl
    · rintro hremoved t'' hres
      obtain rfl := (Prod.mk.inj hres).2
      exact hremoved rfl

end Engine

/-! ## On a reference tool -/

/-- A filter by name, of which the text is in `name`. -/
def filterFinds (name : String) : Option Arg → Bool
  | some (.text filter) => ((Text.stripPrefix filter "name=").map (Text.contains name)).getD false
  | _ => false

/-- Podman where it can have the pod `name` only, and never fails. -/
def onePodman (name : String) : Cli Bool := fun up args =>
  if args = podRm name then (.ok ⟨up, [], []⟩, false)
  else if args.take 4 = words ["pod", "ls", "-q", "--filter"] then
    (.ok (printed (if up && filterFinds name args[4]? then name ++ "\n" else "")), up)
  else (.ok ⟨false, [], []⟩, up)

/-- Its pods. -/
def onePod (name : String) (up : Bool) : Pods :=
  ⟨namesOf name up, by cases up <;> simp [namesOf], fun _ => false⟩

/-- It removes its pod, and no other. -/
theorem onePodman_rm (name : String) (up : Bool) (other : String) :
    (onePod name up).rm other =
      ((localPodman.executeCommand (onePodman name) up (podRm other)).1.isOk,
        onePod name (localPodman.executeCommand (onePodman name) up (podRm other)).2) := by
  by_cases hother : other = name
  · have hrun : onePodman name up (podRm other) = (.ok ⟨up, [], []⟩, false) := by
      rw [hother]
      exact if_pos rfl
    simp only [localPodman_executeCommand, Cli.execute, hrun]
    cases up with
    | false =>
      rw [Pods.rm_eq_next (by simp [onePod, namesOf])]
      rfl
    | true =>
      rw [Pods.rm_eq_without (by simp [onePod, namesOf, hother])]
      refine Prod.ext rfl (Pods.ext ?_ rfl)
      simp [Pods.without, Pods.next, onePod, namesOf, hother]
  · have hrun : onePodman name up (podRm other) = (.ok ⟨false, [], []⟩, up) := by
      simp [onePodman, podRm, words, hother]
    simp only [localPodman_executeCommand, Cli.execute, hrun, Bool.false_eq_true, if_false]
    rw [Pods.rm_eq_next (by cases up <;> simp [onePod, namesOf, hother])]
    rfl

/-- What it prints of a listing. -/
theorem onePodman_podLsNamed (name : String) (up : Bool) (text : String) :
    onePodman name up (podLsNamed text) = (.ok (printed
      (if up && Text.contains name text then name ++ "\n" else "")), up) := by
  have hfinds : filterFinds name (podLsNamed text)[4]? = Text.contains name text := by
    simp [podLsNamed, words, filterFinds]
  have hne : podLsNamed text ≠ podRm name := by simp [podLsNamed, podRm, words]
  rw [← hfinds]
  exact (if_neg hne).trans (if_pos rfl)

/-- It acts on its pod, as far as the texts it prints are read. -/
theorem onePodman_acts {name : String}
    (hprints : Text.fromUtf8Lossy (name ++ "\n").toUTF8.data.toList = name ++ "\n")
    (hlisted : listedPods (name ++ "\n") = [name]) :
    localPodman.Acts (onePodman name) (onePod name) := by
  refine ⟨onePodman_rm name, fun up text => ?_⟩
  have hrun := onePodman_podLsNamed name up text
  rw [localPodman_executeCommand]
  cases hlists : up && Text.contains name text with
  | true =>
    simp only [hlists, if_true] at hrun
    rw [execute_printed hrun hprints]
    obtain ⟨rfl, hcontains⟩ := (Bool.and_eq_true _ _).mp hlists
    refine Prod.ext ?_ rfl
    simp [Pods.ls, onePod, namesOf, hcontains, Except.toOption, hlisted]
  | false =>
    -- There is no pod, or its name does not have the text in it: nothing is printed.
    simp only [hlists, Bool.false_eq_true, if_false] at hrun
    rw [execute_printed hrun (by decide)]
    have hblank : listedPods "" = [] := by decide
    refine Prod.ext ?_ rfl
    cases up <;> simp_all [Pods.ls, onePod, namesOf, Except.toOption]

/-- The pod of `web`, alone, is removed. -/
theorem removed_web :
    Pods.Removed (onePod "beemesh-web" true) (onePod "beemesh-web" false) "beemesh-web" := by
  have hacts : localPodman.Acts (onePodman "beemesh-web") (onePod "beemesh-web") :=
    onePodman_acts (by decide) (by decide)
  have hremovable : (onePod "beemesh-web" true).Removable "beemesh-web" := by
    rw [Pods.Removable, if_neg (by decide), if_pos (by decide)]
    decide
  exact (hacts.removed_iff true "beemesh-web").mpr hremovable false rfl

/-- A removal of `web` takes the pod of `web2`. -/
theorem not_removed_web2 :
    localPodman.removeWorkload (onePodman "beemesh-web2") true "beemesh-web" = (.ok (), false) ∧
      ¬ Pods.Removed (onePod "beemesh-web2" true) (onePod "beemesh-web2" false) "beemesh-web" := by
  refine ⟨rfl, fun hremoved => ?_⟩
  have hkept := hremoved.confined "beemesh-web2" (by decide) (by decide) (by decide)
  exact absurd hkept (by decide)

end PodmanEngine

end Beemesh
