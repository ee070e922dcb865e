import Beemesh.Provider.Discovery

/-!
# Sightings, and what is left of them

What a run owes to the providers that it saw. Beside the manager goes, for each manifest and peer,
the entry as the last sighting of the peer left it, until the limit takes the peer out; and whether
this entry has been expired since. A sighting counts when it is recorded: then the call writes its
time in the list.

A query stores a list that was the list of the manifest some time ago. What was recorded between is
not in it, and is lost.

## Main definitions

* `sightedEntry`, `evicted`: the entry that a sighting leaves, and the one that goes for it
* `Watch`, `watchStep`: the manager, with the entries that the last sightings left
* `CacheChange`: what a part of a call does to the lists
* `Watch.NoneLost`: every such entry is in its list, or is expired
* `StoresAll`: what is stored has all of them
* `StoresUntouched`: nothing of its manifest was recorded since before it was sent

## Main results

* `sightedEntry_mem`, `mem_recordProvider`: what a list has after a sighting
* `noteSighting_cases`: by case, what is seen after it
* `cacheChange`: by case, what becomes of the lists
* `none_lost_of_stores`: none is lost where every list that is stored has all of them
* `guarded_storesAll`: what is stored has all of them where nothing of its manifest was recorded
  since
* `sighting_lost`: a query takes out a provider that was found while the list was on its way
-/

namespace Beemesh

/-! ## A sighting -/

/-- The entry of a provider, as a sighting of it leaves it. -/
def sightedEntry (now : ℕ) (info : ProviderInfo) (providers : List ProviderInfo) : ProviderInfo :=
  match providers.find? fun p => p.peerId = info.peerId with
  | some p => p.updateLastSeen now
  | none => info

/-- The entry that goes for it. -/
def evicted (config : ProviderConfig) (info : ProviderInfo) (providers : List ProviderInfo) :
    Option ProviderInfo :=
  if providers.any fun p => p.peerId = info.peerId then none
  else if config.maxProvidersPerManifest ≤ providers.length then
    (oldest providers).map Prod.fst
  else none

section Record

variable {config : ProviderConfig} {now : ℕ} {info : ProviderInfo} {providers : List ProviderInfo}

theorem of_find?_peerId {peer : String} {p : ProviderInfo}
    (h : providers.find? (fun p => p.peerId = peer) = some p) :
    p ∈ providers ∧ p.peerId = peer := by
  have hsame := List.find?_some h
  exact ⟨List.mem_of_find?_eq_some h, of_decide_eq_true hsame⟩

@[simp] theorem peerId_sightedEntry (now : ℕ) (info : ProviderInfo)
    (providers : List ProviderInfo) : (sightedEntry now info providers).peerId = info.peerId := by
  unfold sightedEntry
  split
  · next p hp => exact (of_find?_peerId hp).2
  · rfl

/-- A provider that is not in the list is new. -/
theorem sightedEntry_of_notMem (h : info.peerId ∉ providers.map ProviderInfo.peerId) :
    sightedEntry now info providers = info := by
  unfold sightedEntry
  split
  · next p hp =>
    obtain ⟨hmem, hsame⟩ := of_find?_peerId hp
    exact absurd (hsame ▸ List.mem_map_of_mem hmem) h
  · rfl

/-- A provider of the list is seen now. -/
theorem lastSeen_sightedEntry_of_mem (h : info.peerId ∈ providers.map ProviderInfo.peerId) :
    (sightedEntry now info providers).lastSeen = now := by
  unfold sightedEntry
  split
  · rfl
  · next hnone =>
    obtain ⟨p, hp, hsame⟩ := List.mem_map.mp h
    exact absurd (decide_eq_true hsame) (List.find?_eq_none.mp hnone p hp)

theorem mem_seeAgain_of_ne {peer : String} {e : ProviderInfo} (he : e ∈ providers)
    (hne : e.peerId ≠ peer) : e ∈ seeAgain now peer providers := by
  induction providers with
  | nil => exact he
  | cons p ps ih =>
    rw [seeAgain]
    split_ifs with hp
    · rcases List.mem_cons.mp he with rfl | he
      · exact absurd hp hne
      · exact List.mem_cons_of_mem _ he
    · rcases List.mem_cons.mp he with rfl | he
      · exact List.mem_cons_self
      · exact List.mem_cons_of_mem _ (ih he)

theorem updateLastSeen_mem_seeAgain {peer : String} {p : ProviderInfo}
    (h : providers.find? (fun p => p.peerId = peer) = some p) :
    p.updateLastSeen now ∈ seeAgain now peer providers := by
  induction providers with
  | nil => exact nomatch h
  | cons p' ps ih =>
    rw [seeAgain]
    split_ifs with hp
    · rw [List.find?_cons, decide_eq_true hp] at h
      obtain rfl := Option.some.inj h
      exact List.mem_cons_self
    · rw [List.find?_cons, decide_eq_false hp] at h
      exact List.mem_cons_of_mem _ (ih h)

/-- **The entry of a sighting** is in the list. -/
theorem sightedEntry_mem (config : ProviderConfig) (now : ℕ) (info : ProviderInfo)
    (providers : List ProviderInfo) :
    sightedEntry now info providers ∈ recordProvider config now info providers := by
  unfold sightedEntry recordProvider
  cases hfind : providers.find? fun p => p.peerId = info.peerId with
  | none =>
    rw [if_neg]
    · exact List.mem_append_right _ List.mem_cons_self
    · intro hany
      obtain ⟨p, hp, hsame⟩ := List.any_eq_true.mp hany
      exact List.find?_eq_none.mp hfind p hp hsame
  | some p =>
    obtain ⟨hp, hsame⟩ := of_find?_peerId hfind
    rw [if_pos (any_peerId_iff.mpr (List.mem_map.mpr ⟨p, hp, hsame⟩))]
    exact updateLastSeen_mem_seeAgain hfind

/-- **The other entries** are in the list as before, without the one that goes for it. -/
theorem mem_recordProvider {e : ProviderInfo} (he : e ∈ providers) (hne : e.peerId ≠ info.peerId)
    (hstays : ∀ old ∈ evicted config info providers, old.peerId ≠ e.peerId) :
    e ∈ recordProvider config now info providers := by
  unfold evicted at hstays
  unfold recordProvider
  split_ifs at hstays ⊢ with hknown hfull
  · exact mem_seeAgain_of_ne he hne
  · refine List.mem_append_left _ ?_
    rcases makeRoom_spec config providers with ⟨hroom, -⟩ | ⟨old, i, hold, -, hroom⟩
    · rwa [hroom]
    · obtain ⟨hi, -⟩ := oldest_spec hold
      obtain ⟨hbound, rfl⟩ := List.getElem?_eq_some_iff.mp hi
      have hsplit := (List.getElem_cons_eraseIdx_perm hbound).mem_iff.mpr he
      rw [hold, Option.map_some] at hstays
      rw [hroom]
      rcases List.mem_cons.mp hsplit with rfl | hrest
      · exact absurd rfl (hstays _ rfl)
      · exact hrest
  · refine List.mem_append_left _ ?_
    rw [makeRoom, if_neg hfull]
    exact he

end Record

/-! ## The manager, watched -/

/-- What the last sighting of a provider left, and whether that has been expired since. -/
structure SeenEntry where
  entry : ProviderInfo
  expired : Bool

/-- The manager, with what the last sightings left for each manifest and peer. -/
structure Watch where
  state : Discovery
  seen : String → String → Option SeenEntry

def Watch.start (now : ℕ) : Watch := ⟨Discovery.start now, fun _ _ => none⟩

def SeenEntry.expire (now : ℕ) (x : SeenEntry) : SeenEntry :=
  ⟨x.entry, x.expired || x.entry.isExpired now⟩

/-- The provider that a part of a call records. -/
def recordedInfo (s : Discovery) : DiscoveryAction → Option ProviderInfo
  | .record c =>
    match s.calls c with
    | .started info => some info
    | _ => none
  | _ => none

/-- What a provider that is recorded changes. -/
def noteSighting (config : ProviderConfig) (s : Discovery) (info : ProviderInfo)
    (seen : String → String → Option SeenEntry) (m peer : String) : Option SeenEntry :=
  let providers := s.remote.of info.manifestId
  if m ≠ info.manifestId then seen m peer
  else if peer = info.peerId then some ⟨sightedEntry s.now info providers, false⟩
  else if ∃ old ∈ evicted config info providers, old.peerId = peer then none
  else seen m peer

/-- What is seen once a provider is recorded: what was seen before for another manifest; the entry
of the provider; or that of a peer which stays. -/
theorem noteSighting_cases {config : ProviderConfig} {s : Discovery} {info : ProviderInfo}
    {seen : String → String → Option SeenEntry} {m peer : String} {x : SeenEntry}
    (h : noteSighting config s info seen m peer = some x) :
    (m ≠ info.manifestId ∧ seen m peer = some x) ∨
    (m = info.manifestId ∧ peer = info.peerId ∧
      x = ⟨sightedEntry s.now info (s.remote.of m), false⟩) ∨
    (m = info.manifestId ∧ peer ≠ info.peerId ∧
      (∀ old ∈ evicted config info (s.remote.of m), old.peerId ≠ peer) ∧ seen m peer = some x) := by
  unfold noteSighting at h
  dsimp only at h
  split_ifs at h with hm hpeer hevicted
  · exact .inl ⟨hm, h⟩
  · obtain rfl := not_not.mp hm
    exact .inr (.inl ⟨rfl, hpeer, (Option.some.inj h).symm⟩)
  · obtain rfl := not_not.mp hm
    exact .inr (.inr ⟨rfl, hpeer, fun old hold heq => hevicted ⟨old, hold, heq⟩, h⟩)

def seenAfter (config : ProviderConfig) (w : Watch) (a : DiscoveryAction) :
    String → String → Option SeenEntry :=
  match recordedInfo w.state a with
  | some info => noteSighting config w.state info w.seen
  | none => w.seen

/-- What a part of a call does, watched. -/
def watchStep (config : ProviderConfig) (w : Watch) (a : DiscoveryAction) : Watch :=
  let s := discoveryStep config w.state a
  ⟨s, fun m peer => (seenAfter config w a m peer).map (SeenEntry.expire s.now)⟩

@[simp] theorem state_watchStep (config : ProviderConfig) (w : Watch) (a : DiscoveryAction) :
    (watchStep config w a).state = discoveryStep config w.state a := rfl

/-- Watching changes nothing. -/
theorem state_run_watchStep (config : ProviderConfig) (w : Watch) (acts : List DiscoveryAction) :
    (Run.run (watchStep config) w acts).state = Run.run (discoveryStep config) w.state acts :=
  Run.run_image (fun _ _ => rfl) w acts

/-- What is seen after a part of a call was seen when it was done, or it is the sighting of it. -/
theorem of_seen_watchStep {config : ProviderConfig} {w : Watch} {a : DiscoveryAction}
    {m peer : String} {x : SeenEntry} (h : (watchStep config w a).seen m peer = some x) :
    ∃ x₀, seenAfter config w a m peer = some x₀ ∧
      x = x₀.expire (discoveryStep config w.state a).now := by
  obtain ⟨x₀, hx₀, rfl⟩ := Option.map_eq_some_iff.mp h
  exact ⟨x₀, hx₀, rfl⟩

theorem seen_watchStep {config : ProviderConfig} {w : Watch} {a : DiscoveryAction}
    {m peer : String} {x : SeenEntry} (h : seenAfter config w a m peer = some x) :
    (watchStep config w a).seen m peer =
      some (x.expire (discoveryStep config w.state a).now) := by
  change (seenAfter config w a m peer).map _ = _
  rw [h, Option.map_some]

/-! ## What becomes of the lists -/

/-- What a part of a call does to the clock and the lists, by case. -/
inductive CacheChange (config : ProviderConfig) (s : Discovery) :
    DiscoveryAction → ℕ → RemoteProviders → Prop
  | kept {a : DiscoveryAction} (h : recordedInfo s a = none) :
    CacheChange config s a s.now s.remote
  | clock (now : ℕ) : CacheChange config s (.clock now) now s.remote
  | recorded {c : ℕ} {info : ProviderInfo} (hcall : s.calls c = .started info) :
    CacheChange config s (.record c) s.now (recordFound config s.remote s.now info)
  | cleaned : CacheChange config s .cleanup s.now (cleanupExpiredProviders s.remote s.now)
  | stored {q : ℕ} {providers : List ProviderInfo}
    (hphase : (s.queries q).phase = .received providers) :
    CacheChange config s (.store q) s.now (s.remote.insert (s.queries q).manifestId providers)

/-- **What becomes of the lists**: one of the cases. -/
theorem cacheChange (config : ProviderConfig) (s : Discovery) (a : DiscoveryAction) :
    CacheChange config s a (discoveryStep config s a).now (discoveryStep config s a).remote := by
  -- Apart from the parts that record a provider, the inversion of a step says it.
  cases hrecorded : recordedInfo s a with
  | some info =>
    cases a with
    | record c =>
      cases hcall : s.calls c with
      | started info' =>
        rw [discoveryStep, hcall]
        exact .recorded hcall
      | idle => simp [recordedInfo, hcall] at hrecorded
      | recorded m => simp [recordedInfo, hcall] at hrecorded
    | _ => cases hrecorded
  | none =>
    have hpart := discoveryStep_part config s a
    generalize discoveryStep config s a = s' at hpart
    cases hpart with
    | clock now => exact .clock now
    | cleanup => exact .cleaned
    | store hphase => exact .stored hphase
    | record hcall => simp [recordedInfo, hcall] at hrecorded
    | take hcall hlock =>
      rw [Discovery.now_takeSenders, Discovery.remote_takeSenders]
      exact .kept hrecorded
    | notify =>
      rw [Discovery.now_notify, Discovery.remote_notify]
      exact .kept hrecorded
    | _ => exact .kept hrecorded

/-! ## None is lost -/

/-- The list has the entry of the peer; it may have been seen again. -/
def Holds (providers : List ProviderInfo) (peer : String) (entry : ProviderInfo) : Prop :=
  ∃ e ∈ providers, e.peerId = peer ∧ e.announcedAt = entry.announcedAt ∧
    e.ttlSeconds = entry.ttlSeconds ∧ entry.lastSeen ≤ e.lastSeen

/-- The list of a manifest has every provider that was seen for it, as late as it was last seen,
unless the limit took it out or its entry has been expired since. -/
def Watch.NoneLost (w : Watch) : Prop :=
  ∀ m peer x, w.seen m peer = some x → x.expired = false →
    ∃ e ∈ w.state.remote.of m, e.peerId = peer ∧ x.entry.lastSeen ≤ e.lastSeen

/-- A list that is stored has the entries of all of these. -/
def StoresAll (w : Watch) (a : DiscoveryAction) : Prop :=
  ∀ q providers, a = .store q → (w.state.queries q).phase = .received providers →
    ∀ peer x, w.seen (w.state.queries q).manifestId peer = some x → x.expired = false →
      Holds providers peer x.entry

/-- Every list has the entries, and they are not expired. -/
structure Watch.Kept (w : Watch) : Prop where
  holds : ∀ {m peer x}, w.seen m peer = some x → x.expired = false →
    Holds (w.state.remote.of m) peer x.entry
  live : ∀ {m peer x}, w.seen m peer = some x → x.expired = false →
    x.entry.isExpired w.state.now = false

namespace Watch

variable {config : ProviderConfig} {w : Watch}

theorem Kept.start (now : ℕ) : (start now).Kept where
  holds := nofun
  live := nofun

theorem Kept.noneLost (h : w.Kept) : w.NoneLost := by
  intro m peer x hx hfresh
  obtain ⟨e, he, hpeer, -, -, hseen⟩ := h.holds hx hfresh
  exact ⟨e, he, hpeer, hseen⟩

/-- Recording a provider keeps the entries of all others that it does not take out, and leaves its
own. -/
theorem Kept.holds_recorded (h : w.Kept) {info : ProviderInfo} {m peer : String} {x : SeenEntry}
    (hx : noteSighting config w.state info w.seen m peer = some x) (hfresh : x.expired = false) :
    Holds ((recordFound config w.state.remote w.state.now info).of m) peer x.entry := by
  rw [of_recordFound]
  rcases noteSighting_cases hx with ⟨hm, hseen⟩ | ⟨rfl, rfl, rfl⟩ | ⟨rfl, hpeer, hstays, hseen⟩
  · -- The list of another manifest is as it was.
    rw [if_neg hm]
    exact h.holds hseen hfresh
  · rw [if_pos rfl]
    exact ⟨_, sightedEntry_mem .., peerId_sightedEntry .., rfl, rfl, Nat.le_refl _⟩
  · obtain ⟨e, he, rfl, hsame⟩ := h.holds hseen hfresh
    rw [if_pos rfl]
    exact ⟨e, mem_recordProvider he hpeer hstays, rfl, hsame⟩

/-- What is seen after a part of a call, and is not expired, is in its list. -/
theorem Kept.holds_step (h : w.Kept) {a : DiscoveryAction} (hguard : StoresAll w a)
    {m peer : String} {x : SeenEntry} (hx : seenAfter config w a m peer = some x)
    (hfresh : x.expired = false)
    (hlive : x.entry.isExpired (discoveryStep config w.state a).now = false) :
    Holds ((discoveryStep config w.state a).remote.of m) peer x.entry := by
  have hchange := cacheChange config w.state a
  unfold seenAfter at hx
  generalize (discoveryStep config w.state a).now = now' at hchange hlive
  generalize (discoveryStep config w.state a).remote = remote' at hchange
  cases hchange with
  | kept hrecorded =>
    rw [hrecorded] at hx
    exact h.holds hx hfresh
  | clock => exact h.holds hx hfresh
  | recorded hcall =>
    simp only [recordedInfo, hcall] at hx
    exact h.holds_recorded hx hfresh
  | cleaned =>
    -- The entry of the list expires when the one that was left does.
    obtain ⟨e, he, hpeer, hannounced, httl, hseen⟩ := h.holds hx hfresh
    have hsame : e.isExpired w.state.now = x.entry.isExpired w.state.now := by
      rw [ProviderInfo.isExpired, hannounced, httl]
      rfl
    refine ⟨e, ?_, hpeer, hannounced, httl, hseen⟩
    rw [of_cleanupExpiredProviders]
    exact List.mem_filter.mpr ⟨he, by rw [hsame, hlive, Bool.not_false]⟩
  | @stored q providers hphase =>
    rw [of_insert]
    split_ifs with hm
    · subst hm
      exact hguard q providers rfl hphase peer x hx hfresh
    · exact h.holds hx hfresh

/-- **A part of a call keeps the entries**, if what it stores has them. -/
theorem Kept.step (h : w.Kept) {a : DiscoveryAction} (hguard : StoresAll w a) :
    (watchStep config w a).Kept := by
  refine ⟨?_, ?_⟩
  · intro m peer x hx hfresh
    obtain ⟨x, hseen, rfl⟩ := of_seen_watchStep hx
    obtain ⟨hbefore, hlive⟩ := Bool.or_eq_false_iff.mp hfresh
    have hholds := h.holds_step hguard hseen hbefore hlive
    exact hholds
  · intro m peer x hx hfresh
    obtain ⟨x, -, rfl⟩ := of_seen_watchStep hx
    exact (Bool.or_eq_false_iff.mp hfresh).2

end Watch

/-- **No sighting is lost** in a run whose queries store only lists that have the entries of all
providers that were seen: in every state, the list of a manifest has every provider that was found
for it, as late as it was last seen, unless the limit took it out or its entry has expired. -/
theorem none_lost_of_stores {config : ProviderConfig} (now : ℕ) {acts : List DiscoveryAction}
    (h : Run.Guarded (watchStep config) StoresAll (Watch.start now) acts) :
    Run.Always (watchStep config) Watch.NoneLost (Watch.start now) acts := by
  intro acts' hacts'
  have hstep (w : Watch) (a : DiscoveryAction) (hguard : StoresAll w a) (hw : w.Kept) :
      (watchStep config w a).Kept := hw.step hguard
  obtain ⟨rest, rfl⟩ := hacts'
  have hbefore := (Run.guarded_append.mp h).1
  exact (Run.Guarded.invariant hstep hbefore (Watch.Kept.start now)).noneLost

/-! ## Lists on their way -/

/-- Nothing is recorded for the manifest of the query. -/
def NotRecorded (q : ℕ) (w : Watch) (a : DiscoveryAction) : Prop :=
  ∀ info ∈ recordedInfo w.state a, info.manifestId ≠ (w.state.queries q).manifestId

/-- Whenever a query stores a list, nothing of its manifest was recorded since before it was sent
one. -/
def StoresUntouched (config : ProviderConfig) (now : ℕ) (acts : List DiscoveryAction) : Prop :=
  ∀ before q, before ++ [.store q] <+: acts → ∃ sent between, before = sent ++ between ∧
    (∀ providers, ¬ ((Run.run (watchStep config) (.start now) sent).state.queries q).OnItsWay
      providers) ∧
    Run.Guarded (watchStep config) (NotRecorded q) (Run.run (watchStep config) (.start now) sent)
      between

/-- Every list that is on its way to the query has the entries. -/
def Watch.Carried (w : Watch) (q : ℕ) : Prop :=
  ∀ providers, (w.state.queries q).OnItsWay providers → ∀ peer x,
    w.seen (w.state.queries q).manifestId peer = some x → x.expired = false →
      Holds providers peer x.entry

section OnTheWay

variable {config : ProviderConfig} {w : Watch} {q : ℕ}

/-- What is seen of a manifest after a part that records nothing for it was seen before. -/
theorem seen_of_notRecorded {a : DiscoveryAction} {m peer : String} {x : SeenEntry}
    (hother : ∀ info ∈ recordedInfo w.state a, info.manifestId ≠ m)
    (hx : (watchStep config w a).seen m peer = some x) (hfresh : x.expired = false) :
    ∃ x₀, w.seen m peer = some x₀ ∧ x₀.expired = false ∧ x₀.entry = x.entry := by
  obtain ⟨x₀, hseen, rfl⟩ := of_seen_watchStep hx
  refine ⟨x₀, ?_, (Bool.or_eq_false_iff.mp hfresh).1, rfl⟩
  unfold seenAfter at hseen
  cases hrecorded : recordedInfo w.state a with
  | none => rwa [hrecorded] at hseen
  | some info =>
    rw [hrecorded] at hseen
    rcases noteSighting_cases hseen with ⟨-, hseen⟩ | ⟨rfl, -, -⟩ | ⟨rfl, -, -, -⟩
    · exact hseen
    · exact absurd rfl (hother info hrecorded)
    · exact absurd rfl (hother info hrecorded)

/-- **What is on its way keeps the entries**, while nothing is recorded for its manifest. -/
theorem Watch.Carried.step (h : w.Carried q) (hkept : w.Kept) (haddressed : w.state.Addressed)
    {a : DiscoveryAction} (hother : NotRecorded q w a) : (watchStep config w a).Carried q := by
  intro providers hway peer x hx hfresh
  obtain ⟨hm, hbefore⟩ := haddressed.onItsWay_step hway
  rw [state_watchStep, hm] at hx
  obtain ⟨x₀, hseen, hfresh₀, hentry⟩ := seen_of_notRecorded hother hx hfresh
  rw [← hentry]
  rcases hbefore with hbefore | rfl
  · exact h providers hbefore peer x₀ hseen hfresh₀
  · exact hkept.holds hseen hfresh₀

end OnTheWay

/-- **What is stored has all entries** where nothing of its manifest was recorded since before it
was sent. -/
theorem guarded_storesAll {config : ProviderConfig} {now : ℕ} {acts : List DiscoveryAction}
    (h : StoresUntouched config now acts) :
    Run.Guarded (watchStep config) StoresAll (.start now) acts := by
  -- By the length of the run: before a query stores, all that was stored had the entries.
  induction acts using List.reverseRecOn with
  | nil => trivial
  | append_singleton acts a ih =>
    have hacts := ih fun before q hbefore => h before q (hbefore.trans (List.prefix_append _ _))
    refine Run.guarded_append.mpr ⟨hacts, ?_, trivial⟩
    rintro q providers rfl hphase
    obtain ⟨sent, between, rfl, hnone, hother⟩ := h acts q List.prefix_rfl
    obtain ⟨hsent, hbetween⟩ := Run.guarded_append.mp hacts
    rw [Run.run_append] at hphase ⊢
    have hinv (s : Watch) (a : DiscoveryAction) (hguard : StoresAll s a ∧ NotRecorded q s a)
        (hs : s.Kept ∧ s.state.Addressed ∧ s.Carried q) :
        (watchStep config s a).Kept ∧ (watchStep config s a).state.Addressed ∧
          (watchStep config s a).Carried q :=
      ⟨hs.1.step hguard.1, hs.2.1.step a, hs.2.2.step hs.1 hs.2.1 hguard.2⟩
    have hkept : (Run.run (watchStep config) (.start now) sent).Kept :=
      hsent.invariant (fun _ _ hguard hs => hs.step hguard) (.start now)
    have haddressed : (Run.run (watchStep config) (.start now) sent).state.Addressed := by
      have hstep (s : Watch) (a : DiscoveryAction) (hs : s.state.Addressed) :
          (watchStep config s a).state.Addressed := hs.step a
      exact Run.run_invariant hstep sent (Discovery.Addressed.start now)
    have hend := (hbetween.and hother).invariant hinv
      ⟨hkept, haddressed, fun providers hway => absurd hway (hnone providers)⟩
    exact hend.2.2 providers (.inl hphase)

/-- A list on its way, with nothing recorded while it is. -/
theorem none_lost_of_stores_one :
    Run.Always (watchStep .default) Watch.NoneLost (Watch.start 0)
      [.discover 0 "web", .register 0, .found 0 "web" "a", .record 0, .take 0, .notify, .receive 0,
        .store 0] := by
  refine none_lost_of_stores 0 (guarded_storesAll fun before q hbefore => ?_)
  -- It stores once, at the end.
  have hwhole : before ++ [.store q] = [.discover 0 "web", .register 0, .found 0 "web" "a",
      .record 0, .take 0, .notify, .receive 0] ++ [.store 0] := by
    refine (List.prefix_concat_iff.mp hbefore).resolve_right fun hfront => ?_
    have hmem := hfront.subset (List.mem_append_right before (List.mem_singleton_self _))
    simp at hmem
  obtain ⟨rfl, hstore⟩ := List.append_inj' hwhole rfl
  obtain rfl : q = 0 := by simpa using hstore
  refine ⟨[.discover 0 "web", .register 0, .found 0 "web" "a", .record 0, .take 0],
    [.notify, .receive 0], rfl, ?_, nofun, nofun, trivial⟩
  rintro providers (hreceived | hinbox)
  · cases hreceived
  · cases hinbox

/-- No call is on its way. -/
structure Discovery.Quiet (s : Discovery) : Prop where
  calls : ∀ c, s.calls c = .idle
  notifying : s.notifying = none
  queries : ∀ q, (s.queries q).phase = .idle ∨
    ∃ result time, (s.queries q).phase = .returned result time

/-- **A sighting is lost**: a provider is found and recorded while a query has its list, and the
query stores the list. -/
theorem sighting_lost :
    ¬ ∀ (config : ProviderConfig) (now : ℕ) (acts : List DiscoveryAction),
      (Run.run (watchStep config) (Watch.start now) acts).state.Quiet →
        (Run.run (watchStep config) (Watch.start now) acts).NoneLost := by
  intro h
  have hlost := h .default 0 [.discover 0 "web", .register 0, .found 0 "web" "a", .record 0,
    .take 0, .notify, .receive 0, .found 0 "web" "b", .record 0, .take 0, .store 0] ?_ "web" "b"
    ⟨foundProvider .default 0 "web" "b", false⟩ (by rfl) rfl
  · -- The list that was stored has one provider only.
    obtain ⟨e, he, hpeer, -⟩ := hlost
    have hmem : "b" ∈ ["a"] := hpeer ▸ List.mem_map_of_mem he
    exact absurd hmem (by decide)
  · refine ⟨?_, rfl, ?_⟩
    · intro c
      cases c with
      | zero => rfl
      | succ c => rfl
    · intro q
      cases q with
      | zero => exact .inr ⟨_, _, rfl⟩
      | succ q => exact .inl rfl

end Beemesh
