import Beemesh.Provider.Discovery

/-!
# What a discovery returns, and what it leaves

A call of `discover_providers`, among all other calls. From the cache it has only entries that are
not expired. From a query it has the list of the manifest as it is, expired entries included; and
where its time is up before a provider is found, its sender stays with the pending queries.

## Main definitions

* `Discovery.Unused`: a call that has not begun
* `Discovery.AnswersWell`: what it has returned is not expired, and it has left no sender
* `Discovery.LeavesNothing`: it does not store an expired entry, nor give up a sender that is there
* `Discovery.Settled`: where its sender is, before it returns

## Main results

* `Discovery.Settled.step`: the sender is there only while the call waits for it
* `answers_well_iff`: the runs in which a call answers well
* `expired_answer`: a call that returns an expired entry
-/

namespace Beemesh

namespace Discovery

/-- A call that has not begun, and has no sender yet. -/
structure Unused (s : Discovery) (q : ℕ) : Prop where
  idle : (s.queries q).phase = .idle
  senders : ∀ m, q ∉ s.senders m

/-- Once the call has returned, what it has returned was not expired then, and its sender is not
with the pending queries. -/
def AnswersWell (q : ℕ) (s : Discovery) : Prop :=
  ∀ result time, (s.queries q).phase = .returned result time →
    (∀ providers, result = .ok providers → ∀ e ∈ providers, e.isExpired time = false) ∧
      ∀ m, q ∉ s.senders m

/-- A part of the call that stores a list stores no expired entry; and its time is not up while its
sender is with the pending queries. -/
structure LeavesNothing (q : ℕ) (s : Discovery) (a : DiscoveryAction) : Prop where
  stores : a = .store q → ∀ providers, (s.queries q).phase = .received providers →
    ∀ e ∈ providers, e.isExpired s.now = false
  timeout : a = .timeout q → ∀ m, q ∉ s.senders m

/-- The sender is with the pending queries of its manifest, while the call waits and has been sent
nothing, or with none. -/
structure Settled (q : ℕ) (s : Discovery) : Prop where
  own : ∀ {m}, q ∈ s.senders m → (s.queries q).manifestId = m ∧ (s.queries q).phase = .waiting ∧
    (s.queries q).inbox = [] ∧ ∀ n ∈ s.notifying, q ∉ n.2
  missed : (s.queries q).phase = .missed → (s.queries q).inbox = []
  answered : AnswersWell q s

variable {config : ProviderConfig} {s s' : Discovery} {q : ℕ}

theorem Unused.settled (h : s.Unused q) : Settled q s where
  own hq := absurd hq (h.senders _)
  missed hphase := nomatch h.idle.symm.trans hphase
  answered _ _ hphase := nomatch h.idle.symm.trans hphase

/-- A call whose sender is with no pending query. -/
theorem Settled.of_notMem (hsenders : ∀ m, q ∉ s.senders m)
    (hmissed : (s.queries q).phase = .missed → (s.queries q).inbox = [])
    (hlive : ∀ providers time, (s.queries q).phase = .returned (.ok providers) time →
      ∀ e ∈ providers, e.isExpired time = false) : Settled q s where
  own hq := absurd hq (hsenders _)
  missed := hmissed
  answered := by
    rintro result time hphase
    refine ⟨?_, hsenders⟩
    rintro providers rfl
    exact hlive providers time hphase

/-- A step that does not deal with the call, nor with the senders that are taken. -/
theorem Settled.congr (h : Settled q s) (hquery : s'.queries q = s.queries q)
    (hsenders : ∀ m, q ∈ s'.senders m → q ∈ s.senders m) (hlock : s'.notifying = s.notifying) :
    Settled q s' where
  own hq := by
    rw [hquery, hlock]
    exact h.own (hsenders _ hq)
  missed := by
    rw [hquery]
    exact h.missed
  answered := by
    intro result time
    rw [hquery]
    intro hphase
    obtain ⟨hlive, hgone⟩ := h.answered result time hphase
    exact ⟨hlive, fun m hq => hgone m (hsenders m hq)⟩

/-- A call that does not wait has no sender. -/
theorem Settled.notMem (h : Settled q s) {phase : QueryPhase}
    (hphase : (s.queries q).phase = phase) (hother : phase ≠ .waiting) (m : String) :
    q ∉ s.senders m :=
  fun hq => hother (hphase.symm.trans (h.own hq).2.1)

theorem Settled.takeSenders (h : Settled q s) (hlock : s.notifying = none) (m : String) :
    Settled q (s.takeSenders m) := by
  have hsenders (m' : String) (hq : q ∈ (s.takeSenders m).senders m') :
      m' ≠ m ∧ q ∈ s.senders m' := by
    rw [senders_takeSenders] at hq
    split_ifs at hq with hm
    · exact nomatch hq
    · exact ⟨hm, hq⟩
  refine ⟨?_, ?_, ?_⟩
  · intro m' hq
    obtain ⟨hm, hq⟩ := hsenders m' hq
    obtain ⟨rfl, hphase, hinbox, -⟩ := h.own hq
    rw [queries_takeSenders]
    refine ⟨rfl, hphase, hinbox, ?_⟩
    -- The senders of another manifest are taken.
    intro n hn hmem
    obtain rfl := of_mem_notifying_takeSenders hlock hn
    exact hm (h.own hmem).1
  · rw [queries_takeSenders]
    exact h.missed
  · intro result time
    rw [queries_takeSenders]
    intro hphase
    obtain ⟨hlive, hgone⟩ := h.answered result time hphase
    exact ⟨hlive, fun m' hq => hgone m' (hsenders m' hq).2⟩

theorem Settled.notify (h : Settled q s) : Settled q s.notify := by
  have hsenders (m : String) : s.notify.senders m = s.senders m := by
    rw [Discovery.senders, pending_notify, Discovery.senders]
  refine ⟨?_, ?_, ?_⟩
  · intro m hq
    rw [hsenders] at hq
    obtain ⟨rfl, hphase, hinbox, hnot⟩ := h.own hq
    rw [manifestId_notify, phase_notify, notifying_notify]
    refine ⟨rfl, hphase, ?_, fun n hn => absurd hn (Option.not_mem_none n)⟩
    -- A sender that is with the pending queries is not among those that were taken.
    rcases queries_notify (s := s) q with hquery | ⟨n, hn, k, hquery, hsent⟩
    · rw [hquery, hinbox]
    · have hk : k = 0 := not_not.mp fun hk => hnot n hn (hsent.mp hk).1
      rw [hquery, hinbox, hk]
      rfl
  · rw [phase_notify]
    intro hphase
    rcases queries_notify (s := s) q with hquery | ⟨n, hn, k, hquery, hsent⟩
    · rw [hquery, h.missed hphase]
    · have hk : k = 0 := by
        by_contra hk
        rw [(hsent.mp hk).2] at hphase
        cases hphase
      rw [hquery, h.missed hphase, hk]
      rfl
  · intro result time
    rw [phase_notify]
    intro hphase
    simp only [hsenders]
    exact h.answered result time hphase

/-- A change of a call. If it is the one, its sender is with no pending query. -/
theorem Settled.setQuery (h : Settled q s) {q' : ℕ} {query : ProviderQuery}
    (hself : q' = q → (∀ m, q ∉ s.senders m) ∧ (query.phase = .missed → query.inbox = []) ∧
      ∀ providers time, query.phase = .returned (.ok providers) time →
        ∀ e ∈ providers, e.isExpired time = false) : Settled q (s.setQuery q' query) := by
  rcases eq_or_ne q q' with rfl | hne
  · obtain ⟨hsenders, hmissed, hlive⟩ := hself rfl
    refine Settled.of_notMem hsenders ?_ ?_
    · rwa [queries_setQuery_self]
    · rwa [queries_setQuery_self]
  · exact h.congr (queries_setQuery_of_ne s hne query) (fun _ => id) rfl

/-- A call leaves its sender: it waits. -/
theorem Settled.register (h : Settled q s) {q' : ℕ} (hphase : (s.queries q').phase = .missed)
    (hlock : s.notifying = none) :
    Settled q { s.setPhase q' .waiting with
      pending := s.pending.insert (s.queries q').manifestId
        (s.senders (s.queries q').manifestId ++ [q']) } := by
  rcases eq_or_ne q q' with rfl | hne
  · have hnot := h.notMem hphase (by simp)
    refine ⟨?_, ?_, ?_⟩
    · intro m hq
      obtain ⟨-, rfl⟩ := (mem_senders_insert.mp hq).resolve_left (hnot m)
      dsimp only
      rw [setPhase, queries_setQuery_self]
      refine ⟨rfl, rfl, h.missed hphase, ?_⟩
      intro n hn
      change n ∈ s.notifying at hn
      rw [hlock] at hn
      cases hn
    · dsimp only
      rw [setPhase, queries_setQuery_self]
      intro hmissed
      cases hmissed
    · intro result time
      dsimp only
      rw [setPhase, queries_setQuery_self]
      intro hreturned
      cases hreturned
  · refine h.congr (queries_setQuery_of_ne s hne _) ?_ rfl
    intro m hq
    exact (mem_senders_insert.mp hq).resolve_right fun heq => hne heq.1

/-- **A part of a call** that leaves nothing behind keeps the sender with the call. -/
theorem Settled.step (h : Settled q s) {a : DiscoveryAction} (hguard : LeavesNothing q s a) :
    Settled q (discoveryStep config s a) := by
  have hpart := discoveryStep_part config s a
  generalize discoveryStep config s a = s' at hpart
  cases hpart with
  | nothing => exact h
  | clock now => exact h.congr rfl (fun _ => id) rfl
  | found m peer hcall => exact h.congr rfl (fun _ => id) rfl
  | record hcall => exact h.congr rfl (fun _ => id) rfl
  | @take c m hcall hlock =>
    have hidle : Settled q (s.setCall c .idle) := h.congr rfl (fun _ => id) rfl
    exact hidle.takeSenders hlock m
  | notify => exact h.notify
  | cleanup => exact h.congr rfl (fun _ => id) rfl
  | hit hphase hcached =>
    refine h.setQuery ?_
    rintro rfl
    refine ⟨h.notMem hphase (by simp), nofun, ?_⟩
    -- What the cache answers with is not expired.
    rintro providers time ⟨⟩ e he
    obtain ⟨-, rfl⟩ := cachedProviders_eq_some_iff.mp hcached
    simpa using (List.mem_filter.mp he).2
  | miss hphase hcached =>
    refine h.setQuery ?_
    rintro rfl
    exact ⟨h.notMem hphase (by simp), fun _ => rfl, nofun⟩
  | register hphase hlock => exact h.register hphase hlock
  | receive hphase hinbox =>
    refine h.setQuery ?_
    rintro rfl
    refine ⟨?_, nofun, nofun⟩
    -- It has been sent something.
    intro m hq
    exact nomatch hinbox.symm.trans (h.own hq).2.2.1
  | @store q' providers hphase =>
    have hreturned : Settled q (s.setPhase q' (.returned (.ok providers) s.now)) := by
      refine h.setQuery ?_
      rintro rfl
      refine ⟨h.notMem hphase (by simp), nofun, ?_⟩
      rintro providers time ⟨⟩
      exact hguard.stores rfl providers hphase
    exact hreturned.congr rfl (fun _ => id) rfl
  | closed hphase hinbox hgone =>
    -- The channel is closed only when its sender is gone.
    refine h.setQuery ?_
    rintro rfl
    refine ⟨fun m hq => ?_, nofun, ?_⟩
    · obtain ⟨rfl, -⟩ := h.own hq
      exact hgone.1 hq
    · rintro providers time ⟨⟩
      exact nofun
  | timeout hphase hinbox =>
    refine h.setQuery ?_
    rintro rfl
    exact ⟨hguard.timeout rfl, nofun, nofun⟩

/-- **A part of the call that leaves something behind**: an expired entry, or its sender. -/
theorem Settled.not_answersWell (h : Settled q s) {a : DiscoveryAction}
    (hguard : ¬ LeavesNothing q s a) : ¬ AnswersWell q (discoveryStep config s a) := by
  intro hanswers
  refine hguard ⟨?_, ?_⟩
  · rintro rfl providers hphase
    have hafter : discoveryStep config s (.store q) =
        { s.setPhase q (.returned (.ok providers) s.now) with
          remote := s.remote.insert (s.queries q).manifestId providers } := by
      rw [discoveryStep, hphase]
    rw [hafter] at hanswers
    have hreturned : ((s.setPhase q (.returned (.ok providers) s.now)).queries q).phase =
        .returned (.ok providers) s.now := by
      rw [setPhase, queries_setQuery_self]
      rfl
    exact (hanswers _ _ hreturned).1 providers rfl
  · rintro rfl m hq
    obtain ⟨-, hphase, hinbox, -⟩ := h.own hq
    have hafter : discoveryStep config s (.timeout q) =
        s.setPhase q (.returned (.error .timeout) s.now) := by
      rw [discoveryStep, hphase, hinbox]
    rw [hafter] at hanswers
    have hreturned : ((s.setPhase q (.returned (.error .timeout) s.now)).queries q).phase =
        .returned (.error .timeout) s.now := by
      rw [setPhase, queries_setQuery_self]
      rfl
    exact (hanswers _ _ hreturned).2 m hq

end Discovery

/-- **The runs in which a call answers well**: those in which it stores no list with an expired
entry, and its time is not up while its sender is with the pending queries. -/
theorem answers_well_iff {config : ProviderConfig} {s : Discovery} {q : ℕ} (h : s.Unused q)
    (acts : List DiscoveryAction) :
    Run.Always (discoveryStep config) (Discovery.AnswersWell q) s acts ↔
      Run.Guarded (discoveryStep config) (Discovery.LeavesNothing q) s acts := by
  have hp (s : Discovery) (hs : Discovery.Settled q s) : Discovery.AnswersWell q s := hs.answered
  have hstep (s : Discovery) (a : DiscoveryAction) (hs : Discovery.Settled q s)
      (hguard : Discovery.LeavesNothing q s a) :
      Discovery.Settled q (discoveryStep config s a) := hs.step hguard
  have hbreak (s : Discovery) (a : DiscoveryAction) (_ : True) (hs : Discovery.Settled q s)
      (hguard : ¬ Discovery.LeavesNothing q s a) :
      ¬ Discovery.AnswersWell q (discoveryStep config s a) := hs.not_answersWell hguard
  exact Run.always_iff_guarded hp hstep hbreak (fun _ _ => trivial) h.settled

/-- A call whose time is up. -/
theorem answers_well_iff_timeout :
    Run.Always (discoveryStep .default) (Discovery.AnswersWell 0) (Discovery.start 0)
        [.discover 0 "web", .register 0, .timeout 0] ↔
      Run.Guarded (discoveryStep .default) (Discovery.LeavesNothing 0) (Discovery.start 0)
        [.discover 0 "web", .register 0, .timeout 0] :=
  answers_well_iff ⟨rfl, fun _ => List.not_mem_nil⟩ _

/-- **A call returns an expired entry**: a provider is found while the list has one that is
expired. -/
theorem expired_answer :
    ¬ ∀ (config : ProviderConfig) (s : Discovery) (q : ℕ) (acts : List DiscoveryAction),
      s.Unused q → Discovery.AnswersWell q (Run.run (discoveryStep config) s acts) := by
  intro h
  have hanswers := h .default (Discovery.start 0) 0 [.found 0 "web" "a", .record 0, .take 0,
    .clock 3601000000000, .discover 0 "web", .register 0, .found 0 "web" "b", .record 0, .take 0,
    .notify, .receive 0, .store 0] ⟨rfl, fun _ => List.not_mem_nil⟩ _ _ rfl
  have hlive := hanswers.1 _ rfl (foundProvider .default 0 "web" "a") List.mem_cons_self
  exact absurd hlive (by decide)

end Beemesh
